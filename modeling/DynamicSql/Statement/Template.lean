import DynamicSql.Statement.Basic

/-!
# Statements written by hand

A statement written by hand has question marks where values go. Each becomes a numbered marker,
unless it stands inside a literal, and the values are bound by position. Statements that read or
delete a row by its field `id` are made without a description, too.
-/

namespace DynamicSql

/-- Replace the question marks outside literals by markers, the next of which has a number. -/
def markPositions (root : String) (quoted : Bool) (next : Nat) : List Char → List Char
  | [] => []
  | c :: rest =>
    if c = '\'' then c :: markPositions root (!quoted) next rest
    else if c = '?' ∧ !quoted then
      ("#\x7b" ++ root ++ "[" ++ toString next ++ "]\x7d").toList ++
        markPositions root quoted (next + 1) rest
    else c :: markPositions root quoted next rest

/-- A statement written by hand with its values. -/
structure Template where
  sql : String
  values : List Value

/-- The text of a statement written by hand with numbered markers. -/
def Template.numbered (root sql : String) : String :=
  String.ofList (markPositions root false 0 sql.toList)

/-- The statement that a template stands for. -/
def Template.statement (root : String) (t : Template) : Statement :=
  ⟨numbered root t.sql, .ofPositional t.values⟩

/-- The place of the value that a row is found by. -/
def idSlot : Slot := ⟨.compared, (Path.ofRoot 0).child "id", 0, none⟩

/-- A statement that ends in the value that a row is found by. -/
def byId (root text : String) (id : Value) : Statement :=
  ⟨text ++ idSlot.marker root, Params.empty.insert idSlot.purpose.space idSlot.key id⟩

/-- Delete the row with an `id`. -/
def deleteById (root table : String) (id : Value) : Statement :=
  byId root ("DELETE FROM " ++ table ++ " WHERE id = ") id

/-- Read all columns of the row with an `id`, each under the name of its field. -/
def selectById (root table : String) (description : Table) (id : Value) : Statement :=
  let columns := description.columns.map fun c =>
    if c.field = c.column then c.column else c.column ++ " AS " ++ c.field
  byId root ("SELECT " ++ ", ".intercalate columns ++ " FROM " ++ table ++ " WHERE id = ") id

end DynamicSql
