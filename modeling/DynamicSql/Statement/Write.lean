import DynamicSql.Statement.Basic

/-!
# Statements that write

Rows are inserted, updated and deleted. An update or a deletion without conditions is refused, and
so is one whose conditions are all empty groups.
-/

namespace DynamicSql

/-- The column that a field is written to. -/
def Table.writeColumn (t : Table) (name field : String) : Except Error String :=
  match t.resolve? field with
  | some column => .ok column
  | none => .error (.unwritableField field name)

/-- The values of a row to insert, in parentheses; `r` is its number. -/
def insertTuple (r : Nat) (row : Insert) : Resolve Fragment := do
  let markers ← row.values.zipIdx.mapM fun ((_, v), i) =>
    Resolve.bound ⟨.assigned, (Path.ofRoot r).child "i", i, none⟩ v
  return .parens (.join ", " (markers.map ([·])))

/-- Check that rows have the fields of the first one; the first of them has the number `r`. -/
def checkRows (table : String) (fields : List String) (r : Nat) : List Insert → Except Error Unit
  | [] => .ok ()
  | row :: rest =>
    if row.fields = fields then checkRows table fields (r + 1) rest
    else .error (.unevenRow r table)

/-- The text that changes a column by the value that a marker stands for. -/
def assignmentText (change : Change) (target : Fragment) (marker : Piece) : Fragment :=
  match change with
  | .set => target ++ [.text " = ", marker]
  | .increment => target ++ Piece.text " = " :: target ++ [.text " + ", marker]
  | .decrement => target ++ Piece.text " = " :: target ++ [.text " - ", marker]

/-- Behind a writing statement, its ordering and its limit. -/
def writeTail (d : Dialect) (statement table : String) (orders : List Fragment)
    (limit : Option UInt64) : Except Error Fragment := do
  d.checkBounds statement table (!orders.isEmpty) limit
  return SelectParts.clause " ORDER BY " ", " orders ++ [.text (Dialect.limitClause limit)]

namespace Context

/-- The assignments of an update, the first of which has the given number. -/
def assignments (scope : Scope) (qualify : Bool) (path : Path) (i : Nat) :
    List Assignment → Resolve (List Fragment)
  | [] => pure []
  | a :: rest => do
    let column ← Resolve.ofExcept (scope.table.writeColumn scope.name a.field)
    let target := Fragment.qualified (if qualify then scope.token? else none) column
    let marker ← Resolve.bound ⟨.assigned, path, i, none⟩ a.value
    let others ← assignments scope qualify path (i + 1) rest
    return assignmentText a.change target marker :: others

/-- An update of a table. -/
def update (ctx : Context) (u : Update) (table : String) (path : Path) : Resolve Fragment := do
  let scope ← ctx.openScope u.token table
  let joined ← ctx.joined scope (path.child "cl") .conditionsOnly 0 u.joins
  let sets ← assignments scope (!u.joins.isEmpty) (path.child "u") 0 u.sets
  let terms ← ctx.groupTerms scope (path.child "ut") u.conditions
  if terms.isEmpty then Resolve.fail (.emptyUpdateConditions table)
  else
    let orders ← u.orders.mapM (ctx.orderItem scope)
    let tail ← Resolve.ofExcept (writeTail ctx.dialect "update" table orders u.limit)
    return .text "UPDATE " :: .table table u.token :: joined.text ++
      .text " SET " :: Fragment.join ", " sets ++
      .text " WHERE " :: combineWhere ctx.root (Term.whereText terms :: joined.conditions) ++ tail

/-- A deletion from a table. Its columns are not qualified. -/
def delete (ctx : Context) (d : Delete) (table : String) : Resolve Fragment := do
  let description ← Resolve.ofExcept (ctx.schema.table table)
  let terms ← ctx.groupTerms ⟨table, none, description⟩ ((Path.ofRoot 0).child "dt") d.conditions
  if terms.isEmpty then Resolve.fail (.emptyDeleteConditions table)
  else
    let tail ← Resolve.ofExcept (writeTail ctx.dialect "delete" table [] d.limit)
    return .text ("DELETE FROM " ++ table ++ " WHERE ") :: Term.whereText terms ++ tail

end Context

namespace Compiler

/-- The draft of an insertion of rows into a table. -/
def insertDraft (c : Compiler) (rows : List Insert) (table : String) : Except Error Draft :=
  match rows with
  | [] => .error (.insertWithoutRows table)
  | first :: _ => do
    if first.values.isEmpty then .error (.insertWithoutValues table)
    else
      let description ← c.schema.table table
      let columns ← first.fields.mapM (description.writeColumn table)
      checkRows table first.fields 0 rows
      let (tuples, trace) ← (rows.zipIdx.mapM fun (row, r) => insertTuple r row).run
      let head := "INSERT INTO " ++ table ++ " (" ++ ", ".intercalate columns ++ ") VALUES "
      return (.text head :: Fragment.join ", " tuples, trace)

/-- The insertion of rows into a table. -/
def insertRows (c : Compiler) (rows : List Insert) (table : String) : Except Error Statement := do
  return c.finish (← c.insertDraft rows table)

/-- The insertion of one row into a table. -/
def insert (c : Compiler) (row : Insert) (table : String) : Except Error Statement :=
  c.insertRows [row] table

/-- The tables of an update. -/
def updateReferences (u : Update) (table : String) : List (Token × String) :=
  (u.token, table) :: u.conditions.references ++ joinReferences u.joins

/-- The draft of an update of a table, as the statement with a number. -/
def updateAt (c : Compiler) (u : Update) (table : String) (n : Nat) : Except Error Draft := do
  if u.sets.isEmpty then .error (.nothingToSet table)
  else if u.conditions.isEmpty then .error (.unconditionalUpdate table)
  else
    if !u.joins.isEmpty then c.dialect.checkJoinedUpdate table
    let ctx ← c.context (updateReferences u table)
    (ctx.update u table (.ofRoot n)).run

/-- An update of a table. -/
def update (c : Compiler) (u : Update) (table : String) : Except Error Statement := do
  return c.finish (← c.updateAt u table 0)

/-- The drafts of several updates of a table. -/
def batchDrafts (c : Compiler) (us : List Update) (table : String) :
    Except Error (List Draft) := do
  if us.isEmpty then .error (.emptyBatch table)
  else us.zipIdx.mapM fun (u, n) => c.updateAt u table n

/-- Several updates of a table, each closed by a semicolon. Each has aliases of its own. -/
def updateBatch (c : Compiler) (us : List Update) (table : String) : Except Error Statement := do
  let drafts ← c.batchDrafts us table
  return ⟨String.join (drafts.map fun draft => c.render draft ++ ";"),
    .ofBound (drafts.flatMap (·.2.bound))⟩

/-- The draft of a deletion from a table. -/
def deleteDraft (c : Compiler) (d : Delete) (table : String) : Except Error Draft := do
  if d.conditions.isEmpty then .error (.unconditionalDelete table)
  else
    let ctx ← c.context d.conditions.references
    (ctx.delete d table).run

/-- A deletion from a table. -/
def delete (c : Compiler) (d : Delete) (table : String) : Except Error Statement := do
  return c.finish (← c.deleteDraft d table)

end Compiler

end DynamicSql
