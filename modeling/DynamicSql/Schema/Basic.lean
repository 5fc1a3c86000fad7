import DynamicSql.Error

/-!
# Tables and schemas

A table lists pairs of a field, the name that queries use, and a column, the name that the database
uses. Where a field or a column occurs in several pairs, the last one decides. A schema maps the
names of tables to their descriptions.
-/

namespace DynamicSql

/-- A pair of names for one datum of a table. -/
structure Column where
  field : String
  column : String
deriving DecidableEq

/-- The description of a table: its columns in the order of their declaration. -/
structure Table where
  columns : List Column
deriving DecidableEq

namespace Table

/-- The column of a field. -/
def columnOf? (t : Table) (field : String) : Option String :=
  (t.columns.reverse.find? (·.field == field)).map (·.column)

/-- The field of a column. -/
def fieldOf? (t : Table) (column : String) : Option String :=
  (t.columns.reverse.find? (·.column == column)).map (·.field)

/-- Whether a name is a column of the table. -/
def hasColumn (t : Table) (name : String) : Bool :=
  t.columns.any (·.column == name)

/-- Whether a name is a field or a column of the table. -/
def knows (t : Table) (name : String) : Bool :=
  t.columns.any (·.field == name) || t.hasColumn name

/-- The column that a name stands for: that of the field with this name, or else the column with
this name. -/
def resolve? (t : Table) (name : String) : Option String :=
  match t.columnOf? name with
  | some column => some column
  | none => if t.hasColumn name then some name else none

/-- The name under which a column is shown: its field, or else the name it was asked for by. -/
def fieldFor (t : Table) (column name : String) : String :=
  (t.fieldOf? column).getD name

end Table

/-- The tables that statements may use, each name once. -/
structure Schema where
  tables : List (String × Table)

namespace Schema

/-- A schema without tables. -/
def empty : Schema := ⟨[]⟩

/-- Put a table under a name, in place of a former one. -/
def register (s : Schema) (name : String) (columns : List Column) : Schema :=
  ⟨s.tables.filter (·.1 != name) ++ [(name, ⟨columns⟩)]⟩

/-- The table with a name. -/
def find? (s : Schema) (name : String) : Option Table :=
  s.tables.lookup name

/-- The table with a name, or an error that shows the name. -/
def table (s : Schema) (name : String) : Except Error Table :=
  match s.find? name with
  | some t => .ok t
  | none => .error (.unknownTable name)

/-- Whether there is a table with a name. -/
def contains (s : Schema) (name : String) : Bool :=
  (s.find? name).isSome

/-- The number of tables. -/
def size (s : Schema) : Nat := s.tables.length

end Schema

end DynamicSql
