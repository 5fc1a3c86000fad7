import DynamicSql.Error
import DynamicSql.Value.Document

/-!
# Rows

A row of a result has as many values as columns. Its values are found by the name of a column, of
which the first counts, or by position, and are asked for as values of one kind.
-/

namespace DynamicSql

/-- A row of a result. -/
structure Row where
  columns : List String
  values : List Value
  sameLength : columns.length = values.length

namespace Row

/-- The row with columns and values, if there are as many of the ones as of the others. -/
def of? (columns : List String) (values : List Value) : Option Row :=
  if h : columns.length = values.length then some ⟨columns, values, h⟩ else none

/-- The number of columns. -/
def size (r : Row) : Nat := r.columns.length

/-- The value of the first column with a name. -/
def find? (r : Row) (column : String) : Option Value :=
  (r.columns.zip r.values).lookup column

/-- The value of a column, or an error that names it. -/
def value (r : Row) (column : String) : Except Error Value :=
  match r.find? column with
  | some v => .ok v
  | none => .error (.missingColumn column)

/-- The value at a position. -/
def valueAt (r : Row) (index : Nat) : Except Error Value :=
  match r.values[index]? with
  | some v => .ok v
  | none => .error (.columnOutOfBounds index r.values.length)

/-- The document of a row. -/
def toJson (r : Row) : Json :=
  .object [("columns", .array (r.columns.map .string)),
    ("values", .array (r.values.map Value.toJson))]

end Row

namespace Value

/-- A value as an integer. -/
def toInt : Value → Except Error Int64
  | .int n => .ok n
  | v => .error (.wrongKind .int v)

/-- A value as an unsigned integer. -/
def toUnsigned : Value → Except Error UInt64
  | .int n => if n < 0 then .error .negativeInteger else .ok n.toUInt64
  | v => .error (.wrongKind .int v)

/-- A value as a double; integers are rounded to the nearest one. -/
def toFloat : Value → Except Error Decimal.Binary64
  | .float x => .ok x
  | .int n => .ok (.ofInt n.toInt)
  | v => .error (.wrongKind .float v)

/-- A value as a truth value. -/
def toBool : Value → Except Error Bool
  | .bool b => .ok b
  | v => .error (.wrongKind .bool v)

/-- A value as a text. -/
def toText : Value → Except Error String
  | .string s => .ok s
  | v => .error (.wrongKind .string v)

/-- A value as an identifier. -/
def toUuid : Value → Except Error Uuid
  | .uuid u => .ok u
  | v => .error (.wrongKind .uuid v)

/-- A value that may be null, read in a given way otherwise. -/
def optional {α : Type} (read : Value → Except Error α) : Value → Except Error (Option α)
  | .null => .ok none
  | v => (read v).map some

end Value

end DynamicSql
