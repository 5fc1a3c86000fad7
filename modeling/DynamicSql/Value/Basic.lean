import DynamicSql.Calendar.Clock
import DynamicSql.Decimal.Binary64
import DynamicSql.Json.Basic
import DynamicSql.Uuid

/-!
# Bound values

The values that a statement carries beside its text. A value never becomes a part of the text: the
text holds a marker for it.
-/

namespace DynamicSql

/-- A value to be bound to a marker of a statement. -/
inductive Value where
  | null
  | bool (b : Bool)
  | int (n : Int64)
  | float (x : Decimal.Binary64)
  | string (s : String)
  | bytes (bs : List UInt8)
  | date (d : Calendar.Date)
  /-- A day and a time of day without a zone. -/
  | dateTime (t : Calendar.Timestamp)
  /-- A point in time, given in universal time. -/
  | instant (t : Calendar.Timestamp)
  | time (t : Calendar.Clock)
  | uuid (u : Uuid)
  | json (j : Json)
  | list (items : List Value)

namespace Value

/-- Whether a value is the null of the database. -/
def isNull : Value → Bool
  | .null => true
  | _ => false

/-- The integer that a value is. -/
def asInt? : Value → Option Int64
  | .int n => some n
  | _ => none

/-- The text that a value is. -/
def asString? : Value → Option String
  | .string s => some s
  | _ => none

/-- The integer value of a number in the range of signed 64-bit words. -/
def ofInt? (n : Int) : Option Value :=
  if Int64.minValue.toInt ≤ n ∧ n ≤ Int64.maxValue.toInt then some (.int (Int64.ofInt n)) else none

end Value

end DynamicSql
