import DynamicSql.Calendar.Reader
import DynamicSql.Value.Basic

/-!
# Days as ends of a range

A day that bounds a range of timestamps stands for its first second or its last one. A text that
spells a day, with white space around it, counts as that day; all other values are left alone.
-/

namespace DynamicSql

/-- The end of a day that a date stands for. -/
inductive DateBound where
  | dayStart
  | dayEnd
deriving DecidableEq

namespace DateBound

/-- The time of day at a bound. -/
def clock : DateBound → Calendar.Clock
  | .dayStart => Calendar.Clock.midnight
  | .dayEnd => Calendar.Clock.lastSecond

/-- The day that a value names. -/
def day? : Value → Option Calendar.Date
  | .date d => some d
  | .string s => Calendar.Date.readStrict? (Text.trim s)
  | _ => none

/-- Widen a value that names a day to the timestamp at a bound. -/
def apply (bound : DateBound) (v : Value) : Value :=
  match day? v with
  | some d => .dateTime ⟨d, bound.clock⟩
  | none => v

end DateBound

end DynamicSql
