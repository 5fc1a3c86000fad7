import DynamicSql.Calendar.Date

/-!
# Times of day and points in time

A time of day counts hours, minutes, seconds and nanoseconds; second sixty stands for a leap
second. A timestamp is a day and a time of day, and is moved by whole minutes when an offset from
universal time is taken off.
-/

namespace DynamicSql.Calendar

/-- Whether four numbers name a time of day. -/
def isClock (hour minute second nano : Nat) : Bool :=
  hour < 24 && minute < 60 && second ≤ 60 && nano < 1000000000

/-- A time of day. -/
structure Clock where
  hour : Nat
  minute : Nat
  second : Nat
  nano : Nat
  valid : isClock hour minute second nano = true
deriving DecidableEq

/-- The time of day with four numbers, if there is one. -/
def Clock.of? (hour minute second nano : Nat) : Option Clock :=
  if h : isClock hour minute second nano = true then some ⟨hour, minute, second, nano, h⟩
  else none

/-- The first moment of a day. -/
def Clock.midnight : Clock := ⟨0, 0, 0, 0, rfl⟩

/-- The last whole second of a day. -/
def Clock.lastSecond : Clock := ⟨23, 59, 59, 0, rfl⟩

/-- A day and a time of day. -/
structure Timestamp where
  date : Date
  clock : Clock
deriving DecidableEq

/-- Move a timestamp by less than a day's worth of minutes. -/
def Timestamp.addMinutes? (t : Timestamp) (minutes : Int) : Option Timestamp := do
  let total := (t.clock.hour * 60 + t.clock.minute : Nat) + minutes
  let date ←
    if total < 0 then t.date.previous?
    else if 1440 ≤ total then t.date.next?
    else some t.date
  let ofDay := (total % 1440).toNat
  let clock ← Clock.of? (ofDay / 60) (ofDay % 60) t.clock.second t.clock.nano
  some ⟨date, clock⟩

end DynamicSql.Calendar
