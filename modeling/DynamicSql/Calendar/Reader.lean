import DynamicSql.Calendar.Clock
import DynamicSql.Decimal.Reader
import DynamicSql.Text.Blank

/-!
# Reading dates and times

White space may stand in front of every number. A year has one to four digits, or a sign and any
number of digits; the other fields have one or two digits. Between the fields the strict form
admits nothing, while the loose form admits white space there and at the end. A fraction of a
second keeps nine digits and skips the rest.
-/

namespace DynamicSql.Calendar

open DynamicSql.Text (skipBlanks)
open DynamicSql.Decimal (isDigit readDigits)

/-- A number of one up to `width` digits behind white space, and what follows it. -/
def number? (width : Nat) (cs : List Char) : Option (Nat × List Char) :=
  let cs := skipBlanks cs
  let digits := (cs.take width).takeWhile isDigit
  if digits.isEmpty then none else some (readDigits digits, cs.drop digits.length)

/-- A year behind white space, and what follows it. -/
def year? (cs : List Char) : Option (Int × List Char) :=
  match skipBlanks cs with
  | '-' :: rest => signed (fun n => -(n : Int)) rest
  | '+' :: rest => signed (fun n => (n : Int)) rest
  | rest => (number? 4 rest).map fun (n, tail) => ((n : Int), tail)
where
  /-- Any number of digits right behind a sign. -/
  signed (value : Nat → Int) (rest : List Char) : Option (Int × List Char) :=
    let digits := rest.takeWhile isDigit
    if digits.isEmpty then none else some (value (readDigits digits), rest.drop digits.length)

/-- Step over one given character. -/
def literal? (expected : Char) : List Char → Option (List Char)
  | c :: rest => if c = expected then some rest else none
  | [] => none

/-- A date, and what follows it; `gap` says what is skipped in front of a hyphen. -/
def date? (gap : List Char → List Char) (cs : List Char) : Option (Date × List Char) := do
  let (year, cs) ← year? cs
  let cs ← literal? '-' (gap cs)
  let (month, cs) ← number? 2 cs
  let cs ← literal? '-' (gap cs)
  let (day, cs) ← number? 2 cs
  let date ← Date.of? year month day
  some (date, cs)

/-- The fraction of a second in nanoseconds, zero where there is no point. -/
def fraction? : List Char → Option (Nat × List Char)
  | '.' :: rest =>
    let digits := rest.takeWhile isDigit
    if digits.isEmpty then none
    else
      let kept := digits.take 9
      some (readDigits kept * Nat.pow 10 (9 - kept.length), rest.drop digits.length)
  | cs => some (0, cs)

/-- Seconds with their fraction behind a colon. -/
def seconds? (cs : List Char) : Option (Nat × Nat × List Char) := do
  let cs ← literal? ':' (skipBlanks cs)
  let (second, cs) ← number? 2 cs
  let (nano, cs) ← fraction? cs
  some (second, nano, cs)

/-- Hours and minutes with a colon between them. -/
def hourMinute? (cs : List Char) : Option (Nat × Nat × List Char) := do
  let (hour, cs) ← number? 2 cs
  let cs ← literal? ':' (skipBlanks cs)
  let (minute, cs) ← number? 2 cs
  some (hour, minute, cs)

/-- A time of day with seconds, and what follows it. -/
def clock? (cs : List Char) : Option (Clock × List Char) := do
  let (hour, minute, cs) ← hourMinute? cs
  let (second, nano, cs) ← seconds? cs
  let clock ← Clock.of? hour minute second nano
  some (clock, cs)

/-- The value, if nothing follows it. -/
def complete {α : Type} : α × List Char → Option α
  | (value, []) => some value
  | _ => none

/-- Read a date in the strict form `year-month-day`. -/
def Date.readStrict? (s : String) : Option Date := do
  complete (← date? id s.toList)

/-- Read a date in the loose form. -/
def Date.read? (s : String) : Option Date := do
  let (date, rest) ← date? skipBlanks s.toList
  complete (date, skipBlanks rest)

/-- Read a timestamp in the loose form, with a `T` between day and time. -/
def Timestamp.read? (s : String) : Option Timestamp := do
  let (date, rest) ← date? skipBlanks s.toList
  let rest ← literal? 'T' (skipBlanks rest)
  let (clock, rest) ← clock? rest
  complete (⟨date, clock⟩, skipBlanks rest)

/-- Read a time of day in the loose form; seconds may be left out. -/
def Clock.read? (s : String) : Option Clock := do
  let (hour, minute, rest) ← hourMinute? s.toList
  match seconds? rest with
  | some (second, nano, tail) => complete (← Clock.of? hour minute second nano, skipBlanks tail)
  | none => complete (← Clock.of? hour minute 0 0, skipBlanks rest)

/-- Two ASCII digits right here, and what follows them. -/
def twoDigits? : List Char → Option (Nat × List Char)
  | a :: b :: rest => if isDigit a && isDigit b then some (readDigits [a, b], rest) else none
  | _ => none

/-- An offset from universal time in minutes: a sign, hours and minutes. Colons and white space
may stand between hours and minutes, and the sign may be the typographic minus. -/
def offset? : List Char → Option (Int × List Char)
  | [] => none
  | sign :: cs => do
    let negative ←
      if sign = '+' then some false
      else if sign = '-' ∨ sign.toNat = 0x2212 then some true
      else none
    let (hours, cs) ← twoDigits? cs
    let (minutes, cs) ← twoDigits? (cs.dropWhile fun c => c == ':' || Text.isBlank c)
    let total := hours * 60 + minutes
    if minutes < 60 ∧ total < 1440 then some (if negative then -(total : Int) else total, cs)
    else none

/-- A zone: `Z` or the name of universal time in either case, or an offset. -/
def zone? (cs : List Char) : Option (Int × List Char) :=
  if (String.ofList (cs.take 3)).toLower = "utc" then some (0, cs.drop 3)
  else
    match cs with
    | 'Z' :: rest | 'z' :: rest => some (0, rest)
    | _ => offset? cs

/-- Read a timestamp with a zone and carry it over to universal time. Day and time are separated
by one `T` or space. -/
def Timestamp.readZoned? (s : String) : Option Timestamp := do
  let (date, rest) ← date? skipBlanks s.toList
  let rest ← match rest with
    | 'T' :: tail | 't' :: tail | ' ' :: tail => some tail
    | _ => none
  let (clock, rest) ← clock? rest
  let (minutes, rest) ← zone? (skipBlanks rest)
  let moment ← complete (⟨date, clock⟩, skipBlanks rest)
  Timestamp.addMinutes? moment (-minutes)

end DynamicSql.Calendar
