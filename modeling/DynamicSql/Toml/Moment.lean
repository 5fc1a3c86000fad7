import DynamicSql.Calendar.Printer
import DynamicSql.Decimal.Reader

/-!
# Dates and times of TOML

A date, a time of day, or both with an offset from universal time behind them or none. All fields
have fixed widths, days are checked against their month, and a second may be a leap second. The
text of what was read has a `T` between date and time, no zeros at the end of a fraction, and an
offset of zero as it was written, but never as `-00:00`.
-/

namespace DynamicSql.Toml

open Calendar (padded daysInMonth)
open Decimal (isDigit readDigits)

/-- A number of exactly so many digits within bounds, and what follows it. -/
def fixed? (width low high : Nat) (cs : List Char) : Option (Nat × List Char) :=
  let digits := cs.take width
  let n := readDigits digits
  if digits.length = width ∧ digits.all isDigit ∧ low ≤ n ∧ n ≤ high then
    some (n, cs.drop width)
  else none

/-- Step over a given character. -/
def mark? (expected : Char) : List Char → Option (List Char)
  | c :: rest => if c = expected then some rest else none
  | [] => none

/-- The text of a date, and what follows it. -/
def date? (cs : List Char) : Option (List Char × List Char) := do
  let (year, cs) ← fixed? 4 0 9999 cs
  let cs ← mark? '-' cs
  let (month, cs) ← fixed? 2 1 12 cs
  let cs ← mark? '-' cs
  let (day, cs) ← fixed? 2 1 (daysInMonth year month) cs
  some (padded 4 year ++ '-' :: padded 2 month ++ '-' :: padded 2 day, cs)

/-- The text of a fraction of a second, cut off at nine digits, and what follows it. -/
def secondFraction? : List Char → List Char × List Char
  | '.' :: rest =>
    let digits := rest.takeWhile isDigit
    let kept := ((digits.take 9).reverse.dropWhile (· == '0')).reverse
    if digits.isEmpty then ([], '.' :: rest)
    else (if kept.isEmpty then [] else '.' :: kept, rest.dropWhile isDigit)
  | cs => ([], cs)

/-- The text of a time of day, and what follows it. -/
def time? (cs : List Char) : Option (List Char × List Char) := do
  let (hour, cs) ← fixed? 2 0 23 cs
  let cs ← mark? ':' cs
  let (minute, cs) ← fixed? 2 0 59 cs
  let cs ← mark? ':' cs
  let (second, cs) ← fixed? 2 0 60 cs
  let (fraction, cs) := secondFraction? cs
  some (padded 2 hour ++ ':' :: padded 2 minute ++ ':' :: padded 2 second ++ fraction, cs)

/-- The text of an offset, and what follows it; nothing where there is none. -/
def offset? : List Char → List Char × List Char
  | 'Z' :: rest | 'z' :: rest => (['Z'], rest)
  | cs =>
    let (negative, rest) := Decimal.readSign cs
    let read : Option (List Char × List Char) := do
      let (hours, rest) ← fixed? 2 0 23 rest
      let rest ← mark? ':' rest
      let (minutes, rest) ← fixed? 2 0 59 rest
      let sign := if negative ∧ 0 < hours + minutes then '-' else '+'
      some (sign :: padded 2 hours ++ ':' :: padded 2 minutes, rest)
    match cs with
    | '-' :: _ | '+' :: _ => read.getD ([], cs)
    | _ => ([], cs)

/-- The text of a date or a time or both, and what follows it. -/
def moment? (cs : List Char) : Option (List Char × List Char) :=
  match date? cs with
  | some (date, c :: rest) =>
    if c = 'T' ∨ c = 't' ∨ c = ' ' then
      match time? rest with
      | some (time, rest) =>
        let (offset, rest) := offset? rest
        some (date ++ 'T' :: time ++ offset, rest)
      | none => some (date, c :: rest)
    else some (date, c :: rest)
  | some (date, []) => some (date, [])
  | none => time? cs

end DynamicSql.Toml
