import DynamicSql.Calendar.Clock

/-!
# Texts of dates and times

Years have at least four digits, and a sign outside 0 to 9999. Fractions of a second have three,
six or nine digits, the fewest that are exact, and are left out when zero.
-/

namespace DynamicSql.Calendar

/-- A number with zeros in front up to a width. -/
def padded (width n : Nat) : List Char :=
  let digits := Nat.toDigits 10 n
  List.replicate (width - digits.length) '0' ++ digits

/-- The text of a year. -/
def yearText (year : Int) : List Char :=
  if 0 ≤ year ∧ year ≤ 9999 then padded 4 year.natAbs
  else (if year < 0 then '-' else '+') :: padded 4 year.natAbs

/-- The characters of a date. -/
def Date.chars (d : Date) : List Char :=
  yearText d.year ++ '-' :: padded 2 d.month ++ '-' :: padded 2 d.day

/-- The fraction of a second with its point. -/
def fractionText (nano : Nat) : List Char :=
  if nano = 0 then []
  else if nano % 1000000 = 0 then '.' :: padded 3 (nano / 1000000)
  else if nano % 1000 = 0 then '.' :: padded 6 (nano / 1000)
  else '.' :: padded 9 nano

/-- The characters of a time of day. -/
def Clock.chars (t : Clock) : List Char :=
  padded 2 t.hour ++ ':' :: padded 2 t.minute ++ ':' :: padded 2 t.second ++ fractionText t.nano

/-- The characters of a timestamp, with a separator between day and time. -/
def Timestamp.chars (separator : Char) (t : Timestamp) : List Char :=
  t.date.chars ++ separator :: t.clock.chars

/-- The text of a date. -/
def Date.text (d : Date) : String := String.ofList d.chars

/-- The text of a time of day. -/
def Clock.text (t : Clock) : String := String.ofList t.chars

/-- The text of a timestamp with a `T` between day and time. -/
def Timestamp.text (t : Timestamp) : String := String.ofList (t.chars 'T')

/-- The text of a timestamp of universal time, closed by a `Z`. -/
def Timestamp.zuluText (t : Timestamp) : String := String.ofList (t.chars 'T' ++ ['Z'])

end DynamicSql.Calendar
