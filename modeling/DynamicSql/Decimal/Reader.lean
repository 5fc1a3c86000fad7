import DynamicSql.Decimal.Binary64

/-!
# Reading decimals

Digit runs, and the free form of a double: a sign, digits around an optional point, an exponent,
or one of the names of infinity and not-a-number in any ASCII case.
-/

namespace DynamicSql.Decimal

/-- Whether a character is an ASCII digit. -/
def isDigit (c : Char) : Bool :=
  '0' ≤ c && c ≤ '9'

/-- The value of a digit. -/
def digitValue (c : Char) : Nat :=
  c.toNat - '0'.toNat

/-- The number that a list of digits spells. -/
def readDigits (cs : List Char) : Nat :=
  cs.foldl (fun n c => n * 10 + digitValue c) 0

/-- Split the leading digits off. -/
def spanDigits (cs : List Char) : List Char × List Char :=
  (cs.takeWhile isDigit, cs.dropWhile isDigit)

/-- A leading sign, if any, and whether it is a minus. -/
def readSign : List Char → Bool × List Char
  | '-' :: rest => (true, rest)
  | '+' :: rest => (false, rest)
  | cs => (false, cs)

/-- An exponent up to the end of the text; nothing at all stands for zero. -/
def readExponent? : List Char → Option Int
  | [] => some 0
  | c :: rest =>
    if c = 'e' ∨ c = 'E' then
      let (minus, digits) := readSign rest
      if digits.isEmpty || !digits.all isDigit then none
      else some (if minus then -(readDigits digits : Int) else readDigits digits)
    else none

/-- Digits with an optional point and exponent; at least one digit stands before the exponent. -/
def readMagnitude? (negative : Bool) (cs : List Char) : Option Binary64 :=
  let (whole, afterWhole) := spanDigits cs
  let (fraction, rest) :=
    match afterWhole with
    | '.' :: tail => spanDigits tail
    | tail => ([], tail)
  if whole.isEmpty && fraction.isEmpty then none
  else do
    let exponent ← readExponent? rest
    some (Binary64.ofDecimal negative (readDigits (whole ++ fraction))
      (exponent - fraction.length))

/-- Read the free form of a double. -/
def Binary64.read? (s : String) : Option Binary64 :=
  let (negative, body) := readSign s.toList
  let name := String.ofList (body.map Char.toLower)
  if name = "inf" ∨ name = "infinity" then some (.infinity negative)
  else if name = "nan" then some .notANumber
  else readMagnitude? negative body

end DynamicSql.Decimal
