import DynamicSql.Decimal.Reader
import DynamicSql.Json.Basic

/-!
# Reading JSON numbers

A number without a point or an exponent is an integer while it fits a 64-bit word. Any other one
becomes a double in two roundings: its digits are gathered into a 64-bit significand while they
fit, the significand is rounded to a double, and that is multiplied or divided by the double
nearest to the power of ten. The result can therefore differ from the nearest double in its last
place.
-/

namespace DynamicSql.Json

open DynamicSql.Decimal (Binary64 spanDigits digitValue readDigits)

/-- Gather digits into a significand while it fits 64 bits; the digits left over are returned. -/
def gather (significand : Nat) : List Char → Nat × List Char
  | [] => (significand, [])
  | c :: rest =>
    let next := significand * 10 + digitValue c
    if next < UInt64.size then gather next rest else (significand, c :: rest)

/-- The double nearest to a power of ten. -/
def powerOfTen (n : Nat) : Binary64 :=
  .ofDecimal false 1 n

/-- A significand scaled by a power of ten, rounded at every step. Divisions beyond the largest
finite power of ten take two steps, and two such steps leave nothing of any significand. -/
def scale (significand : Nat) (exponent : Int) : Binary64 :=
  let x := Binary64.ofInt significand
  if significand = 0 then x
  else if 308 < exponent then .infinity false
  else if 0 ≤ exponent then x.mulMagnitude (powerOfTen exponent.toNat)
  else if -308 ≤ exponent then x.divMagnitude (powerOfTen (-exponent).toNat)
  else if -616 ≤ exponent then
    (x.divMagnitude (powerOfTen 308)).divMagnitude (powerOfTen (-exponent - 308).toNat)
  else .ofMagnitude false 0

/-- The document of a number without point and exponent. -/
def ofDigits (negative : Bool) (whole : List Char) : Json :=
  let (significand, left) := gather 0 whole
  if left.isEmpty then
    if !negative then .integer significand
    else if significand = 0 ∨ Nat.pow 2 63 < significand then
      .float (Binary64.ofInt significand).neg
    else .integer (-significand)
  else
    let x := scale significand left.length
    .float (if negative then x.neg else x)

/-- The document of a number with fraction digits or an exponent. -/
def ofScientific (negative : Bool) (whole fraction : List Char) (exponent : Int) : Json :=
  let (significand, wholeLeft) := gather 0 whole
  let (significand, fractionLeft) := gather significand fraction
  let shift : Int := wholeLeft.length - (fraction.length - fractionLeft.length : Nat)
  let x := scale significand (shift + exponent)
  .float (if negative then x.neg else x)

/-- An exponent behind its letter, and what follows it. -/
def exponent? (cs : List Char) : Option (Int × List Char) :=
  let (minus, rest) := Decimal.readSign cs
  let (digits, tail) := spanDigits rest
  if digits.isEmpty then none
  else some (if minus then -(readDigits digits : Int) else readDigits digits, tail)

/-- A number behind its sign, and what follows it. The whole part has no superfluous zero, and a
point or an exponent letter is followed by a digit. -/
def unsigned? (negative : Bool) (cs : List Char) : Option (Json × List Char) :=
  let (whole, rest) := spanDigits cs
  if whole.isEmpty || (whole.head? == some '0' && whole.length != 1) then none
  else
    match rest with
    | '.' :: tail =>
      let (fraction, rest) := spanDigits tail
      if fraction.isEmpty then none
      else
        match rest with
        | 'e' :: tail | 'E' :: tail => do
          let (exponent, rest) ← exponent? tail
          some (ofScientific negative whole fraction exponent, rest)
        | _ => some (ofScientific negative whole fraction 0, rest)
    | 'e' :: tail | 'E' :: tail => do
      let (exponent, rest) ← exponent? tail
      some (ofScientific negative whole [] exponent, rest)
    | _ => some (ofDigits negative whole, rest)

/-- A number, and what follows it. -/
def number? : List Char → Option (Json × List Char)
  | '-' :: rest => unsigned? true rest
  | cs => unsigned? false cs

end DynamicSql.Json
