/-!
# Double-precision numbers

A double is its sixty-four bits: a sign, an eleven-bit exponent field and a fifty-two-bit
fraction. A finite one is `mantissa * 2 ^ exponent` with its sign, and every operation here works
on these natural numbers, so nothing rests on the machine's arithmetic. Rounding goes to the
nearest double, a half to the even mantissa, and past the largest double to infinity.
-/

namespace DynamicSql.Decimal

/-- A double-precision number, given by its bits. -/
structure Binary64 where
  bits : UInt64
deriving DecidableEq

namespace Binary64

/-- Whether the sign bit is set. -/
def negative (x : Binary64) : Bool :=
  Nat.pow 2 63 ≤ x.bits.toNat

/-- The biased exponent. -/
def exponentField (x : Binary64) : Nat :=
  x.bits.toNat / Nat.pow 2 52 % Nat.pow 2 11

/-- The stored part of the mantissa. -/
def fraction (x : Binary64) : Nat :=
  x.bits.toNat % Nat.pow 2 52

/-- Whether the bits stand for no number. -/
def isNaN (x : Binary64) : Bool :=
  x.exponentField == 2047 && x.fraction != 0

/-- Whether the bits stand for a number other than the infinities. -/
def isFinite (x : Binary64) : Bool :=
  x.exponentField < 2047

/-- The mantissa of a finite double, with its leading one where there is one. -/
def mantissa (x : Binary64) : Nat :=
  if x.exponentField = 0 then x.fraction else Nat.pow 2 52 + x.fraction

/-- The power of two that scales the mantissa. -/
def exponent (x : Binary64) : Int :=
  (max x.exponentField 1 : Nat) - 1075

/-- Whether the double is one of the two zeros. -/
def isZero (x : Binary64) : Bool :=
  x.bits.toNat % Nat.pow 2 63 == 0

/-- The double with a sign and the lower sixty-three bits. -/
def ofMagnitude (negative : Bool) (magnitude : Nat) : Binary64 :=
  ⟨UInt64.ofNat ((if negative then Nat.pow 2 63 else 0) + magnitude)⟩

/-- Infinity with a sign. -/
def infinity (negative : Bool) : Binary64 :=
  ofMagnitude negative (2047 * Nat.pow 2 52)

/-- The quiet not-a-number. -/
def notANumber : Binary64 :=
  ofMagnitude false (2047 * Nat.pow 2 52 + Nat.pow 2 51)

/-- Change the sign. -/
def neg (x : Binary64) : Binary64 :=
  ofMagnitude (!x.negative) (x.bits.toNat % Nat.pow 2 63)

/-- The integer nearest to `num / den`, a half going to the even one. -/
def divRound (num den : Nat) : Nat :=
  let quotient := num / den
  let twice := 2 * (num % den)
  if twice < den then quotient
  else if den < twice then quotient + 1
  else quotient + quotient % 2

/-- The integer nearest to `num / den * 2 ^ -e`, a half going to the even one. -/
def divRoundScaled (num den : Nat) (e : Int) : Nat :=
  divRound (num * Nat.pow 2 (-e).toNat) (den * Nat.pow 2 e.toNat)

/-- The greatest `k` with `2 ^ k ≤ num / den`, for positive numbers. -/
def floorLog2 (num den : Nat) : Int :=
  let k : Int := (num.log2 : Int) - den.log2
  if den * Nat.pow 2 k.toNat ≤ num * Nat.pow 2 (-k).toNat then k else k - 1

/-- The double nearest to `num / den` with a sign. -/
def ofRatio (negative : Bool) (num den : Nat) : Binary64 :=
  if num = 0 then ofMagnitude negative 0
  else
    let e := max (-1074) (floorLog2 num den - 52)
    let magnitude := (e + 1074).toNat * Nat.pow 2 52 + divRoundScaled num den e
    if 2047 * Nat.pow 2 52 ≤ magnitude then infinity negative else ofMagnitude negative magnitude

/-- The double nearest to an integer. -/
def ofInt (n : Int) : Binary64 :=
  ofRatio (n < 0) n.natAbs 1

/-- The double nearest to `digits * 10 ^ exponent` with a sign. Exponents beyond the range of
doubles are not multiplied out. -/
def ofDecimal (negative : Bool) (digits : Nat) (exponent : Int) : Binary64 :=
  let size : Int := (Nat.toDigits 10 digits).length
  if digits = 0 ∨ exponent + size < -400 then ofMagnitude negative 0
  else if 400 < exponent + size then infinity negative
  else ofRatio negative (digits * Nat.pow 10 exponent.toNat) (Nat.pow 10 (-exponent).toNat)

/-- The rounded product of two finite doubles, without regard to sign. -/
def mulMagnitude (x y : Binary64) : Binary64 :=
  let e := x.exponent + y.exponent
  ofRatio false (x.mantissa * y.mantissa * Nat.pow 2 e.toNat) (Nat.pow 2 (-e).toNat)

/-- The rounded quotient of a finite double and a positive finite one, without regard to sign. -/
def divMagnitude (x y : Binary64) : Binary64 :=
  let e := x.exponent - y.exponent
  ofRatio false (x.mantissa * Nat.pow 2 e.toNat) (y.mantissa * Nat.pow 2 (-e).toNat)

end Binary64

end DynamicSql.Decimal
