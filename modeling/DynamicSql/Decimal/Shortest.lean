import DynamicSql.Decimal.Binary64

/-!
# Shortest decimals

The decimal with the fewest digits that reads back as a given double. The reals that round to a
double form an interval around it, closed exactly when its mantissa is even. Grids of powers of
ten are tried from coarse to fine; the first one with a point in the interval next to the double
gives the digits. Of two such points the nearer is taken, and what happens at an exact half is
left to the caller, since printed forms differ on it.
-/

namespace DynamicSql.Decimal

/-- Which of two equally near decimals is taken. -/
inductive HalfWay where
  | up
  | even
deriving DecidableEq

/-- A decimal `digits * 10 ^ exponent`. -/
structure Scaled where
  digits : Nat
  exponent : Int
deriving DecidableEq

/-- Move the zeros at the end of the digits into the exponent. -/
def Scaled.normalize : (fuel : Nat) → Scaled → Scaled
  | 0, d => d
  | fuel + 1, d =>
    if d.digits ≠ 0 ∧ d.digits % 10 = 0 then
      Scaled.normalize fuel ⟨d.digits / 10, d.exponent + 1⟩
    else d

/-- The reals that round to a double, in quarters of its unit in the last place. -/
structure Neighbourhood where
  low : Nat
  centre : Nat
  high : Nat
  closed : Bool
  /-- The exponent of two that a quarter unit stands for. -/
  scale : Int

/-- The neighbourhood of a finite nonzero double. The gap below a power of two is half as wide. -/
def Binary64.neighbourhood (x : Binary64) : Neighbourhood where
  low := 4 * x.mantissa - (if x.fraction = 0 ∧ 1 < x.exponentField then 1 else 2)
  centre := 4 * x.mantissa
  high := 4 * x.mantissa + 2
  closed := x.mantissa % 2 == 0
  scale := x.exponent - 2

/-- The multiple of `10 ^ k` that a neighbourhood contains next to its centre. -/
def Neighbourhood.point? (area : Neighbourhood) (half : HalfWay) (k : Int) : Option Nat :=
  let place (quarters : Nat) : Nat := quarters * Nat.pow 2 area.scale.toNat * Nat.pow 10 (-k).toNat
  let unit : Nat := Nat.pow 10 k.toNat * Nat.pow 2 (-area.scale).toNat
  let inside (n : Nat) : Bool :=
    if area.closed then place area.low ≤ n * unit && n * unit ≤ place area.high
    else place area.low < n * unit && n * unit < place area.high
  let below := place area.centre / unit
  let twice := 2 * (place area.centre % unit)
  let upperFirst := unit < twice ||
    (unit == twice && (match half with | .up => true | .even => below % 2 == 1))
  let first := if upperFirst then below + 1 else below
  let second := if upperFirst then below else below + 1
  if inside first then some first else if inside second then some second else none

/-- Try the grids `10 ^ k`, `10 ^ (k - 1)`, ... in turn. -/
def Neighbourhood.search (area : Neighbourhood) (half : HalfWay) : (fuel : Nat) → Int → Scaled
  | 0, k => ⟨0, k⟩
  | fuel + 1, k =>
    match area.point? half k with
    | some digits => ⟨digits, k⟩
    | none => area.search half fuel (k - 1)

/-- The decimal with the fewest digits that reads back as a finite double, without its sign. The
search starts above the double's own magnitude, and seventeen digits always suffice. -/
def Binary64.shortest (half : HalfWay) (x : Binary64) : Scaled :=
  if x.isZero then ⟨0, 0⟩
  else
    let top : Int := ((x.mantissa.log2 : Int) + x.exponent + 1) * 30103 / 100000 + 2
    Scaled.normalize 20 (x.neighbourhood.search half 24 top)

end DynamicSql.Decimal
