import DynamicSql.Decimal.Shortest

/-!
# Printed forms of doubles

How the digits of a shortest decimal are laid out: positionally, or with an exponent. A `Layout`
record holds the choices; three of them are in use, for the plain text of a value, for its
inspected form and for JSON.
-/

namespace DynamicSql.Decimal

/-- The choices of a printed form. -/
structure Layout where
  /-- Whether a number whose leading digit stands at a power of ten is written positionally. -/
  positional : Int → Bool
  /-- Whether a whole number keeps a point and a zero when written positionally. -/
  wholePoint : Bool
  /-- Whether a positive exponent is written with a plus sign. -/
  plusSign : Bool
  /-- Which of two equally near decimals is taken. -/
  half : HalfWay

namespace Layout

/-- Plain text is positional throughout, and a whole number has no point. -/
def plain : Layout := ⟨fun _ => true, false, false, .up⟩

/-- The inspected form is positional from `1e-4` up to below `1e16`. -/
def inspected : Layout := ⟨fun power => -4 ≤ power && power < 16, true, false, .up⟩

/-- JSON is positional from `1e-5` up to below `1e16`, and signs every exponent. -/
def json : Layout := ⟨fun power => -5 ≤ power && power < 16, true, true, .even⟩

/-- Digits without an exponent; `power` is the power of ten of the leading digit. -/
def positionalText (wholePoint : Bool) (digits : List Char) (power : Int) : List Char :=
  if power < 0 then
    '0' :: '.' :: List.replicate (-power - 1).toNat '0' ++ digits
  else
    let whole := power.toNat + 1
    let fraction := digits.drop whole
    digits.take whole ++ List.replicate (whole - digits.length) '0' ++
      (if fraction.isEmpty then (if wholePoint then ['.', '0'] else []) else '.' :: fraction)

/-- Digits with an exponent, one digit before the point. -/
def exponentText (plusSign : Bool) (digits : List Char) (power : Int) : List Char :=
  let mantissa :=
    match digits with
    | [] => []
    | [d] => [d]
    | d :: rest => d :: '.' :: rest
  let sign := if power < 0 then ['-'] else if plusSign then ['+'] else []
  mantissa ++ 'e' :: sign ++ Nat.toDigits 10 power.natAbs

/-- The text of a double. -/
def render (layout : Layout) (x : Binary64) : String :=
  if x.isNaN then "NaN"
  else
    let sign := if x.negative then ['-'] else []
    if !x.isFinite then String.ofList (sign ++ ['i', 'n', 'f'])
    else
      let decimal := x.shortest layout.half
      let digits := Nat.toDigits 10 decimal.digits
      let power := decimal.exponent + digits.length - 1
      let body :=
        if x.isZero || layout.positional power then
          positionalText layout.wholePoint digits power
        else exponentText layout.plusSign digits power
      String.ofList (sign ++ body)

end Layout

end DynamicSql.Decimal
