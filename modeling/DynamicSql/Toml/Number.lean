import DynamicSql.Decimal.Reader
import DynamicSql.Text.Hex
import DynamicSql.Toml.Basic

/-!
# Numbers of TOML

Underscores may stand between digits. Decimal integers have no superfluous zeros; hexadecimal,
octal and binary ones have no sign. A number with a fraction or an exponent is a double, and may
overflow only to negative infinity.
-/

namespace DynamicSql.Toml

open Decimal (Binary64 isDigit readDigits)

/-- Digits and underscores, each underscore with a digit behind it, and what follows them. -/
def moreDigits? (ok : Char → Bool) : List Char → Option (List Char × List Char)
  | [] => some ([], [])
  | '_' :: c :: rest =>
    if ok c then (moreDigits? ok rest).map fun (digits, after) => (c :: digits, after) else none
  | c :: rest =>
    if ok c then (moreDigits? ok rest).map fun (digits, after) => (c :: digits, after)
    else if c = '_' then none
    else some ([], c :: rest)

/-- A digit with further digits, and what follows them. -/
def digits? (ok : Char → Bool) : List Char → Option (List Char × List Char)
  | c :: rest =>
    if ok c then (moreDigits? ok rest).map fun (digits, after) => (c :: digits, after) else none
  | [] => none

/-- The digits of a decimal integer, and what follows them. Nothing is read behind a zero. -/
def wholeDigits? : List Char → Option (List Char × List Char)
  | '0' :: rest => some (['0'], rest)
  | cs => digits? isDigit cs

/-- An exponent behind its letter, and what follows it. -/
def exponent? (cs : List Char) : Option (Int × List Char) := do
  let (negative, rest) := Decimal.readSign cs
  let (digits, after) ← digits? isDigit rest
  let n := readDigits digits
  some (if negative then -(n : Int) else n, after)

/-- A fraction, and what follows it; no digits where there is no point. -/
def fraction? : List Char → Option (List Char × List Char)
  | '.' :: rest => digits? isDigit rest
  | cs => some ([], cs)

/-- A double, if it is not positive infinity. -/
def notInfinite? (x : Binary64) : Option Toml :=
  if x = .infinity false then none else some (.float x)

/-- A double with a fraction or an exponent, and what follows it. -/
def decimalFloat? (negative : Bool) (cs : List Char) : Option (Toml × List Char) := do
  let (whole, rest) ← wholeDigits? cs
  let (fraction, rest) ← fraction? rest
  let value (exponent : Int) : Option Toml :=
    notInfinite? (.ofDecimal negative (readDigits (whole ++ fraction)) (exponent - fraction.length))
  match rest with
  | 'e' :: tail | 'E' :: tail => do
    let (exponent, after) ← exponent? tail
    some (← value exponent, after)
  | after => if fraction.isEmpty then none else some (← value 0, after)

/-- A double, and what follows it. -/
def float? (cs : List Char) : Option (Toml × List Char) :=
  let (negative, rest) := Decimal.readSign cs
  match rest with
  | 'i' :: 'n' :: 'f' :: after => some (.float (.infinity negative), after)
  | 'n' :: 'a' :: 'n' :: after => some (.float .notANumber, after)
  | _ => decimalFloat? negative rest

/-- An integer in the range of signed 64-bit words. -/
def inRange? (n : Int) : Option Toml :=
  if Int64.minValue.toInt ≤ n ∧ n ≤ Int64.maxValue.toInt then some (.integer n) else none

/-- An integer of a base up to sixteen behind its mark, and what follows it. -/
def based? (base : Nat) (cs : List Char) : Option (Toml × List Char) := do
  let (digits, after) ← digits? (fun c => (Text.hexValue? c).any (· < base)) cs
  let n := digits.foldl (fun n c => n * base + (Text.hexValue? c).getD 0) 0
  some (← inRange? n, after)

/-- An integer, and what follows it. -/
def integer? : List Char → Option (Toml × List Char)
  | '0' :: 'x' :: rest => based? 16 rest
  | '0' :: 'o' :: rest => based? 8 rest
  | '0' :: 'b' :: rest => based? 2 rest
  | cs => do
    let (negative, rest) := Decimal.readSign cs
    let (digits, after) ← wholeDigits? rest
    let n := readDigits digits
    some (← inRange? (if negative then -(n : Int) else n), after)

end DynamicSql.Toml
