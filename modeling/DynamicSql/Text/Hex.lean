/-!
# Hexadecimal digits

Digits of base sixteen, written in lower case and read in either case.
-/

namespace DynamicSql.Text

/-- The lower-case hexadecimal digit of a number below sixteen. -/
def hexDigit (n : Nat) : Char :=
  Nat.digitChar n

/-- The value of a hexadecimal digit. -/
def hexValue? (c : Char) : Option Nat :=
  if '0' ≤ c ∧ c ≤ '9' then some (c.toNat - '0'.toNat)
  else if 'a' ≤ c ∧ c ≤ 'f' then some (c.toNat - 'a'.toNat + 10)
  else if 'A' ≤ c ∧ c ≤ 'F' then some (c.toNat - 'A'.toNat + 10)
  else none

/-- The last `count` hexadecimal digits of a number. -/
def hexDigits : (count : Nat) → Nat → List Char
  | 0, _ => []
  | count + 1, n => hexDigits count (n / 16) ++ [hexDigit (n % 16)]

/-- Read a list of hexadecimal digits, most significant first, after the value `acc`. -/
def readHex? (acc : Nat) : List Char → Option Nat
  | [] => some acc
  | c :: rest => do
    let digit ← hexValue? c
    readHex? (acc * 16 + digit) rest

/-- Bytes as pairs of hexadecimal digits. -/
def hexBytes (bytes : List UInt8) : String :=
  String.ofList (bytes.flatMap fun byte => hexDigits 2 byte.toNat)

/-- Read pairs of hexadecimal digits. -/
def readHexBytes? : List Char → Option (List UInt8)
  | [] => some []
  | [_] => none
  | high :: low :: rest => do
    let h ← hexValue? high
    let l ← hexValue? low
    let bytes ← readHexBytes? rest
    some (UInt8.ofNat (h * 16 + l) :: bytes)

end DynamicSql.Text
