import DynamicSql.Text.Hex

/-!
# Universally unique identifiers

A hundred and twenty-eight bits, written as five groups of lower-case hexadecimal digits. Reading
also takes the digits without hyphens, the grouped form in braces, and the grouped form behind
`urn:uuid:`.
-/

namespace DynamicSql

/-- A universally unique identifier. -/
structure Uuid where
  bits : BitVec 128
deriving DecidableEq

namespace Uuid

/-- Put hyphens behind the eighth, twelfth, sixteenth and twentieth digit. -/
def group (digits : List Char) : List Char :=
  digits.take 8 ++ '-' :: (digits.drop 8).take 4 ++ '-' :: (digits.drop 12).take 4 ++
    '-' :: (digits.drop 16).take 4 ++ '-' :: digits.drop 20

/-- The text of an identifier. -/
def text (u : Uuid) : String :=
  String.ofList (group (Text.hexDigits 32 u.bits.toNat))

/-- Take the hyphens out of the grouped form. -/
def ungroup? (cs : List Char) : Option (List Char) :=
  let digits := cs.take 8 ++ (cs.drop 9).take 4 ++ (cs.drop 14).take 4 ++
    (cs.drop 19).take 4 ++ cs.drop 24
  if digits.length = 32 ∧ group digits = cs then some digits else none

/-- The identifier with thirty-two digits. -/
def ofDigits? (digits : List Char) : Option Uuid :=
  if digits.length = 32 then
    (Text.readHex? 0 digits).map fun n => ⟨BitVec.ofNat 128 n⟩
  else none

/-- Read an identifier in one of its four forms. -/
def read? (s : String) : Option Uuid :=
  let cs := s.toList
  if cs.length = 32 then ofDigits? cs
  else
    match cs with
    | 'u' :: 'r' :: 'n' :: ':' :: 'u' :: 'u' :: 'i' :: 'd' :: ':' :: grouped =>
      (ungroup? grouped).bind ofDigits?
    | '\x7b' :: rest =>
      if rest.getLast? = some '\x7d' then (ungroup? rest.dropLast).bind ofDigits? else none
    | grouped => (ungroup? grouped).bind ofDigits?

end Uuid

end DynamicSql
