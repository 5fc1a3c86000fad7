import DynamicSql.Text.CaseTable
import DynamicSql.Text.Hex
import DynamicSql.Text.Unprintable

/-!
# Inspected text

A text between quotation marks as a diagnostic shows it: the marks, backslashes and the common
controls by short escapes, other characters without a printed form by number.
-/

namespace DynamicSql.Text

/-- The least number of hexadecimal digits of a number, at least one. -/
def hexNumber (n : Nat) : List Char :=
  Nat.toDigits 16 n

/-- One character of an inspected text. -/
def inspectChar (c : Char) : List Char :=
  if c.toNat = 0 then ['\\', '0']
  else if c = '\t' then ['\\', 't']
  else if c = '\r' then ['\\', 'r']
  else if c = '\n' then ['\\', 'n']
  else if c = '"' then ['\\', '"']
  else if c = '\\' then ['\\', '\\']
  else if inRanges unprintableRanges c.toNat then
    ['\\', 'u', '\x7b'] ++ hexNumber c.toNat ++ ['\x7d']
  else [c]

/-- A text between quotation marks, with escapes. -/
def inspect (s : String) : String :=
  String.ofList ('"' :: s.toList.flatMap inspectChar ++ ['"'])

end DynamicSql.Text
