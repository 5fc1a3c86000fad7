import DynamicSql.Decimal.Layout
import DynamicSql.Json.Basic
import DynamicSql.Text.Hex
import DynamicSql.Text.Inspect

/-!
# Texts of JSON documents

The compact text has no white space and escapes only quotation marks, backslashes and control
characters; numbers that are not finite become `null`. The inspected text spells the kind of
every node.
-/

namespace DynamicSql.Json

/-- One character of a string. -/
def escapeChar (c : Char) : List Char :=
  if c = '"' then ['\\', '"']
  else if c = '\\' then ['\\', '\\']
  else if c = '\n' then ['\\', 'n']
  else if c = '\r' then ['\\', 'r']
  else if c = '\t' then ['\\', 't']
  else if c.toNat = 8 then ['\\', 'b']
  else if c.toNat = 12 then ['\\', 'f']
  else if c.toNat < 0x20 then '\\' :: 'u' :: Text.hexDigits 4 c.toNat
  else [c]

/-- A string between quotation marks. -/
def quote (s : String) : List Char :=
  '"' :: s.toList.flatMap escapeChar ++ ['"']

/-- A number that is a double. -/
def floatChars (x : Decimal.Binary64) : List Char :=
  if x.isFinite then (Decimal.Layout.json.render x).toList else "null".toList

mutual

/-- The characters of the compact text. -/
def chars : Json → List Char
  | .null => "null".toList
  | .bool b => (if b then "true" else "false").toList
  | .integer n => (toString n).toList
  | .float x => floatChars x
  | .string s => quote s
  | .array items => '[' :: itemChars items ++ [']']
  | .object members => '\x7b' :: memberChars members ++ ['\x7d']

/-- Items with commas between them. -/
def itemChars : List Json → List Char
  | [] => []
  | [j] => chars j
  | j :: rest => chars j ++ ',' :: itemChars rest

/-- Members with commas between them. -/
def memberChars : List (String × Json) → List Char
  | [] => []
  | [(key, j)] => quote key ++ ':' :: chars j
  | (key, j) :: rest => quote key ++ ':' :: chars j ++ ',' :: memberChars rest

end

/-- The compact text of a document. -/
def render (j : Json) : String := String.ofList j.chars

mutual

/-- The inspected text of a document. -/
def inspect : Json → String
  | .null => "Null"
  | .bool b => "Bool(" ++ (if b then "true" else "false") ++ ")"
  | .integer n => "Number(" ++ toString n ++ ")"
  | .float x => "Number(" ++ Decimal.Layout.json.render x ++ ")"
  | .string s => "String(" ++ Text.inspect s ++ ")"
  | .array items => "Array [" ++ inspectItems items ++ "]"
  | .object members => "Object \x7b" ++ inspectMembers members ++ "\x7d"

/-- Inspected items with commas between them. -/
def inspectItems : List Json → String
  | [] => ""
  | [j] => inspect j
  | j :: rest => inspect j ++ ", " ++ inspectItems rest

/-- Inspected members with commas between them. -/
def inspectMembers : List (String × Json) → String
  | [] => ""
  | [(key, j)] => Text.inspect key ++ ": " ++ inspect j
  | (key, j) :: rest => Text.inspect key ++ ": " ++ inspect j ++ ", " ++ inspectMembers rest

end

end DynamicSql.Json
