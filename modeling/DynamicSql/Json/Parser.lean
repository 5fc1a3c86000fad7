import DynamicSql.Json.Number
import DynamicSql.Text.Hex

/-!
# Reading JSON documents

The grammar of JSON over the characters of a text. The fuel of the reader is taken from the length
of the text, of which every step uses up a part, so it bounds no nesting. Limits are left out: that
documents nested 128 levels deep are refused elsewhere is not modelled here. The escape of a lone
surrogate is refused in every string, also in one that stands in a value nobody asks for.
-/

namespace DynamicSql.Json

/-- Whether a character may stand between the tokens of a document. -/
def isSpace (c : Char) : Bool :=
  c == ' ' || c == '\n' || c == '\t' || c == '\r'

/-- Step over white space. -/
def skipSpace (cs : List Char) : List Char :=
  cs.dropWhile isSpace

/-- The character of a one-letter escape. -/
def escape? (c : Char) : Option Char :=
  if c = '"' then some '"'
  else if c = '\\' then some '\\'
  else if c = '/' then some '/'
  else if c = 'b' then some '\x08'
  else if c = 'f' then some '\x0c'
  else if c = 'n' then some '\n'
  else if c = 'r' then some '\r'
  else if c = 't' then some '\t'
  else none

/-- Whether a code unit opens a surrogate pair. -/
def isLeadUnit (unit : Nat) : Bool := 0xD800 ≤ unit && unit < 0xDC00

/-- Whether a code unit closes a surrogate pair. -/
def isTrailUnit (unit : Nat) : Bool := 0xDC00 ≤ unit && unit < 0xE000

/-- The inside of a string up to its closing mark, and what follows it. -/
def stringBody? : List Char → Option (List Char × List Char)
  | [] => none
  | '"' :: rest => some ([], rest)
  | '\\' :: 'u' :: a :: b :: c :: d :: rest => do
    let unit ← Text.readHex? 0 [a, b, c, d]
    if isLeadUnit unit then
      match rest with
      | '\\' :: 'u' :: e :: f :: g :: h :: tail => do
        let trail ← Text.readHex? 0 [e, f, g, h]
        if isTrailUnit trail then
          let (body, after) ← stringBody? tail
          some (Char.ofNat (0x10000 + (unit - 0xD800) * 0x400 + (trail - 0xDC00)) :: body, after)
        else none
      | _ => none
    else if isTrailUnit unit then none
    else
      let (body, after) ← stringBody? rest
      some (Char.ofNat unit :: body, after)
  | '\\' :: c :: rest => do
    let char ← escape? c
    let (body, after) ← stringBody? rest
    some (char :: body, after)
  | c :: rest =>
    if c.toNat < 0x20 then none
    else do
      let (body, after) ← stringBody? rest
      some (c :: body, after)

/-- The key of a member with its colon, and what follows it. -/
def key? (cs : List Char) : Option (String × List Char) :=
  match skipSpace cs with
  | '"' :: rest => do
    let (body, after) ← stringBody? rest
    match skipSpace after with
    | ':' :: tail => some (String.ofList body, tail)
    | _ => none
  | _ => none

mutual

/-- A document, and what follows it. -/
def value? : (fuel : Nat) → List Char → Option (Json × List Char)
  | 0, _ => none
  | fuel + 1, cs =>
    match skipSpace cs with
    | '\x7b' :: rest =>
      match skipSpace rest with
      | '\x7d' :: tail => some (.object [], tail)
      | _ => (members? fuel rest).map fun (members, tail) => (.object members, tail)
    | '[' :: rest =>
      match skipSpace rest with
      | ']' :: tail => some (.array [], tail)
      | _ => (items? fuel rest).map fun (items, tail) => (.array items, tail)
    | '"' :: rest => (stringBody? rest).map fun (body, tail) => (.string (String.ofList body), tail)
    | 'n' :: 'u' :: 'l' :: 'l' :: rest => some (.null, rest)
    | 't' :: 'r' :: 'u' :: 'e' :: rest => some (.bool true, rest)
    | 'f' :: 'a' :: 'l' :: 's' :: 'e' :: rest => some (.bool false, rest)
    | cs => number? cs

/-- The items of an array, at least one, up to its closing bracket, and what follows it. -/
def items? : (fuel : Nat) → List Char → Option (List Json × List Char)
  | 0, _ => none
  | fuel + 1, cs => do
    let (item, rest) ← value? fuel cs
    match skipSpace rest with
    | ',' :: tail => do
      let (items, after) ← items? fuel tail
      some (item :: items, after)
    | ']' :: tail => some ([item], tail)
    | _ => none

/-- The members of an object, at least one, up to its closing brace, and what follows it. -/
def members? : (fuel : Nat) → List Char → Option (List (String × Json) × List Char)
  | 0, _ => none
  | fuel + 1, cs => do
    let (key, rest) ← key? cs
    let (value, rest) ← value? fuel rest
    match skipSpace rest with
    | ',' :: tail => do
      let (members, after) ← members? fuel tail
      some ((key, value) :: members, after)
    | '\x7d' :: tail => some ([(key, value)], tail)
    | _ => none

end

/-- The document that a text spells, as it was written. -/
def parse? (s : String) : Option Json := do
  let (document, rest) ← value? (2 * s.length + 2) s.toList
  if (skipSpace rest).isEmpty then some document else none

/-- The canonical form of the document that a text spells. -/
def read? (s : String) : Option Json :=
  (parse? s).bind canonical?

end DynamicSql.Json
