import DynamicSql.Text.Hex

/-!
# Blanks, strings and keys of TOML

Readers over the characters of a document. A line ends with a line feed, which a carriage return
may precede. Strings come in four forms: with or without escapes, on one line or on several.
-/

namespace DynamicSql.Toml

/-- Whether a character is a blank within a line. -/
def isBlank (c : Char) : Bool :=
  c == ' ' || c == '\t'

/-- Step over blanks within a line. -/
def skipBlanks (cs : List Char) : List Char :=
  cs.dropWhile isBlank

/-- Step over the end of a line. -/
def newline? : List Char → Option (List Char)
  | '\n' :: rest => some rest
  | '\r' :: '\n' :: rest => some rest
  | _ => none

/-- Whether a character may stand in a comment or, but for marks and escapes, in a string. -/
def isPlain (c : Char) : Bool :=
  c == '\t' || (0x20 ≤ c.toNat && c.toNat ≤ 0x7E) || 0x80 ≤ c.toNat

/-- Step over the rest of a comment. -/
def skipComment (cs : List Char) : List Char :=
  cs.dropWhile isPlain

/-- The character of a one-letter escape. -/
def escape? (c : Char) : Option Char :=
  if c = 'b' then some '\x08'
  else if c = 't' then some '\t'
  else if c = 'n' then some '\n'
  else if c = 'f' then some '\x0c'
  else if c = 'r' then some '\r'
  else if c = '"' then some '"'
  else if c = '\\' then some '\\'
  else none

/-- The character with a number in hexadecimal digits. -/
def numbered? (digits : List Char) : Option Char := do
  let n ← Text.readHex? 0 digits
  if n.isValidChar then some (Char.ofNat n) else none

/-- The inside of a string with escapes up to its closing mark, and what follows it. -/
def basicBody? : List Char → Option (List Char × List Char)
  | [] => none
  | '"' :: rest => some ([], rest)
  | '\\' :: 'u' :: a :: b :: c :: d :: rest => do
    let char ← numbered? [a, b, c, d]
    let (body, after) ← basicBody? rest
    some (char :: body, after)
  | '\\' :: 'U' :: a :: b :: c :: d :: e :: f :: g :: h :: rest => do
    let char ← numbered? [a, b, c, d, e, f, g, h]
    let (body, after) ← basicBody? rest
    some (char :: body, after)
  | '\\' :: c :: rest => do
    let char ← escape? c
    let (body, after) ← basicBody? rest
    some (char :: body, after)
  | c :: rest =>
    if isPlain c then do
      let (body, after) ← basicBody? rest
      some (c :: body, after)
    else none

/-- The inside of a string without escapes up to its closing mark, and what follows it. -/
def literalBody? : List Char → Option (List Char × List Char)
  | [] => none
  | '\'' :: rest => some ([], rest)
  | c :: rest =>
    if isPlain c then do
      let (body, after) ← literalBody? rest
      some (c :: body, after)
    else none

/-- Whether only blanks are left on the line. -/
def endsLine (cs : List Char) : Bool :=
  (newline? (skipBlanks cs)).isSome

/-- The inside of a string on several lines with escapes, and what follows it. Up to two marks may
stand right in front of the closing ones. Behind a backslash at the end of a line, `folding` is set
and blanks and line ends are left out. -/
def basicLines? (folding : Bool) : List Char → Option (List Char × List Char)
  | [] => none
  | '"' :: '"' :: '"' :: '"' :: '"' :: rest => some (['"', '"'], rest)
  | '"' :: '"' :: '"' :: '"' :: rest => some (['"'], rest)
  | '"' :: '"' :: '"' :: rest => some ([], rest)
  | '\\' :: 'u' :: a :: b :: c :: d :: rest => do
    let char ← numbered? [a, b, c, d]
    let (body, after) ← basicLines? false rest
    some (char :: body, after)
  | '\\' :: 'U' :: a :: b :: c :: d :: e :: f :: g :: h :: rest => do
    let char ← numbered? [a, b, c, d, e, f, g, h]
    let (body, after) ← basicLines? false rest
    some (char :: body, after)
  | '\\' :: c :: rest =>
    if endsLine (c :: rest) then basicLines? true (c :: rest)
    else do
      let char ← escape? c
      let (body, after) ← basicLines? false rest
      some (char :: body, after)
  | '\r' :: '\n' :: rest =>
    if folding then basicLines? folding rest
    else do
      let (body, after) ← basicLines? folding rest
      some ('\n' :: body, after)
  | c :: rest =>
    if folding && (isBlank c || c == '\n') then basicLines? folding rest
    else if isPlain c || c == '\n' then do
      let (body, after) ← basicLines? false rest
      some (c :: body, after)
    else none

/-- The inside of a string on several lines without escapes, and what follows it. -/
def literalLines? : List Char → Option (List Char × List Char)
  | [] => none
  | '\'' :: '\'' :: '\'' :: '\'' :: '\'' :: rest => some (['\'', '\''], rest)
  | '\'' :: '\'' :: '\'' :: '\'' :: rest => some (['\''], rest)
  | '\'' :: '\'' :: '\'' :: rest => some ([], rest)
  | '\r' :: '\n' :: rest => do
    let (body, after) ← literalLines? rest
    some ('\n' :: body, after)
  | c :: rest =>
    if isPlain c || c == '\n' then do
      let (body, after) ← literalLines? rest
      some (c :: body, after)
    else none

/-- Step over a line end right behind an opening mark. -/
def dropNewline (cs : List Char) : List Char :=
  (newline? cs).getD cs

/-- A string in one of the four forms, and what follows it. -/
def string? : List Char → Option (List Char × List Char)
  | '"' :: '"' :: '"' :: rest => basicLines? false (dropNewline rest)
  | '"' :: rest => basicBody? rest
  | '\'' :: '\'' :: '\'' :: rest => literalLines? (dropNewline rest)
  | '\'' :: rest => literalBody? rest
  | _ => none

/-- Whether a character may stand in a key without marks. -/
def isKeyChar (c : Char) : Bool :=
  ('a' ≤ c && c ≤ 'z') || ('A' ≤ c && c ≤ 'Z') || ('0' ≤ c && c ≤ '9') || c == '_' || c == '-'

/-- A key without dots, and what follows it. -/
def simpleKey? : List Char → Option (List Char × List Char)
  | '"' :: rest => basicBody? rest
  | '\'' :: rest => literalBody? rest
  | cs =>
    let bare := cs.takeWhile isKeyChar
    if bare.isEmpty then none else some (bare, cs.dropWhile isKeyChar)

/-- The parts of a key between its dots, with blanks around them, and what follows. -/
def key? : (fuel : Nat) → List Char → Option (List String × List Char)
  | 0, _ => none
  | fuel + 1, cs => do
    let (part, rest) ← simpleKey? (skipBlanks cs)
    match skipBlanks rest with
    | '.' :: tail => do
      let (parts, after) ← key? fuel tail
      some (String.ofList part :: parts, after)
    | after => some ([String.ofList part], after)

end DynamicSql.Toml
