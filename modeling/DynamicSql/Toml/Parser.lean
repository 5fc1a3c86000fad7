import DynamicSql.Toml.Moment
import DynamicSql.Toml.Number
import DynamicSql.Toml.Text
import DynamicSql.Toml.Tree

/-!
# Reading TOML documents

A document is a list of lines: headers of tables and assignments, with blank lines and comments
between them. Fuel is taken from the length of the text, of which every step uses up a part, so it
bounds no nesting; a limit on the nesting of values is left out here, too.
-/

namespace DynamicSql.Toml

/-- Step over blanks, line ends and comments between the items of an array. -/
def skipFiller : (fuel : Nat) → List Char → List Char
  | 0, cs => cs
  | fuel + 1, cs =>
    match skipBlanks cs with
    | '#' :: rest =>
      match newline? (skipComment rest) with
      | some after => skipFiller fuel after
      | none => '#' :: rest
    | cs =>
      match newline? cs with
      | some after => skipFiller fuel after
      | none => cs

/-- A date or a number, and what follows it. -/
def scalar? (cs : List Char) : Option (Toml × List Char) :=
  match moment? cs with
  | some (text, rest) => some (.moment (String.ofList text), rest)
  | none =>
    match float? cs with
    | some result => some result
    | none => integer? cs

/-- The table of an inline table's assignments. -/
def inlineTable? (assignments : List (List String × Toml)) : Option Toml := do
  let (_, entries) ← assignments.foldlM (fun t (path, v) =>
    match path.getLast? with
    | some key => assign path.dropLast key v t
    | none => none) ((Origin.header, []) : Growing)
  some (.table (entriesToToml entries))

mutual

/-- A value, and what follows it. -/
def value? : (fuel : Nat) → List Char → Option (Toml × List Char)
  | 0, _ => none
  | fuel + 1, cs =>
    match cs with
    | '"' :: _ | '\'' :: _ =>
      (string? cs).map fun (s, rest) => (.string (String.ofList s), rest)
    | '[' :: ']' :: rest => some (.array [], rest)
    | '[' :: rest => (items? fuel rest).map fun (items, after) => (.array items, after)
    | '\x7b' :: rest => do
      let (assignments, after) ← inlineItems? fuel rest
      some (← inlineTable? assignments, after)
    | 't' :: 'r' :: 'u' :: 'e' :: rest => some (.boolean true, rest)
    | 'f' :: 'a' :: 'l' :: 's' :: 'e' :: rest => some (.boolean false, rest)
    | _ => scalar? cs

/-- The items of an array up to its closing bracket, and what follows it. A comma may stand behind
the last item. -/
def items? : (fuel : Nat) → List Char → Option (List Toml × List Char)
  | 0, _ => none
  | fuel + 1, cs =>
    match skipFiller cs.length cs with
    | ']' :: rest => some ([], rest)
    | cs => do
      let (item, rest) ← value? fuel cs
      match skipFiller rest.length rest with
      | ',' :: tail => do
        let (items, after) ← items? fuel tail
        some (item :: items, after)
      | ']' :: after => some ([item], after)
      | _ => none

/-- The assignments of an inline table up to its closing brace, and what follows it. -/
def inlineItems? : (fuel : Nat) → List Char → Option (List (List String × Toml) × List Char)
  | 0, _ => none
  | fuel + 1, cs =>
    match skipBlanks cs with
    | '\x7d' :: rest => some ([], rest)
    | cs => inlinePairs? fuel cs

/-- The assignments of an inline table, at least one, up to its closing brace, and what follows. -/
def inlinePairs? : (fuel : Nat) → List Char → Option (List (List String × Toml) × List Char)
  | 0, _ => none
  | fuel + 1, cs => do
    let (path, rest) ← key? cs.length cs
    match rest with
    | '=' :: rest => do
      let (v, rest) ← value? fuel (skipBlanks rest)
      match skipBlanks rest with
      | ',' :: tail => do
        let (pairs, after) ← inlinePairs? fuel tail
        some ((path, v) :: pairs, after)
      | '\x7d' :: after => some ([(path, v)], after)
      | _ => none
    | _ => none

end

/-- A line of a document. -/
inductive Line where
  | header (path : List String)
  /-- A header in double brackets. -/
  | element (path : List String)
  | assignment (path : List String) (v : Toml)

/-- Step over the end of a line, with a comment in front of it; the end of the text counts, too. -/
def lineEnd? (cs : List Char) : Option (List Char) :=
  let rest := match skipBlanks cs with
    | '#' :: rest => skipComment rest
    | cs => cs
  if rest.isEmpty then some [] else newline? rest

/-- A header or an assignment, and what follows it on its line. -/
def line? (cs : List Char) : Option (Line × List Char) :=
  match cs with
  | '[' :: '[' :: rest => do
    let (path, rest) ← key? rest.length rest
    match rest with
    | ']' :: ']' :: after => some (.element path, after)
    | _ => none
  | '[' :: rest => do
    let (path, rest) ← key? rest.length rest
    match rest with
    | ']' :: after => some (.header path, after)
    | _ => none
  | cs => do
    let (path, rest) ← key? cs.length cs
    match rest with
    | '=' :: rest => do
      let (v, after) ← value? (3 * rest.length + 3) (skipBlanks rest)
      some (.assignment path v, after)
    | _ => none

/-- The lines of a document. -/
def lines? : (fuel : Nat) → List Char → Option (List Line)
  | 0, _ => none
  | fuel + 1, cs =>
    match skipBlanks cs with
    | [] => some []
    | c :: rest =>
      if c = '#' ∨ c = '\n' ∨ c = '\r' then do
        lines? fuel (← lineEnd? (c :: rest))
      else do
        let (line, rest) ← line? (c :: rest)
        let lines ← lines? fuel (← lineEnd? rest)
        some (line :: lines)

/-- Take in a line: the path of the header in force, and the document so far. -/
def addLine (state : List String × Growing) (line : Line) : Option (List String × Growing) :=
  let (here, document) := state
  match line with
  | .header path => do
    let document ← descend false (openTable (path.getLastD "")) path.dropLast document
    some (path, document)
  | .element path => do
    let document ← descend false (openElement (path.getLastD "")) path.dropLast document
    some (path, document)
  | .assignment path v => do
    let document ← descend false (assign path.dropLast (path.getLastD "") v) here document
    some (here, document)

/-- The table that a text spells as a document. A byte order mark at its front is passed over. -/
def parse? (s : String) : Option (List (String × Toml)) := do
  let cs := match s.toList with
    | c :: rest => if c.toNat = 0xFEFF then rest else c :: rest
    | [] => []
  let lines ← lines? (cs.length + 1) cs
  let (_, (_, entries)) ← lines.foldlM addLine ([], (Origin.header, []))
  some (entriesToToml entries)

end DynamicSql.Toml
