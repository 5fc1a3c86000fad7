import DynamicSql.Resolve.Basic

/-!
# Fields and expressions

A field is a name of the table at hand, or a reference `#tas_token.field` to a table elsewhere in
the statement. An expression is cut into words at blanks, commas, parentheses and the signs of
arithmetic; the words that name columns are replaced, and all else is kept as it is.
-/

namespace DynamicSql

/-- A field that was found. -/
structure FoundColumn where
  /-- The column behind the alias of its table. -/
  fragment : Fragment
  column : String
  /-- The name under which the column is shown. -/
  field : String

/-- What is behind the mark of a reference. -/
def behindMark? : List Char → Option (List Char)
  | '#' :: 't' :: 'a' :: 's' :: '_' :: rest => some rest
  | _ => none

/-- Cut at the first full stop. -/
def cutAtStop? : List Char → Option (List Char × List Char)
  | [] => none
  | c :: rest =>
    if c = '.' then some ([], rest)
    else (cutAtStop? rest).map fun (front, back) => (c :: front, back)

/-- The token and the field of a reference. -/
def reference? (name : String) : Option (Token × String) := do
  let body ← behindMark? name.toList
  let (token, field) ← cutAtStop? body
  some (String.ofList token, String.ofList field)

namespace Context

/-- Find a reference to a table of the statement. -/
def findReference (ctx : Context) (name token field : String) : Resolve FoundColumn := do
  let tableName ← Resolve.ofOption (.unknownReference name token) (ctx.references.lookup token)
  let table ← Resolve.ofExcept (ctx.schema.table tableName)
  let column ← Resolve.ofOption (.unknownField field tableName) (table.resolve? field)
  Resolve.mention token
  pure ⟨.qualified (some token) column, column, table.fieldFor column field⟩

/-- Find a field. -/
def findColumn (ctx : Context) (scope : Scope) (name : String) : Resolve FoundColumn :=
  match reference? name with
  | some (token, field) => ctx.findReference name token field
  | none => do
    let column ← Resolve.ofOption (.unknownField name scope.name) (scope.table.resolve? name)
    pure ⟨.qualified scope.token? column, column, scope.table.fieldFor column name⟩

/-- The text of a field. -/
def field (ctx : Context) (scope : Scope) (name : String) : Resolve Fragment := do
  return (← ctx.findColumn scope name).fragment

end Context

/-- Whether a character separates the words of an expression. -/
def isDelimiter (c : Char) : Bool :=
  c == '+' || c == '-' || c == '*' || c == '/' || c == '(' || c == ')' || c == ',' || c == ' '

/-- A part of an expression. -/
inductive Lexeme where
  /-- A longest run without delimiters. -/
  | word (cs : List Char)
  | delimiter (c : Char)

/-- Cut an expression into words and delimiters; `word` is the word begun so far, reversed. -/
def lexemesFrom (word : List Char) : List Char → List Lexeme
  | [] => if word.isEmpty then [] else [.word word.reverse]
  | c :: rest =>
    if isDelimiter c then
      if word.isEmpty then .delimiter c :: lexemesFrom [] rest
      else .word word.reverse :: .delimiter c :: lexemesFrom [] rest
    else lexemesFrom (c :: word) rest

/-- The words and delimiters of an expression. -/
def lexemes (expression : String) : List Lexeme :=
  lexemesFrom [] expression.toList

namespace Context

/-- The text of a part of an expression. -/
def lexeme (ctx : Context) (scope : Scope) : Lexeme → Resolve Fragment
  | .delimiter c => pure (.ofText (String.ofList [c]))
  | .word cs =>
    let name := String.ofList cs
    if (behindMark? cs).isSome then ctx.field scope name
    else
      match scope.table.resolve? name with
      | some column => pure (.qualified scope.token? column)
      | none => pure (.ofText name)

/-- The text of an expression. -/
def expression (ctx : Context) (scope : Scope) (text : String) : Resolve Fragment := do
  let parts ← (lexemes text).mapM (ctx.lexeme scope)
  return parts.flatten

/-- The text of the left side of a comparison: arithmetic is admitted unless it tests equality. -/
def comparand (ctx : Context) (scope : Scope) (comparison : Comparison) (name : String) :
    Resolve Fragment :=
  if comparison.isEquality then ctx.field scope name else ctx.expression scope name

end Context

end DynamicSql
