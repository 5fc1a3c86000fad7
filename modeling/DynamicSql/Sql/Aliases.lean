import DynamicSql.Query.Basic

/-!
# Aliases of tables

The tables of a statement are called `t0`, `t1`, … in the order in which they are first mentioned.
-/

namespace DynamicSql

/-- The tokens that have an alias, in the order of their numbers. -/
structure Aliases where
  tokens : List Token
deriving DecidableEq

namespace Aliases

/-- No aliases. -/
def empty : Aliases := ⟨[]⟩

/-- Give a token an alias, unless it has one. -/
def mention (a : Aliases) (token : Token) : Aliases :=
  if a.tokens.contains token then a else ⟨a.tokens ++ [token]⟩

/-- The aliases of a list of mentioned tokens. -/
def ofMentions (tokens : List Token) : Aliases :=
  tokens.foldl mention empty

/-- The number of aliases. -/
def size (a : Aliases) : Nat := a.tokens.length

/-- The alias of a token that was mentioned. -/
def text (a : Aliases) (token : Token) : String :=
  "t" ++ toString (a.tokens.idxOf token)

/-- The alias of a token, if it has one. -/
def find? (a : Aliases) (token : Token) : Option String :=
  if a.tokens.contains token then some (a.text token) else none

end Aliases

end DynamicSql
