import DynamicSql.Query.Build

/-!
# Drawing tokens

Tokens that nobody chose are serial numbers, so that no two descriptions made from one source share
a token unless one is a copy of the other.
-/

namespace DynamicSql

/-- The number of the next token. -/
structure TokenSource where
  next : Nat
deriving DecidableEq

namespace TokenSource

/-- The source that no token was drawn from. -/
def start : TokenSource := ⟨1⟩

/-- Draw a token. -/
def draw (source : TokenSource) : Token × TokenSource :=
  (toString source.next, ⟨source.next + 1⟩)

/-- Make a new query. -/
def newQuery (source : TokenSource) (table : Option String) : Query × TokenSource :=
  let (token, rest) := source.draw
  (.new token table, rest)

/-- Make a new update. -/
def newUpdate (source : TokenSource) : Update × TokenSource :=
  let (token, rest) := source.draw
  (.new token, rest)

/-- Give a copied query a token of its own. -/
def reissue (source : TokenSource) (q : Query) : Query × TokenSource :=
  let (token, rest) := source.draw
  (q.withToken token, rest)

end TokenSource

end DynamicSql
