import DynamicSql.Resolve.Query
import DynamicSql.Resolve.References

/-!
# Statements

A statement is its text and the values bound to the markers in the text. A compiler holds what
statements are made with: the schema, the dialect, and the name in front of the keys of markers.
-/

namespace DynamicSql

/-- A statement with its bound values. -/
structure Statement where
  sql : String
  params : Params

/-- A resolved statement: its pieces, and what happened on the way. -/
abbrev Draft := Fragment × Trace

/-- The document of a statement. -/
def Statement.toJson (s : Statement) : Json :=
  .object [("sql", .string s.sql), ("params", s.params.toJson)]

/-- What statements are made with. -/
structure Compiler where
  schema : Schema
  dialect : Dialect
  root : String

namespace Compiler

/-- The compiler for a schema with the usual choices. -/
def new (schema : Schema) : Compiler := ⟨schema, .mySql, "request"⟩

/-- The context of a statement with the given tables, if each has a token of its own. -/
def context (c : Compiler) (references : List (Token × String)) : Except Error Context := do
  return ⟨c.schema, c.dialect, c.root, ← distinctReferences references⟩

/-- The text of a draft. -/
def render (c : Compiler) (draft : Draft) : String :=
  draft.1.render c.root (.ofMentions draft.2.mentioned)

/-- The statement of a draft. -/
def finish (c : Compiler) (draft : Draft) : Statement :=
  ⟨c.render draft, .ofBound draft.2.bound⟩

end Compiler

end DynamicSql
