import DynamicSql.Schema.Basic
import DynamicSql.Sql.Fragment
import DynamicSql.Sql.Params

/-!
# Resolving descriptions

Resolving a part of a description fails with an error, or yields a result together with a trace of
the tables that were mentioned and the values that were bound on the way. The order of the mentions
decides the aliases, and it differs from the order in which the tables stand in the text. Values are
bound in an order of their own, too, so a marker and its value meet again only through their place.
-/

namespace DynamicSql

/-- What happens while a description is resolved. -/
structure Trace where
  /-- The tokens of the tables that were mentioned. -/
  mentioned : List Token
  /-- The values that were bound, with their places. -/
  bound : List (Slot × Value)

namespace Trace

/-- Nothing happens. -/
def empty : Trace := ⟨[], []⟩

/-- One thing happens after another. -/
def append (a b : Trace) : Trace := ⟨a.mentioned ++ b.mentioned, a.bound ++ b.bound⟩

instance : Append Trace := ⟨append⟩

end Trace

/-- What resolving yields: an error, or a result and what happened on the way. -/
structure Resolve (α : Type) where
  /-- The result with its trace, or the error. -/
  run : Except Error (α × Trace)

namespace Resolve

variable {α β : Type}

/-- A result on the way to which nothing happens. -/
protected def pure (a : α) : Resolve α := ⟨.ok (a, .empty)⟩

/-- Resolve one thing after another. -/
protected def bind (x : Resolve α) (f : α → Resolve β) : Resolve β :=
  ⟨match x.run with
    | .error e => .error e
    | .ok (a, trace) =>
      match (f a).run with
      | .error e => .error e
      | .ok (b, more) => .ok (b, trace ++ more)⟩

instance : Monad Resolve where
  pure := Resolve.pure
  bind := Resolve.bind

/-- Fail with an error. -/
def fail (e : Error) : Resolve α := ⟨.error e⟩

/-- Mention the table with a token. -/
def mention (token : Token) : Resolve Unit := ⟨.ok ((), ⟨[token], []⟩)⟩

/-- Bind a value at a place, which gives the marker that stands for it. -/
def bound (slot : Slot) (v : Value) : Resolve Piece := ⟨.ok (.marker slot, ⟨[], [(slot, v)]⟩)⟩

/-- A result that may be an error. -/
def ofExcept : Except Error α → Resolve α
  | .ok a => ⟨.ok (a, .empty)⟩
  | .error e => ⟨.error e⟩

/-- A result that may be missing. -/
def ofOption (e : Error) : Option α → Resolve α
  | some a => ⟨.ok (a, .empty)⟩
  | none => ⟨.error e⟩

end Resolve

/-- What is known while a statement is resolved. -/
structure Context where
  schema : Schema
  dialect : Dialect
  /-- The name in front of the keys in markers. -/
  root : String
  /-- The tables of the statement by their tokens. -/
  references : List (Token × String)

/-- The table that fields are looked up in. -/
structure Scope where
  name : String
  /-- The token of the table; without one, columns are not qualified. -/
  token? : Option Token
  table : Table

/-- Open the scope of a table that is shown in the statement, and mention it. -/
def Context.openScope (ctx : Context) (token : Token) (name : String) : Resolve Scope := do
  Resolve.mention token
  let table ← Resolve.ofExcept (ctx.schema.table name)
  pure ⟨name, some token, table⟩

end DynamicSql
