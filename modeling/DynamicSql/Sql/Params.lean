import DynamicSql.KeyMap
import DynamicSql.Sql.Path
import DynamicSql.Value.Document

/-!
# Bound values of a statement

The values that the markers of a statement stand for: by key in two sets, and by position in
statements that were written by hand.
-/

namespace DynamicSql

/-- The values bound to the markers of a statement. -/
structure Params where
  field : KeyMap Value
  filter : KeyMap Value
  positional : List Value

namespace Params

/-- No values. -/
def empty : Params := ⟨[], [], []⟩

/-- Values by position only. -/
def ofPositional (values : List Value) : Params := ⟨[], [], values⟩

/-- Bind a value to a key. -/
def insert (p : Params) (space : Namespace) (key : String) (v : Value) : Params :=
  match space with
  | .field => { p with field := p.field.insert key v }
  | .filter => { p with filter := p.filter.insert key v }

/-- The value bound to a key. -/
def get? (p : Params) (space : Namespace) (key : String) : Option Value :=
  match space with
  | .field => p.field.lookup key
  | .filter => p.filter.lookup key

/-- Add a value by position. -/
def push (p : Params) (v : Value) : Params :=
  { p with positional := p.positional ++ [v] }

/-- The values bound one after the other, each at its place. A later value replaces an earlier one
that was bound to the same key. -/
def ofBound (bound : List (Slot × Value)) : Params :=
  bound.foldl (fun p (slot, v) => p.insert slot.purpose.space slot.key v) .empty

/-- The number of bound values. -/
def size (p : Params) : Nat :=
  p.field.length + p.filter.length + p.positional.length

/-- The document of the bound values. -/
def toJson (p : Params) : Json :=
  .object [("field", .object (p.field.map fun (k, v) => (k, v.toJson))),
    ("filter", .object (p.filter.map fun (k, v) => (k, v.toJson))),
    ("positional", .array (p.positional.map Value.toJson))]

end Params

end DynamicSql
