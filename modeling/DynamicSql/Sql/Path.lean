/-!
# Keys of bound values

A bound value is stored under a key that says where in the description it was written: the number
of the statement, the way down to the group of conditions, and the place in that group. Each step
of the way is a segment, a tag of letters with a number where there are several.
-/

namespace DynamicSql

/-- A step down into a description. -/
structure Segment where
  tag : String
  number? : Option Nat
deriving DecidableEq

/-- The text of a segment. -/
def Segment.text (s : Segment) : String :=
  match s.number? with
  | some n => s.tag ++ toString n
  | none => s.tag

/-- The way from a statement down to a place in its description. -/
structure Path where
  /-- The number of the statement. -/
  root : Nat
  segments : List Segment
deriving DecidableEq

namespace Path

/-- The place of a whole statement. -/
def ofRoot (n : Nat) : Path := ⟨n, []⟩

/-- A step down. -/
def child (p : Path) (tag : String) : Path :=
  ⟨p.root, p.segments ++ [⟨tag, none⟩]⟩

/-- A step down to one of several places. -/
def childAt (p : Path) (tag : String) (n : Nat) : Path :=
  ⟨p.root, p.segments ++ [⟨tag, some n⟩]⟩

/-- The text of a path. -/
def text (p : Path) : String :=
  p.segments.foldl (fun s segment => s ++ "_" ++ segment.text) (toString p.root)

/-- The key of the value at a place under a path; `stem` says what the value is for. -/
def key (p : Path) (stem : String) (index : Nat) : String :=
  stem ++ p.text ++ "_" ++ toString index

end Path

/-- The two sets of bound values. -/
inductive Namespace where
  /-- Values that fields are set to. -/
  | field
  /-- Values that fields are compared with. -/
  | filter
deriving DecidableEq

/-- The name of a set of bound values. -/
def Namespace.name : Namespace → String
  | field => "field"
  | filter => "filter"

/-- The marker of a key in a statement. -/
def marker (root : String) (space : Namespace) (key : String) : String :=
  "#\x7b" ++ root ++ "." ++ space.name ++ "." ++ key ++ "\x7d"

/-- What a bound value is for. -/
inductive Purpose where
  | assigned
  | compared
  | comparedGroup
deriving DecidableEq

/-- How the keys of values for a purpose begin. -/
def Purpose.stem : Purpose → String
  | assigned => "field_v"
  | compared => "filter_v"
  | comparedGroup => "filter_h"

/-- The set that values for a purpose belong to. -/
def Purpose.space : Purpose → Namespace
  | assigned => .field
  | compared | comparedGroup => .filter

/-- The place of a bound value. -/
structure Slot where
  purpose : Purpose
  path : Path
  index : Nat
  /-- The number of a member, where one condition binds several values. -/
  item? : Option Nat
deriving DecidableEq

namespace Slot

/-- The key of a place. -/
def key (s : Slot) : String :=
  match s.item? with
  | some n => s.path.key s.purpose.stem s.index ++ "_" ++ toString n
  | none => s.path.key s.purpose.stem s.index

/-- The marker of a place. -/
def marker (s : Slot) (root : String) : String :=
  DynamicSql.marker root s.purpose.space s.key

end Slot

end DynamicSql
