import DynamicSql.Toml.Basic

/-!
# Growing tables

A document is read into a tree of tables that remembers how each table came about: from a header,
from standing inside the path of a header, or from a dotted key. Tables that a header or an inline
value has closed are not reopened by dotted keys, and keys are not assigned twice.
-/

namespace DynamicSql.Toml

/-- How a table came about. -/
inductive Origin where
  /-- By a header of its own. -/
  | header
  /-- By the header of a table inside it. -/
  | path
  /-- By a dotted key. -/
  | dotted
deriving DecidableEq

/-- What a key stands for while a document is read. -/
inductive Node where
  | value (v : Toml)
  | table (origin : Origin) (entries : List (String × Node))
  /-- Tables under one header in double brackets: the former ones, and the last one. -/
  | tables (former : List (List (String × Node))) (last : List (String × Node))

/-- The entries of a table, in the order of their making. -/
abbrev Entries := List (String × Node)

/-- A table while a document is read. -/
abbrev Growing := Origin × Entries

/-- Put a node under a key that is present. -/
def replace (entries : Entries) (key : String) (node : Node) : Entries :=
  entries.map fun entry => if entry.1 = key then (key, node) else entry

/-- Go down a path of keys, making tables that are missing, and change the table at its end. With
`dotted`, the path is that of a dotted key, and tables with a header are closed to it. -/
def descend (dotted : Bool) (act : Growing → Option Growing) :
    List String → Growing → Option Growing
  | [], t => act t
  | key :: rest, (origin, entries) =>
    match entries.lookup key with
    | none => do
      let (o, es) ← descend dotted act rest (if dotted then .dotted else .path, [])
      some (origin, entries ++ [(key, .table o es)])
    | some (.value _) => none
    | some (.table o es) =>
      if dotted ∧ o = .header then none
      else do
        let (o, es) ← descend dotted act rest (o, es)
        some (origin, replace entries key (.table o es))
    | some (.tables former last) => do
      let (_, es) ← descend dotted act rest (.header, last)
      some (origin, replace entries key (.tables former es))

/-- Assign a value to a key of a table, reached by a dotted key or directly. A dotted key adds only
to tables that came about by dotted keys. -/
def assignHere (viaDots : Bool) (key : String) (v : Toml) : Growing → Option Growing
  | (origin, entries) =>
    if (origin == .dotted) != viaDots then none
    else if (entries.lookup key).isSome then none
    else some (origin, entries ++ [(key, .value v)])

/-- Assign a value to a dotted key of a table. -/
def assign (path : List String) (key : String) (v : Toml) : Growing → Option Growing :=
  descend true (assignHere (!path.isEmpty) key v) path

/-- Open a table by its header. A table that has been made for the sake of another header is taken
over. -/
def openTable (key : String) : Growing → Option Growing
  | (origin, entries) =>
    match entries.lookup key with
    | none => some (origin, entries ++ [(key, .table .header [])])
    | some (.table .path es) => some (origin, replace entries key (.table .header es))
    | some _ => none

/-- Open one more table under a header in double brackets. -/
def openElement (key : String) : Growing → Option Growing
  | (origin, entries) =>
    match entries.lookup key with
    | none => some (origin, entries ++ [(key, .tables [] [])])
    | some (.tables former last) =>
      some (origin, replace entries key (.tables (former ++ [last]) []))
    | some _ => none

mutual

/-- The value of a node. -/
def Node.toToml : Node → Toml
  | .value v => v
  | .table _ entries => .table (entriesToToml entries)
  | .tables former last => .array (tablesToToml former ++ [.table (entriesToToml last)])

/-- The values of entries. -/
def entriesToToml : List (String × Node) → List (String × Toml)
  | [] => []
  | (key, node) :: rest => (key, node.toToml) :: entriesToToml rest

/-- The values of a list of tables. -/
def tablesToToml : List (List (String × Node)) → List Toml
  | [] => []
  | entries :: rest => .table (entriesToToml entries) :: tablesToToml rest

end

end DynamicSql.Toml
