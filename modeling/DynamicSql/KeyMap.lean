/-!
# Maps in key order

Finite maps from texts, kept as lists of entries in ascending order of their keys. Texts are
compared by code points, which is also the order of their bytes in UTF-8. Inserting under a key
that is present replaces its value.
-/

namespace DynamicSql

/-- Entries in ascending order of their keys, each key once. -/
abbrev KeyMap (α : Type) := List (String × α)

namespace KeyMap

variable {α : Type}

/-- Put a value under a key. -/
def insert (key : String) (value : α) : KeyMap α → KeyMap α
  | [] => [(key, value)]
  | (k, v) :: rest =>
    if key < k then (key, value) :: (k, v) :: rest
    else if key = k then (key, value) :: rest
    else (k, v) :: insert key value rest

/-- The map of a list of entries, of which a later one replaces an earlier one of its key. -/
def ofList (entries : List (String × α)) : KeyMap α :=
  entries.foldl (fun map entry => insert entry.1 entry.2 map) []

end KeyMap

end DynamicSql
