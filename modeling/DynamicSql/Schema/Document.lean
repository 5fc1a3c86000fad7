import DynamicSql.Schema.Basic
import DynamicSql.Toml.Parser

/-!
# Schemas from TOML

A schema document has a table `tables` with an entry for each table, and each entry lists its
columns as pairs of `field` and `column`. Other keys are passed over. Entries and pairs may also be
written as arrays, in the order of their keys.
-/

namespace DynamicSql

/-- The text of a TOML string. -/
def Toml.asString? : Toml → Option String
  | .string s => some s
  | _ => none

/-- A pair of field and column. -/
def Column.ofToml? : Toml → Option Column
  | .table entries => do
    let field ← (← entries.lookup "field").asString?
    let column ← (← entries.lookup "column").asString?
    some ⟨field, column⟩
  | .array (field :: column :: _) => do some ⟨← field.asString?, ← column.asString?⟩
  | _ => none

/-- A list of pairs of field and column. -/
def Column.listOfToml? : Toml → Option (List Column)
  | .array items => items.mapM Column.ofToml?
  | _ => none

/-- The columns of an entry. An entry without any has none. -/
def Table.columnsOfToml? : Toml → Option (List Column)
  | .table entries => (entries.lookup "columns").elim (some []) Column.listOfToml?
  | .array [] => some []
  | .array (columns :: _) => Column.listOfToml? columns
  | .moment _ => some []
  | _ => none

namespace Schema

/-- The schema of the entries of a document. -/
def ofEntries? (entries : List (String × Toml)) : Option Schema :=
  match entries.lookup "tables" with
  | none => some .empty
  | some (.table tables) =>
    tables.foldlM (fun s (name, entry) => do
      some (s.register name (← Table.columnsOfToml? entry))) Schema.empty
  | some _ => none

/-- Read a schema document. -/
def read (text : String) : Except Error Schema :=
  match (Toml.parse? text).bind ofEntries? with
  | some s => .ok s
  | none => .error .malformedSchema

/-- Read a schema file; `files` gives the contents of the files that can be read. -/
def load (files : String → Option String) (path : String) : Except Error Schema :=
  match files path with
  | some text => read text
  | none => .error (.unreadableSchema path)

end Schema

end DynamicSql
