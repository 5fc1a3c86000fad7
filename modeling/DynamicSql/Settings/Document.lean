import DynamicSql.Json.Parser
import DynamicSql.Settings.Basic
import DynamicSql.Text.Split

/-!
# Settings from documents

A settings document in TOML or JSON names what differs from the standard. Unknown keys are passed
over; a wrong type is an error, and so is a key that a JSON document repeats. A JSON array lists
the settings in their order, and may stop early.
-/

namespace DynamicSql

/-- The fields of a settings document. -/
structure SettingsFields (α : Type) where
  debug : Option α
  dialect : Option α
  paramRoot : Option α
  schemaFile : Option α
  logLevel : Option α
  logSql : Option α
  extra : Option α

/-- How the values of a document are read. -/
structure SettingsReader (α : Type) where
  flag : α → Option Bool
  text : α → Option String
  optionalText : α → Option (Option String)
  entries : α → Option (KeyMap Json)

/-- A value that is read if it is there. -/
def readField {α β : Type} (read : α → Option β) (standard : β) : Option α → Option β
  | none => some standard
  | some a => read a

/-- The settings of a document. -/
def SettingsFields.settings? {α : Type} (reader : SettingsReader α) (f : SettingsFields α) :
    Option Settings := do
  let base := Settings.standard
  some {
    debug := ← readField reader.flag base.debug f.debug
    dialect := ← readField reader.text base.dialect f.dialect
    paramRoot := ← readField reader.text base.paramRoot f.paramRoot
    schemaFile := ← readField reader.optionalText base.schemaFile f.schemaFile
    logLevel := ← readField reader.text base.logLevel f.logLevel
    logSql := ← readField reader.flag base.logSql f.logSql
    extra := ← readField reader.entries base.extra f.extra }

/-- The fields found under their names. -/
def SettingsFields.named {α : Type} (find : String → Option α) : SettingsFields α :=
  ⟨find "debug", find "dialect", find "param_root", find "schema_file", find "log_level",
    find "log_sql", find "extra"⟩

/-- The names of the fields. -/
def settingsNames : List String :=
  ["debug", "dialect", "param_root", "schema_file", "log_level", "log_sql", "extra"]

/-- The object that stands for a date or a time in JSON. -/
def momentJson (text : String) : List (String × Json) :=
  [("$__toml_private_datetime", .string text)]

mutual

/-- The JSON document of a TOML value. Doubles that are not finite become `null`. -/
def Toml.toJson : Toml → Json
  | .string s => .string s
  | .integer n => .integer n
  | .float x => if x.isFinite then .float x else .null
  | .boolean b => .bool b
  | .moment text => .object (momentJson text)
  | .array items => .array (itemsToJson items)
  | .table entries => .object (KeyMap.ofList (entriesToJson entries))

/-- The documents of a list of TOML values. -/
def Toml.itemsToJson : List Toml → List Json
  | [] => []
  | t :: rest => t.toJson :: itemsToJson rest

/-- The members for the entries of a TOML table. -/
def Toml.entriesToJson : List (String × Toml) → List (String × Json)
  | [] => []
  | (key, t) :: rest => (key, t.toJson) :: entriesToJson rest

end

/-- How the values of a TOML document are read. -/
def tomlSettings : SettingsReader Toml where
  flag
    | .boolean b => some b
    | _ => none
  text := Toml.asString?
  optionalText t := t.asString?.map some
  entries
    | .table entries => some (KeyMap.ofList (Toml.entriesToJson entries))
    | .moment text => some (momentJson text)
    | _ => none

/-- How the values of a JSON document are read. -/
def jsonSettings : SettingsReader Json where
  flag
    | .bool b => some b
    | _ => none
  text
    | .string s => some s
    | _ => none
  optionalText
    | .null => some none
    | .string s => some (some s)
    | _ => none
  entries
    | .object members => (Json.canonicalMembers? members).map KeyMap.ofList
    | _ => none

/-- The fields of a JSON document. -/
def SettingsFields.ofJson? : Json → Option (SettingsFields Json)
  | .object members =>
    if settingsNames.all fun name => (members.filter (·.1 == name)).length ≤ 1 then
      some (.named fun name => members.lookup name)
    else none
  | .array items =>
    if items.length ≤ settingsNames.length then
      some ⟨items[0]?, items[1]?, items[2]?, items[3]?, items[4]?, items[5]?, items[6]?⟩
    else none
  | _ => none

namespace Settings

/-- The settings that a text spells in a syntax. -/
def parse? (format : Format) (text : String) : Option Settings :=
  match format with
  | .toml => do
    let entries ← Toml.parse? text
    (SettingsFields.named fun name => entries.lookup name).settings? tomlSettings
  | .json => do (← SettingsFields.ofJson? (← Json.parse? text)).settings? jsonSettings

/-- Read a settings document. -/
def read (format : Format) (text : String) : Except Error Settings :=
  match parse? format text with
  | some s => .ok s
  | none => .error (.malformedSettings format)

end Settings

/-- The last part of a path, unless that is the directory above. -/
def fileName? (path : String) : Option (List Char) :=
  let parts := (Text.split '/' path.toList).filter fun part => !part.isEmpty && part != ['.']
  match parts.getLast? with
  | some name => if name = ['.', '.'] then none else some name
  | none => none

/-- What follows the last full stop of a file's name, unless nothing stands before that. -/
def extension? (name : List Char) : Option (List Char) :=
  let reversed := name.reverse
  match reversed.dropWhile (· != '.') with
  | [] | [_] => none
  | _ => some (reversed.takeWhile (· != '.')).reverse

/-- The syntax of a settings file by its path: JSON by its extension, and TOML otherwise. -/
def Format.ofPath (path : String) : Format :=
  match (fileName? path).bind extension? with
  | some extension => if extension.map Char.toLower = "json".toList then .json else .toml
  | none => .toml

/-- Read a settings file; `files` gives the contents of the files that can be read. -/
def Settings.load (files : String → Option String) (path : String) : Except Error Settings :=
  match files path with
  | some text => read (.ofPath path) text
  | none => .error (.unreadableSettings path)

end DynamicSql
