import DynamicSql.KeyMap
import DynamicSql.Schema.Document
import DynamicSql.Statement.Basic

/-!
# Settings

What an application chooses: the dialect, the name in front of the keys of markers, the file of
the schema, and how much is logged. The further entries are kept for the application itself.
-/

namespace DynamicSql

/-- The choices of an application. -/
structure Settings where
  debug : Bool
  dialect : String
  paramRoot : String
  schemaFile : Option String
  logLevel : String
  logSql : Bool
  extra : KeyMap Json

namespace Settings

/-- The choices of an application that makes none. -/
def standard : Settings where
  debug := true
  dialect := "mysql"
  paramRoot := "request"
  schemaFile := none
  logLevel := "info"
  logSql := false
  extra := []

/-- The compiler that the settings ask for. -/
def compiler (s : Settings) (schema : Schema) : Except Error Compiler := do
  return ⟨schema, ← Dialect.read s.dialect, s.paramRoot⟩

/-- The schema that the settings name. -/
def schema (s : Settings) (files : String → Option String) : Except Error Schema :=
  match s.schemaFile with
  | some path => Schema.load files path
  | none => .error .noSchemaFile

end Settings

/-- Settings that are made once, at the start of an application. -/
structure SettingsCell where
  content : Option Settings

/-- What can go wrong with settings that are made once. -/
inductive SettingsMisuse where
  | alreadyConfigured
  | notConfigured
deriving DecidableEq

/-- The message of a misuse. -/
def SettingsMisuse.message : SettingsMisuse → String
  | alreadyConfigured => "quarry settings are already configured"
  | notConfigured =>
    "quarry settings are not configured; call SETTINGS.configure() during startup"

namespace SettingsCell

/-- Settings that have not been made. -/
def empty : SettingsCell := ⟨none⟩

/-- Make the settings, unless they have been made. -/
def configure (cell : SettingsCell) (s : Settings) : Except SettingsMisuse SettingsCell :=
  match cell.content with
  | none => .ok ⟨some s⟩
  | some _ => .error .alreadyConfigured

/-- The settings that have been made. -/
def get (cell : SettingsCell) : Except SettingsMisuse Settings :=
  match cell.content with
  | some s => .ok s
  | none => .error .notConfigured

/-- Whether the settings have been made. -/
def isConfigured (cell : SettingsCell) : Bool := cell.content.isSome

end SettingsCell

end DynamicSql
