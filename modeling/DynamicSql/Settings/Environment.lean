import DynamicSql.Settings.Document

/-!
# Settings from the environment

Variables of the environment override the settings of a file, field by field.
-/

namespace DynamicSql

/-- The variables that are set to a text. One whose value is not Unicode counts as not set. -/
abbrev Environment := String → Option String

/-- Whether the value of a variable says yes, in any case and with white space around it. -/
def saysYes (s : String) : Bool :=
  ["true", "1", "yes"].contains (String.ofList ((Text.trim s).toList.map Char.toLower))

namespace Settings

/-- Override the settings that variables are set for. A blank name in front of the keys is passed
over, and a blank schema file means that there is none. -/
def override (env : Environment) (s : Settings) : Settings where
  debug := (env "QUARRY_DEBUG").elim s.debug saysYes
  dialect := (env "QUARRY_DIALECT").elim s.dialect fun v => Text.lowercase (Text.trim v)
  paramRoot := (env "QUARRY_PARAM_ROOT").elim s.paramRoot fun v =>
    if (Text.trim v).isEmpty then s.paramRoot else Text.trim v
  schemaFile := (env "QUARRY_SCHEMA_FILE").elim s.schemaFile fun v =>
    if (Text.trim v).isEmpty then none else some (Text.trim v)
  logLevel := (env "QUARRY_LOG_LEVEL").getD s.logLevel
  logSql := (env "QUARRY_LOG_SQL").elim s.logSql saysYes
  extra := s.extra

/-- The standard settings with their overrides. -/
def ofEnvironment (env : Environment) : Settings := standard.override env

/-- The settings of a file with their overrides. -/
def loadWithEnvironment (files : String → Option String) (env : Environment) (path : String) :
    Except Error Settings := do
  return (← load files path).override env

end Settings

end DynamicSql
