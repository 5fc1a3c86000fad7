import DynamicSql.Proofs.Text.Trim
import DynamicSql.Settings.Environment
import Mathlib.Data.List.Forall2

/-!
# Settings in layers

Every setting has a value of its own in each of three layers, or none: in the environment, under a
variable that no other setting has; in the file, under its key; and in the standard settings, which
leave none open. The first layer that has one decides, setting by setting
(`Settings.layers_decide`).
-/

namespace DynamicSql

/-- One of the choices of an application. -/
inductive Setting where
  | debug
  | dialect
  | paramRoot
  | schemaFile
  | logLevel
  | logSql
  | extra
deriving DecidableEq

namespace Setting

/-- What a setting is chosen among. -/
abbrev Value : Setting → Type
  | debug | logSql => Bool
  | dialect | paramRoot | logLevel => String
  | schemaFile => Option String
  | extra => KeyMap Json

/-- The key of a setting in a document. -/
def key : Setting → String
  | debug => "debug"
  | dialect => "dialect"
  | paramRoot => "param_root"
  | schemaFile => "schema_file"
  | logLevel => "log_level"
  | logSql => "log_sql"
  | extra => "extra"

/-- The place of a setting in a document that lists all settings. -/
def index : Setting → Nat
  | debug => 0
  | dialect => 1
  | paramRoot => 2
  | schemaFile => 3
  | logLevel => 4
  | logSql => 5
  | extra => 6

/-- The name of the variable for a setting, if it has one. -/
def variableName? : Setting → Option String
  | debug => some "QUARRY_DEBUG"
  | dialect => some "QUARRY_DIALECT"
  | paramRoot => some "QUARRY_PARAM_ROOT"
  | schemaFile => some "QUARRY_SCHEMA_FILE"
  | logLevel => some "QUARRY_LOG_LEVEL"
  | logSql => some "QUARRY_LOG_SQL"
  | extra => none

end Setting

/-! ## What a variable says -/

/-- A text is a word of small letters, some of which may be capitals. -/
def InAnyCase (word t : String) : Prop :=
  List.Forall₂ (fun small c => c = small ∨ c = small.toUpper) word.toList t.toList

/-- A text is a word for yes. -/
def MeansYes (t : String) : Prop := ∃ word ∈ ["true", "1", "yes"], InAnyCase word t

/-- What the value of its variable says of a setting, if it says anything. The value is `v`, and `t`
is what is left of it without the white space around it. -/
def Setting.Says (v t : String) : (f : Setting) → Option f.Value → Prop
  | .debug, x | .logSql, x => ∃ b, x = some b ∧ (b = true ↔ MeansYes t)
  | .dialect, x => x = some (Text.lowercase t)
  | .paramRoot, x => x = if t = "" then none else some t
  | .schemaFile, x => x = some (if t = "" then none else some t)
  | .logLevel, x => x = some v
  | .extra, x => x = none

/-- What an environment says of a setting, if it says anything: nothing unless its variable is set.
A variable whose value is not a text counts as one that is not set. -/
def Environment.Says (env : Environment) (f : Setting) (x : Option f.Value) : Prop :=
  match f.variableName?.bind env with
  | some v => ∃ t, Text.Trimmed v t ∧ f.Says v t x
  | none => x = none

/-- The one thing that the value of its variable says of a setting. -/
def Setting.said (v : String) : (f : Setting) → Option f.Value
  | .debug | .logSql => some (saysYes v)
  | .dialect => some (Text.lowercase (Text.trim v))
  | .paramRoot => if (Text.trim v).isEmpty then none else some (Text.trim v)
  | .schemaFile => some (if (Text.trim v).isEmpty then none else some (Text.trim v))
  | .logLevel => some v
  | .extra => none

/-- The one thing that an environment says of a setting. -/
def Environment.said (env : Environment) (f : Setting) : Option f.Value :=
  (f.variableName?.bind env).bind f.said

/-- In their order, the small letters stand 32 places behind the capital ones. -/
theorem toNat_toLower (c : Char) :
    c.toLower.toNat = if 65 ≤ c.toNat ∧ c.toNat ≤ 90 then c.toNat + 32 else c.toNat := by
  have hrange : (c.val ≥ 'A'.val ∧ c.val ≤ 'Z'.val) ↔ 65 ≤ c.toNat ∧ c.toNat ≤ 90 := Iff.rfl
  unfold Char.toLower
  simp only [hrange]
  split
  case isTrue h =>
    change (c.val + ('a'.val - 'A'.val)).toNat = c.toNat + 32
    rw [UInt32.toNat_add]
    have hstep : ('a'.val - 'A'.val).toNat = 32 := rfl
    have hnumber : c.val.toNat = c.toNat := rfl
    rw [hstep, hnumber]
    omega
  case isFalse => rfl

/-- So the capital letters stand 32 places in front of the small ones. -/
theorem toNat_toUpper (c : Char) :
    c.toUpper.toNat = if 97 ≤ c.toNat ∧ c.toNat ≤ 122 then c.toNat - 32 else c.toNat := by
  have hrange : ('a'.val ≤ c.val ∧ c.val ≤ 'z'.val) ↔ 97 ≤ c.toNat ∧ c.toNat ≤ 122 := Iff.rfl
  unfold Char.toUpper
  simp only [hrange]
  split
  case isTrue h =>
    change (c.val + ('A'.val - 'a'.val)).toNat = c.toNat - 32
    have hstep : ('A'.val - 'a'.val).toNat = 4294967264 := rfl
    have hnumber : c.val.toNat = c.toNat := rfl
    rw [UInt32.toNat_add, hstep, hnumber]
    omega
  case isFalse => rfl

/-- Lowering a letter gives a small one just if it is that one or its capital. -/
theorem toLower_eq_iff {small c : Char} (h : small.toLower = small) :
    c.toLower = small ↔ c = small ∨ c = small.toUpper := by
  simp only [← Char.toNat_inj, toNat_toLower, toNat_toUpper] at h ⊢
  split at h
  · omega
  · split <;> split <;> omega

/-- Lowering the capitals of a text gives a word of small letters just if the text is that word. -/
theorem map_toLower_eq_iff {small cs : List Char} (h : ∀ c ∈ small, c.toLower = c) :
    cs.map Char.toLower = small ↔
      List.Forall₂ (fun small c => c = small ∨ c = small.toUpper) small cs := by
  induction small generalizing cs with
  | nil => rw [List.map_eq_nil_iff, List.forall₂_nil_left_iff]
  | cons c small ih =>
    cases cs with
    | nil => simp only [List.map_nil, List.nil_eq, reduceCtorEq, List.forall₂_nil_right_iff]
    | cons d cs =>
      obtain ⟨hc, hsmall⟩ := List.forall_mem_cons.mp h
      rw [List.map_cons, List.cons.injEq, List.forall₂_cons, toLower_eq_iff hc, ih hsmall]

/-- A value says yes just if it means yes once the white space around it is gone. -/
theorem saysYes_iff (v : String) : saysYes v = true ↔ MeansYes (Text.trim v) := by
  have hsmall : ∀ word ∈ ["true", "1", "yes"], ∀ c ∈ word.toList, c.toLower = c := by simp
  rw [saysYes, List.contains_iff_mem, MeansYes]
  constructor
  · intro h
    refine ⟨_, h, (map_toLower_eq_iff (hsmall _ h)).mp ?_⟩
    rw [String.toList_ofList]
  · rintro ⟨word, hword, hcase⟩
    rwa [(map_toLower_eq_iff (hsmall word hword)).mpr hcase, String.ofList_toList]

/-- A value says one thing of each setting. -/
theorem Setting.says_trim_iff {v : String} {f : Setting} {x : Option f.Value} :
    f.Says v (Text.trim v) x ↔ x = f.said v := by
  cases f with
  | debug | logSql =>
    rw [Says, said]
    constructor
    · rintro ⟨b, rfl, hb⟩
      rw [Bool.eq_iff_iff.mpr (hb.trans (saysYes_iff v).symm)]
    · rintro rfl
      exact ⟨_, rfl, saysYes_iff v⟩
  | paramRoot | schemaFile => simp only [Says, said, String.isEmpty_iff]
  | dialect | logLevel | extra => rfl

/-- So does an environment. -/
theorem Environment.says_iff {env : Environment} {f : Setting} {x : Option f.Value} :
    env.Says f x ↔ x = env.said f := by
  rw [Says, said]
  cases f.variableName?.bind env with
  | none => rfl
  | some v =>
    simp only [← Text.trim_eq_iff, exists_eq_left', Setting.says_trim_iff, Option.bind_some]

namespace Settings

/-- The value of a setting. -/
def value (s : Settings) : (f : Setting) → f.Value
  | .debug => s.debug
  | .dialect => s.dialect
  | .paramRoot => s.paramRoot
  | .schemaFile => s.schemaFile
  | .logLevel => s.logLevel
  | .logSql => s.logSql
  | .extra => s.extra

variable {s s' : Settings}

/-- Settings with given values. -/
def ofValues (values : (f : Setting) → f.Value) : Settings where
  debug := values .debug
  dialect := values .dialect
  paramRoot := values .paramRoot
  schemaFile := values .schemaFile
  logLevel := values .logLevel
  logSql := values .logSql
  extra := values .extra

/-- Settings made of values have these values. -/
@[simp]
theorem value_ofValues (values : (f : Setting) → f.Value) : (ofValues values).value = values := by
  funext f
  cases f <;> rfl

/-- Settings are told by their values. -/
theorem ext_value (h : ∀ f, s.value f = s'.value f) : s = s' := by
  cases s
  cases s'
  rw [mk.injEq]
  exact ⟨h .debug, h .dialect, h .paramRoot, h .schemaFile, h .logLevel, h .logSql, h .extra⟩

/-- What an environment says of a setting replaces its value, and nothing else does. -/
theorem value_override (env : Environment) (s : Settings) (f : Setting) :
    (s.override env).value f = (env.said f).getD (s.value f) := by
  cases f with
  | debug | dialect | schemaFile | logLevel | logSql =>
    simp only [value, override, Environment.said, Setting.variableName?, Option.bind_some]
    cases env _ <;> rfl
  | paramRoot =>
    simp only [value, override, Environment.said, Setting.variableName?, Option.bind_some]
    cases env "QUARRY_PARAM_ROOT" with
    | none => rfl
    | some v =>
      rw [Option.elim_some, Option.bind_some, Setting.said]
      split <;> rfl
  | extra => rfl

/-- What is replaced is not replaced by anything else the second time. -/
theorem override_override (env : Environment) (s : Settings) :
    (s.override env).override env = s.override env := by
  refine ext_value fun f => ?_
  simp only [value_override]
  cases env.said f <;> rfl

end Settings

/-! ## What a document says -/

/-- The reading of the values of each setting. -/
def SettingsReader.read {α : Type} (reader : SettingsReader α) :
    (f : Setting) → α → Option f.Value
  | .debug | .logSql => reader.flag
  | .dialect | .paramRoot | .logLevel => reader.text
  | .schemaFile => reader.optionalText
  | .extra => reader.entries

/-- What is found for each setting reads as the value it has, and nothing is found for a setting
that has none. -/
def SettingsReader.Reads {α : Type} (reader : SettingsReader α) (find : Setting → Option α)
    (values : (f : Setting) → Option f.Value) : Prop :=
  ∀ f, (find f).map (reader.read f) = (values f).map some

/-- What a document has for a setting. -/
def SettingsFields.field {α : Type} (fields : SettingsFields α) : Setting → Option α
  | .debug => fields.debug
  | .dialect => fields.dialect
  | .paramRoot => fields.paramRoot
  | .schemaFile => fields.schemaFile
  | .logLevel => fields.logLevel
  | .logSql => fields.logSql
  | .extra => fields.extra

/-- A field is read as what stands under its key, or as the standard where nothing does. -/
theorem readField_eq_some_iff {α β : Type} {read : α → Option β} {standard x : β} {a : Option α} :
    readField read standard a = some x ↔
      ∃ y : Option β, a.map read = y.map some ∧ x = y.getD standard := by
  cases a with
  | none =>
    rw [readField, Option.some.injEq]
    constructor
    · rintro rfl
      exact ⟨none, rfl, rfl⟩
    · rintro ⟨y, hy, rfl⟩
      rw [Option.map_eq_none_iff.mp hy.symm, Option.getD_none]
  | some a =>
    rw [readField]
    constructor
    · intro h
      exact ⟨some x, congrArg some h, rfl⟩
    · rintro ⟨y, hy, rfl⟩
      obtain ⟨z, rfl, hz⟩ := Option.map_eq_some_iff.mp hy.symm
      exact hz.symm

/-- The settings of a document are its values, and the standard ones where it has none. -/
theorem SettingsFields.settings?_eq_some_iff {α : Type} {reader : SettingsReader α}
    {fields : SettingsFields α} {s : Settings} :
    fields.settings? reader = some s ↔ ∃ values : (f : Setting) → Option f.Value,
      reader.Reads fields.field values ∧
        ∀ f, s.value f = (values f).getD (Settings.standard.value f) := by
  have hfields : fields.settings? reader = some s ↔ ∀ f,
      readField (reader.read f) (Settings.standard.value f) (fields.field f) =
        some (s.value f) := by
    simp only [settings?, Option.bind_eq_bind, Option.bind_eq_some_iff, Option.some.injEq]
    constructor
    · rintro ⟨debug, hdebug, dialect, hdialect, paramRoot, hparamRoot, schemaFile, hschemaFile,
        logLevel, hlogLevel, logSql, hlogSql, extra, hextra, rfl⟩ f
      cases f <;> assumption
    · intro h
      exact ⟨_, h .debug, _, h .dialect, _, h .paramRoot, _, h .schemaFile, _, h .logLevel, _,
        h .logSql, _, h .extra, rfl⟩
  rw [hfields]
  simp only [readField_eq_some_iff, Classical.skolem, forall_and, SettingsReader.Reads]

/-- Fields that are looked up by name are found under the keys of the settings. -/
theorem SettingsFields.field_named {α : Type} (find : String → Option α) :
    (SettingsFields.named find).field = fun f => find f.key := by
  funext f
  cases f <;> rfl

/-- Fields that are listed stand at the places of the settings. -/
theorem SettingsFields.field_listed {α : Type} (items : List α) :
    SettingsFields.field ⟨items[0]?, items[1]?, items[2]?, items[3]?, items[4]?, items[5]?,
      items[6]?⟩ = fun f => items[f.index]? := by
  funext f
  cases f <;> rfl

/-- The names of the settings are their keys. -/
theorem settingsNames_all_iff {p : String → Bool} :
    settingsNames.all p = true ↔ ∀ f : Setting, p f.key = true := by
  simp only [settingsNames, List.all_cons, List.all_nil, Bool.and_eq_true, and_true]
  constructor
  · rintro ⟨hdebug, hdialect, hparamRoot, hschemaFile, hlogLevel, hlogSql, hextra⟩ f
    cases f <;> assumption
  · intro h
    exact ⟨h .debug, h .dialect, h .paramRoot, h .schemaFile, h .logLevel, h .logSql, h .extra⟩

/-- What is found for each setting in a JSON document: what an object has under its key, which may
stand there only once, or what an array has at its place, which may stop early. -/
inductive Json.Finds : Json → (Setting → Option Json) → Prop
  | object {members : List (String × Json)}
      (honce : ∀ f : Setting, (members.filter (·.1 == f.key)).length ≤ 1) :
      Finds (.object members) fun f => members.lookup f.key
  | array {items : List Json} (hlength : items.length ≤ 7) :
      Finds (.array items) fun f => items[f.index]?

/-- What a document finds is told by its fields. -/
theorem Json.finds_iff {document : Json} {find : Setting → Option Json} :
    document.Finds find ↔
      ∃ fields, SettingsFields.ofJson? document = some fields ∧ fields.field = find := by
  constructor
  · rintro (@⟨members, honce⟩ | @⟨items, hlength⟩)
    · have hnames : settingsNames.all (fun name => (members.filter (·.1 == name)).length ≤ 1) :=
        settingsNames_all_iff.mpr fun f => decide_eq_true (honce f)
      exact ⟨_, if_pos hnames, SettingsFields.field_named _⟩
    · exact ⟨_, if_pos hlength, SettingsFields.field_listed items⟩
  · rintro ⟨fields, h, rfl⟩
    cases document with
    | object members =>
      obtain ⟨hnames, h⟩ := Option.ite_none_right_eq_some.mp h
      obtain rfl := Option.some.inj h
      rw [SettingsFields.field_named]
      exact .object fun f => of_decide_eq_true (settingsNames_all_iff.mp hnames f)
    | array items =>
      obtain ⟨hlength, h⟩ := Option.ite_none_right_eq_some.mp h
      obtain rfl := Option.some.inj h
      rw [SettingsFields.field_listed]
      exact .array hlength
    | null | bool | integer | float | string => cases h

namespace Settings

/-- The values of settings that a text spells in a syntax. -/
inductive Spells (text : String) (values : (f : Setting) → Option f.Value) : Format → Prop
  | toml {entries : List (String × Toml)} (htext : Toml.parse? text = some entries)
      (hread : tomlSettings.Reads (fun f => entries.lookup f.key) values) : Spells text values .toml
  | json {document : Json} {find : Setting → Option Json}
      (htext : Json.parse? text = some document) (hfind : document.Finds find)
      (hread : jsonSettings.Reads find values) : Spells text values .json

/-- A text is read as the values that it spells, and the standard ones where it has none. -/
theorem read_eq_ok_iff {format : Format} {text : String} :
    read format text = .ok s ↔ ∃ values : (f : Setting) → Option f.Value,
      Spells text values format ∧ ∀ f, s.value f = (values f).getD (standard.value f) := by
  have hparse : read format text = .ok s ↔ parse? format text = some s := by
    rw [read]
    cases parse? format text <;> simp only [reduceCtorEq, Except.ok.injEq, Option.some.injEq]
  rw [hparse]
  cases format with
  | toml =>
    simp only [parse?, Option.bind_eq_bind, Option.bind_eq_some_iff,
      SettingsFields.settings?_eq_some_iff, SettingsFields.field_named]
    constructor
    · rintro ⟨entries, htext, values, hread, hs⟩
      exact ⟨values, .toml htext hread, hs⟩
    · rintro ⟨values, @⟨entries, htext, hread⟩, hs⟩
      exact ⟨entries, htext, values, hread, hs⟩
  | json =>
    simp only [parse?, Option.bind_eq_bind, Option.bind_eq_some_iff,
      SettingsFields.settings?_eq_some_iff]
    constructor
    · rintro ⟨document, htext, fields, hfields, values, hread, hs⟩
      exact ⟨values, .json htext (Json.finds_iff.mpr ⟨fields, hfields, rfl⟩) hread, hs⟩
    · rintro ⟨values, hspells, hs⟩
      cases hspells with
      | json htext hfind hread =>
      obtain ⟨fields, hfields, rfl⟩ := Json.finds_iff.mp hfind
      exact ⟨_, htext, fields, hfields, values, hread, hs⟩

/-- Settings are loaded from a file that exists and is read. -/
theorem load_eq_ok_iff {files : String → Option String} {path : String} :
    load files path = .ok s ↔
      ∃ text, files path = some text ∧ read (.ofPath path) text = .ok s := by
  rw [load]
  cases files path with
  | none => simp only [reduceCtorEq, false_and, exists_false]
  | some text => simp only [Option.some.injEq, exists_eq_left']

/-- Overridden settings have what the environment says, and otherwise what they had before. -/
theorem map_override_eq_ok_iff {env : Environment} {result : Except Error Settings} :
    result.map (·.override env) = .ok s ↔
      ∃ base, result = .ok base ∧ ∀ f, s.value f = (env.said f).getD (base.value f) := by
  cases result with
  | error e => simp only [Except.map, reduceCtorEq, false_and, exists_false]
  | ok base =>
    simp only [Except.map, Except.ok.injEq, exists_eq_left', ← value_override]
    exact ⟨fun h f => h ▸ rfl, fun h => (ext_value h).symm⟩

/-- The environment replaces a setting by what its own variable says of it, which is one thing, and
leaves it alone if that says nothing. The further entries are never replaced, and replacing twice is
replacing once. Settings that are read from a file with the environment are those of the file,
replaced in this way: each has its value from the environment, or else from the file, or else from
the standard settings. -/
theorem layers_decide (env : Environment) :
    (∀ f, ∃ x, (∀ y, env.Says f y ↔ y = x) ∧
      ∀ s : Settings, (s.override env).value f = x.getD (s.value f)) ∧
    (∀ s : Settings, (s.override env).extra = s.extra) ∧
    (∀ s : Settings, (s.override env).override env = s.override env) ∧
    ∀ files path,
      loadWithEnvironment files env path = (load files path).map (·.override env) ∧
      ∀ s, loadWithEnvironment files env path = .ok s ↔
        ∃ (text : String) (fromFile fromEnvironment : (f : Setting) → Option f.Value),
          files path = some text ∧ Spells text fromFile (.ofPath path) ∧
          ∀ f, env.Says f (fromEnvironment f) ∧
            s.value f = ((fromEnvironment f).or (fromFile f)).getD (standard.value f) := by
  refine ⟨fun f => ⟨env.said f, fun _ => Environment.says_iff, (value_override env · f)⟩,
    fun _ => rfl, override_override env, fun files path => ?_⟩
  have hload : loadWithEnvironment files env path = (load files path).map (·.override env) := by
    rw [loadWithEnvironment]
    cases load files path <;> rfl
  refine ⟨hload, fun s => ?_⟩
  -- Whatever the environment leaves open, the file says, and otherwise the standard.
  rw [hload, map_override_eq_ok_iff]
  constructor
  · rintro ⟨base, hbase, hs⟩
    obtain ⟨text, htext, hread⟩ := load_eq_ok_iff.mp hbase
    obtain ⟨values, hspells, hvalues⟩ := read_eq_ok_iff.mp hread
    refine ⟨text, values, env.said, htext, hspells, fun f => ⟨Environment.says_iff.mpr rfl, ?_⟩⟩
    rw [hs, hvalues, Option.getD_or]
  · rintro ⟨text, fromFile, fromEnvironment, htext, hspells, hlayers⟩
    let base := ofValues fun f => (fromFile f).getD (standard.value f)
    have hread : read (.ofPath path) text = .ok base :=
      read_eq_ok_iff.mpr ⟨fromFile, hspells, fun f => by rw [value_ofValues]⟩
    refine ⟨base, load_eq_ok_iff.mpr ⟨text, htext, hread⟩, fun f => ?_⟩
    obtain ⟨hsaid, hs⟩ := hlayers f
    rw [hs, Environment.says_iff.mp hsaid, value_ofValues, Option.getD_or]

example :
    let env : Environment := fun name =>
      if name = "QUARRY_DIALECT" then some " PostgreSQL " else none
    (standard.override env).dialect = "postgresql" := by decide +kernel

end Settings

end DynamicSql
