import DynamicSql.Value.Text

/-!
# Errors

What can go wrong, each cause with the names that its message shows. A cause belongs to a kind, and
the kinds of the first group arise while a statement is built, before anything is sent to a
database.
-/

namespace DynamicSql

/-- The kinds of errors. -/
inductive ErrorKind where
  | invalidProvider
  | unknownField
  | emptyProjection
  | invalidSubquery
  | invalidMembership
  | unknownTable
  | invalidPage
  | configuration
  | execution
  | serialization
  | inputOutput
deriving DecidableEq

namespace ErrorKind

/-- What stands in front of the messages of a kind. -/
def heading : ErrorKind → String
  | invalidProvider => "Invalid provider: "
  | unknownField => "Unknown field: "
  | emptyProjection => "Empty projection: "
  | invalidSubquery => "Invalid subquery: "
  | invalidMembership => "Invalid IN value: "
  | unknownTable => "Unknown table: "
  | invalidPage => "Invalid page: "
  | configuration => "Configuration error: "
  | execution => "Execution error: "
  | serialization => "Serialization error: "
  | inputOutput => "IO error: "

/-- Whether errors of a kind arise while a statement is built. -/
def isBuildError : ErrorKind → Bool
  | invalidProvider | unknownField | emptyProjection | invalidSubquery | invalidMembership
  | unknownTable | invalidPage => true
  | configuration | execution | serialization | inputOutput => false

end ErrorKind

/-- The syntax of a settings document. -/
inductive Format where
  | toml
  | json
deriving DecidableEq

/-- The name of a syntax. -/
def Format.name : Format → String
  | toml => "TOML"
  | json => "JSON"

/-- The kinds of values that are asked for when a row is read. -/
inductive Expected where
  | int
  | float
  | bool
  | string
  | uuid
deriving DecidableEq

/-- The name of a kind of values. -/
def Expected.name : Expected → String
  | int => "Int"
  | float => "Float"
  | bool => "Bool"
  | string => "String"
  | uuid => "Uuid"

/-- The causes of errors. -/
inductive Error where
  /-- Two tables of one statement carry the same token. -/
  | sharedToken (previous table token : String)
  | joinWithoutTable (index : Nat) (parent : String)
  | joinWithoutKeys (table : String)
  | nullPattern (field : String)
  | insertWithoutRows (table : String)
  | insertWithoutValues (table : String)
  /-- A row names other fields than the first one. -/
  | unevenRow (row : Nat) (table : String)
  | nothingToSet (table : String)
  | unconditionalUpdate (table : String)
  | emptyUpdateConditions (table : String)
  | joinedUpdate (table : String)
  | emptyBatch (table : String)
  | unconditionalDelete (table : String)
  | emptyDeleteConditions (table : String)
  /-- The dialect can neither order nor limit a writing statement. -/
  | boundedWrite (statement table : String)
  | unknownField (field table : String)
  /-- A field reference carries a token that no table of the statement has. -/
  | unknownReference (name token : String)
  | unwritableField (field table : String)
  | noColumns (table : String)
  | noBranchColumns (branch : Nat) (table : String)
  /-- `test` is the text of the membership test. -/
  | subqueryWithoutTable (field test : String)
  /-- Null has no members. -/
  | nullMembers
  | nullMembership (field test : String)
  | emptyMembership (field test : String)
  | unknownTable (name : String)
  | invalidPage (number size : UInt64)
  | unsupportedDialect (name : String)
  | malformedSchema
  | unreadableSchema (path : String)
  | noSchemaFile
  | malformedSettings (format : Format)
  | unreadableSettings (path : String)
  | missingColumn (column : String)
  | columnOutOfBounds (index size : Nat)
  | wrongKind (expected : Expected) (got : Value)
  /-- A negative integer is asked for as an unsigned one. -/
  | negativeInteger
  /-- The database reported a failure. -/
  | failed (report : String)

namespace Error

open ErrorKind in
/-- The kind that a cause belongs to. -/
def kind : Error → ErrorKind
  | sharedToken .. | joinWithoutTable .. | joinWithoutKeys .. | nullPattern ..
  | insertWithoutRows .. | insertWithoutValues .. | unevenRow .. | nothingToSet ..
  | unconditionalUpdate .. | emptyUpdateConditions .. | joinedUpdate .. | emptyBatch ..
  | unconditionalDelete .. | emptyDeleteConditions .. | boundedWrite .. => invalidProvider
  | unknownField .. | unknownReference .. | unwritableField .. => ErrorKind.unknownField
  | noColumns .. | noBranchColumns .. => emptyProjection
  | subqueryWithoutTable .. => invalidSubquery
  | nullMembers | nullMembership .. | emptyMembership .. => invalidMembership
  | unknownTable .. => ErrorKind.unknownTable
  | invalidPage .. => ErrorKind.invalidPage
  | unsupportedDialect .. | malformedSchema | unreadableSchema .. | noSchemaFile
  | malformedSettings .. | unreadableSettings .. => configuration
  | missingColumn .. | columnOutOfBounds .. | wrongKind .. | negativeInteger | failed .. =>
    execution

/-- A name between quotation marks. -/
def quoted (name : String) : String := "'" ++ name ++ "'"

/-- What a system says of a file that is not there. -/
def noSuchFile : String := "No such file or directory (os error 2)"

/-- The message of a cause, without the heading of its kind. A malformed document is reported
without a description of the defect. -/
def detail : Error → String
  | sharedToken previous table token =>
    s!"providers for {quoted previous} and {quoted table} share alias token {token}; " ++
      "call reissue_token() on a reused provider"
  | joinWithoutTable index parent => s!"join #{index} from {quoted parent} has no table"
  | joinWithoutKeys table => s!"join to {quoted table} has no key pairs"
  | nullPattern field => s!"like on {quoted field} requires a non-null value"
  | insertWithoutRows table => s!"insert into {quoted table} has no rows"
  | insertWithoutValues table => s!"insert into {quoted table} has no values"
  | unevenRow row table =>
    s!"insert row #{row} into {quoted table} does not list the fields of row #0"
  | nothingToSet table => s!"update on {quoted table} has no fields to set"
  | unconditionalUpdate table => s!"update on {quoted table} requires at least one condition"
  | emptyUpdateConditions table => s!"update on {quoted table} has only empty condition groups"
  | joinedUpdate table => s!"update on {quoted table} cannot carry joins under postgresql"
  | emptyBatch table => s!"batch update on {quoted table} has no statements"
  | unconditionalDelete table => s!"delete from {quoted table} requires at least one condition"
  | emptyDeleteConditions table => s!"delete from {quoted table} has only empty condition groups"
  | boundedWrite statement table =>
    s!"{statement} on {quoted table} cannot be ordered or limited under postgresql"
  | unknownField field table => s!"{quoted field} is not a field of table {quoted table}"
  | unknownReference name token =>
    s!"{quoted name} refers to table token {token}, which is not part of this statement"
  | unwritableField field table =>
    s!"cannot write {quoted field}: not a field of table {quoted table}"
  | noColumns table => s!"no columns selected from {quoted table}"
  | noBranchColumns branch table =>
    s!"union branch #{branch} selects no columns from {quoted table}"
  | subqueryWithoutTable field test => s!"subquery for {quoted field} {test} has no table"
  | nullMembers => "IN operand must not be null"
  | nullMembership field test =>
    s!"{quoted field} {test}: Invalid IN value: IN operand must not be null"
  | emptyMembership field test => s!"{quoted field} {test} requires at least one value"
  | unknownTable name => name
  | invalidPage number size =>
    s!"page_number={number}, page_size={size}; both must be at least 1"
  | unsupportedDialect name => s!"Unsupported SQL dialect {quoted name}"
  | malformedSchema => "Failed to parse schema TOML: "
  | unreadableSchema path => s!"Failed to read schema file {quoted path}: {noSuchFile}"
  | noSchemaFile => "no schema_file configured"
  | malformedSettings format => s!"invalid {format.name} settings: "
  | unreadableSettings path => s!"cannot read settings file {quoted path}: {noSuchFile}"
  | missingColumn column => s!"Column {quoted column} not found in row"
  | columnOutOfBounds index size =>
    s!"Column index {index} out of bounds (row has {size} columns)"
  | wrongKind expected got => s!"Expected {expected.name}, got {got.inspect}"
  | negativeInteger => "Int value out of u64 range: number too small to fit in target type"
  | failed report => report

/-- The full message of a cause. -/
def message (e : Error) : String := e.kind.heading ++ e.detail

end Error

end DynamicSql
