import DynamicSql.Error
import DynamicSql.Text.Blank
import DynamicSql.Text.Lowercase

/-!
# Dialects

The places where databases differ: defaults for null, formatted dates, page windows, and what a
writing statement may carry.
-/

namespace DynamicSql

/-- The dialect of a database. -/
inductive Dialect where
  | mySql
  | postgreSql
deriving DecidableEq, Inhabited

/-- Text that is put around an operand. -/
structure Wrap where
  before : String
  after : String
deriving DecidableEq

/-- Put the text around an operand. -/
def Wrap.text (w : Wrap) (operand : String) : String :=
  w.before ++ operand ++ w.after

/-- A text with its quotation marks doubled. -/
def doubleQuotes (s : String) : String :=
  String.ofList (s.toList.flatMap fun c => if c = '\'' then ['\'', '\''] else [c])

/-- The number of rows before a page. Pages are counted from one, and the number is cut off at the
largest 64-bit word. -/
def pageOffset (number size : UInt64) : Except Error UInt64 :=
  if number < 1 ∨ size < 1 then .error (.invalidPage number size)
  else .ok (UInt64.ofNat (min ((number.toNat - 1) * size.toNat) (UInt64.size - 1)))

namespace Dialect

/-- The name of a dialect. -/
def name : Dialect → String
  | mySql => "mysql"
  | postgreSql => "postgresql"

/-- Read the name of a dialect, in any case and with white space around it. -/
def read (s : String) : Except Error Dialect :=
  match Text.lowercase (Text.trim s) with
  | "mysql" | "mariadb" => .ok mySql
  | "postgresql" | "postgres" | "pg" => .ok postgreSql
  | other => .error (.unsupportedDialect other)

/-- What makes an operand count as zero where it is null. -/
def nullDefault : Dialect → Wrap
  | mySql => ⟨"ifnull(", ", 0)"⟩
  | postgreSql => ⟨"coalesce(", ", 0)"⟩

/-- What formats a date by a pattern, which becomes a literal. -/
def dateFormat (d : Dialect) (pattern : String) : Wrap :=
  let after := ",'" ++ doubleQuotes pattern ++ "')"
  match d with
  | mySql => ⟨"DATE_FORMAT(", after⟩
  | postgreSql => ⟨"to_char(", after⟩

/-- A query with the window of a page behind it. -/
def pageClause (d : Dialect) (sql : String) (number size : UInt64) : Except Error String := do
  let offset ← pageOffset number size
  .ok <| match d with
    | mySql => sql ++ s!" LIMIT {offset},{size}"
    | postgreSql => sql ++ s!" LIMIT {size} OFFSET {offset}"

/-- Whether a limit restricts anything. -/
def isLimited (limit : Option UInt64) : Bool :=
  match limit with
  | some n => n != 0
  | none => false

/-- The limit behind a query. Zero stands for no limit. -/
def limitClause (limit : Option UInt64) : String :=
  match limit with
  | some n => if n = 0 then "" else s!" LIMIT {n}"
  | none => ""

/-- Refuse joins in an update where the dialect has no form for them. -/
def checkJoinedUpdate (d : Dialect) (table : String) : Except Error Unit :=
  match d with
  | mySql => .ok ()
  | postgreSql => .error (.joinedUpdate table)

/-- Refuse an ordering or a limit in a writing statement where the dialect has no form for them. -/
def checkBounds (d : Dialect) (statement table : String) (ordered : Bool)
    (limit : Option UInt64) : Except Error Unit :=
  match d with
  | mySql => .ok ()
  | postgreSql =>
    if ordered || isLimited limit then .error (.boundedWrite statement table) else .ok ()

end Dialect

end DynamicSql
