import DynamicSql.Calendar.Printer
import DynamicSql.Decimal.Layout
import DynamicSql.Json.Printer
import DynamicSql.Value.Basic

/-!
# Texts of values

The plain text of a value is what a search pattern is made of. The inspected text names the kind of
the value as well, and is shown where a value has the wrong kind.
-/

namespace DynamicSql.Value

open Calendar Decimal

mutual

/-- The plain text of a value. -/
def text : Value → String
  | .null => "NULL"
  | .bool b => if b then "true" else "false"
  | .int n => toString n.toInt
  | .float x => Layout.plain.render x
  | .string s => s
  | .bytes bs => "<" ++ toString bs.length ++ " bytes>"
  | .date d => d.text
  | .dateTime t => String.ofList (t.chars ' ')
  | .instant t => String.ofList (t.chars ' ') ++ " UTC"
  | .time t => t.text
  | .uuid u => u.text
  | .json j => j.render
  | .list items => "[" ++ itemsText items ++ "]"

/-- Plain texts with commas between them. -/
def itemsText : List Value → String
  | [] => ""
  | [v] => text v
  | v :: rest => text v ++ ", " ++ itemsText rest

end

mutual

/-- The inspected text of a value. -/
def inspect : Value → String
  | .null => "Null"
  | .bool b => if b then "Bool(true)" else "Bool(false)"
  | .int n => "Int(" ++ toString n.toInt ++ ")"
  | .float x => "Float(" ++ Layout.inspected.render x ++ ")"
  | .string s => "String(" ++ Text.inspect s ++ ")"
  | .bytes bs => "Bytes([" ++ ", ".intercalate (bs.map fun b => toString b.toNat) ++ "])"
  | .date d => "Date(" ++ d.text ++ ")"
  | .dateTime t => "DateTime(" ++ t.text ++ ")"
  | .instant t => "DateTimeTz(" ++ t.zuluText ++ ")"
  | .time t => "Time(" ++ t.text ++ ")"
  | .uuid u => "Uuid(" ++ u.text ++ ")"
  | .json j => "Json(" ++ j.inspect ++ ")"
  | .list items => "List([" ++ inspectItems items ++ "])"

/-- Inspected texts with commas between them. -/
def inspectItems : List Value → String
  | [] => ""
  | [v] => inspect v
  | v :: rest => inspect v ++ ", " ++ inspectItems rest

end

end DynamicSql.Value
