import DynamicSql.Calendar.Printer
import DynamicSql.Calendar.Reader
import DynamicSql.Json.Parser
import DynamicSql.Value.Basic

/-!
# Values as JSON documents

A value is written as an object that names its kind under `type` and holds its content under
`value`; the null value has no content. Reading takes the members in any order, skips others, and
also accepts a pair of kind and content. Kinds are not converted into each other, except that an
integer stands for a double as well.
-/

namespace DynamicSql.Value

open Calendar

/-- The object of a kind and a content. -/
def tagged (kind : String) (content : Json) : Json :=
  .object [("type", .string kind), ("value", content)]

mutual

/-- The document of a value. Doubles that are not finite have the content `null`. -/
def toJson : Value → Json
  | .null => .object [("type", .string "Null")]
  | .bool b => tagged "Bool" (.bool b)
  | .int n => tagged "Int" (.integer n.toInt)
  | .float x => tagged "Float" (if x.isFinite then .float x else .null)
  | .string s => tagged "String" (.string s)
  | .bytes bs => tagged "Bytes" (.array (bs.map fun b => .integer b.toNat))
  | .date d => tagged "Date" (.string d.text)
  | .dateTime t => tagged "DateTime" (.string t.text)
  | .instant t => tagged "DateTimeTz" (.string t.zuluText)
  | .time t => tagged "Time" (.string t.text)
  | .uuid u => tagged "Uuid" (.string u.text)
  | .json j => tagged "Json" j
  | .list items => tagged "List" (.array (itemsToJson items))

/-- The documents of a list of values. -/
def itemsToJson : List Value → List Json
  | [] => []
  | v :: rest => toJson v :: itemsToJson rest

end

/-- The byte that a document is. -/
def byte? : Json → Option UInt8
  | .integer n => if 0 ≤ n ∧ n < 256 then some (UInt8.ofNat n.toNat) else none
  | _ => none

/-- The value of a kind other than lists with a content. -/
def ofScalar? (kind : String) (content : Json) : Option Value :=
  match kind, content with
  | "Null", .null => some .null
  | "Bool", .bool b => some (.bool b)
  | "Int", .integer n => ofInt? n
  | "Float", j => (j.asBinary64?.filter (·.isFinite)).map .float
  | "String", .string s => some (.string s)
  | "Bytes", .array items => (items.mapM byte?).map .bytes
  | "Date", .string s => (Date.read? s).map .date
  | "DateTime", .string s => (Timestamp.read? s).map .dateTime
  | "DateTimeTz", .string s => (Timestamp.readZoned? s).map .instant
  | "Time", .string s => (Clock.read? s).map .time
  | "Uuid", .string s => (Uuid.read? s).map .uuid
  | "Json", j => j.canonical?.map .json
  | _, _ => none

/-- The name of a kind: a text, or an object whose one member has that key and no content. -/
def kindName? : Json → Option String
  | .string s => some s
  | .object [(name, .null)] => some name
  | _ => none

/-- The kind that an object names, if it names exactly one and has at most one content. -/
def kindOf? (members : List (String × Json)) : Option String :=
  let kinds := members.filter (·.1 == "type")
  let contents := members.filter (·.1 == "value")
  match kinds with
  | [(_, kind)] => if contents.length ≤ 1 then kindName? kind else none
  | _ => none

mutual

/-- The value that a document stands for. -/
def ofJson? : Json → Option Value
  | .object members => (kindOf? members).bind fun kind => ofMembers? kind members
  | .array [kind, content] => (kindName? kind).bind fun kind => ofContent? kind content
  | _ => none

/-- The value of a kind whose content is found among the members of an object. -/
def ofMembers? (kind : String) : List (String × Json) → Option Value
  | [] => if kind = "Null" then some .null else none
  | (key, content) :: rest =>
    if key = "value" then ofContent? kind content else ofMembers? kind rest

/-- The value of a kind with a content. -/
def ofContent? (kind : String) : Json → Option Value
  | .array items =>
    if kind = "List" then (ofItems? items).map .list else ofScalar? kind (.array items)
  | content => ofScalar? kind content

/-- The values that a list of documents stands for. -/
def ofItems? : List Json → Option (List Value)
  | [] => some []
  | j :: rest => do
    let first ← ofJson? j
    let others ← ofItems? rest
    some (first :: others)

end

/-- The value that a text spells as a document. -/
def read? (s : String) : Option Value :=
  (Json.parse? s).bind ofJson?

end DynamicSql.Value
