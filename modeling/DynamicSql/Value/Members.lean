import DynamicSql.Text.Split
import DynamicSql.Value.Basic

/-!
# The values that stand for a set

The operand of a membership test is one value, which is expanded to the values that are tested
for: the items of a list, of a JSON array or of a JSON object, the pieces of a text between its
commas, and otherwise the value alone. Null has no members.
-/

namespace DynamicSql.Value

/-- The value of a JSON document, where it is not an array or an object. An integer beyond signed
64-bit words is rounded to a double. -/
def ofJsonScalar : Json → Value
  | .null => .null
  | .bool b => .bool b
  | .string s => .string s
  | .integer n => (ofInt? n).getD (.float (.ofInt n))
  | .float x => .float x
  | j => .json j

/-- The values that the operand of a membership test stands for, unless it is null. -/
def members? : Value → Option (List Value)
  | .null => none
  | .list items => some items
  | .json (.array items) => some (items.map ofJsonScalar)
  | .json (.object entries) => some (entries.map fun entry => ofJsonScalar entry.2)
  | .string s =>
    if s.toList.contains ',' then some ((Text.pieces ',' s).map .string) else some [.string s]
  | v => some [v]

end DynamicSql.Value
