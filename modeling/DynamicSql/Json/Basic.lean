import DynamicSql.Decimal.Binary64
import DynamicSql.KeyMap

/-!
# JSON documents

A document as it was written keeps the order and the repetitions of its members, and a number too
large for a double as an infinity. The canonical form sorts the members by key, keeps the last of
those with one key, and exists only where every number is finite.
-/

namespace DynamicSql

/-- A JSON document. Integers lie in the range of 64-bit words, signed or unsigned. -/
inductive Json where
  | null
  | bool (b : Bool)
  | integer (n : Int)
  | float (x : Decimal.Binary64)
  | string (s : String)
  | array (items : List Json)
  | object (members : List (String × Json))

namespace Json

mutual

/-- The canonical form of a document. -/
def canonical? : Json → Option Json
  | .float x => if x.isFinite then some (.float x) else none
  | .array items => (canonicalItems? items).map .array
  | .object members => (canonicalMembers? members).map fun ms => .object (KeyMap.ofList ms)
  | j => some j

/-- The canonical forms of the items of an array. -/
def canonicalItems? : List Json → Option (List Json)
  | [] => some []
  | j :: rest => do
    let first ← canonical? j
    let others ← canonicalItems? rest
    some (first :: others)

/-- The members of an object with canonical values, in their written order. -/
def canonicalMembers? : List (String × Json) → Option (List (String × Json))
  | [] => some []
  | (key, j) :: rest => do
    let first ← canonical? j
    let others ← canonicalMembers? rest
    some ((key, first) :: others)

end

/-- A number as a double, where the document is a number. -/
def asBinary64? : Json → Option Decimal.Binary64
  | .integer n => some (.ofInt n)
  | .float x => some x
  | _ => none

end Json

end DynamicSql
