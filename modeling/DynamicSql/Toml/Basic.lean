import DynamicSql.Decimal.Binary64

/-!
# TOML values

The values of a TOML document. Dates and times are kept as their normalised texts.
-/

namespace DynamicSql

/-- A TOML value. Integers lie in the range of signed 64-bit words. -/
inductive Toml where
  | string (s : String)
  | integer (n : Int)
  | float (x : Decimal.Binary64)
  | boolean (b : Bool)
  /-- A date, a time of day or both, by its text. -/
  | moment (text : String)
  | array (items : List Toml)
  | table (entries : List (String × Toml))

end DynamicSql
