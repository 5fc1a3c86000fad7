/-!
# White space

The characters with Unicode's White_Space property, and trimming of text by them. The set is
wider than `Char.isWhitespace`: it holds the no-break and ideographic spaces, among others.
-/

namespace DynamicSql.Text

/-- Whether a character has Unicode's White_Space property. -/
def isBlank (c : Char) : Bool :=
  let n := c.toNat
  (0x9 ≤ n && n ≤ 0xD) || n == 0x20 || n == 0x85 || n == 0xA0 || n == 0x1680 ||
    (0x2000 ≤ n && n ≤ 0x200A) || n == 0x2028 || n == 0x2029 || n == 0x202F ||
    n == 0x205F || n == 0x3000

/-- Drop the white space at the front of a list of characters. -/
def skipBlanks (cs : List Char) : List Char :=
  cs.dropWhile isBlank

/-- Drop the white space at the front of a text. -/
def trimStart (s : String) : String :=
  String.ofList (skipBlanks s.toList)

/-- Drop the white space at both ends of a text. -/
def trim (s : String) : String :=
  String.ofList (skipBlanks (skipBlanks s.toList).reverse).reverse

end DynamicSql.Text
