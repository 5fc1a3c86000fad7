/-!
# Cutting text

A text is cut at every occurrence of a character. There is one piece more than there are cuts, and
pieces can be empty.
-/

namespace DynamicSql.Text

/-- The pieces of a list of characters between the occurrences of a separator. -/
def split (separator : Char) : List Char → List (List Char)
  | [] => [[]]
  | c :: rest =>
    match split separator rest with
    | [] => [[c]]
    | piece :: pieces => if c = separator then [] :: piece :: pieces else (c :: piece) :: pieces

/-- The pieces of a text between the occurrences of a separator. -/
def pieces (separator : Char) (s : String) : List String :=
  (split separator s.toList).map String.ofList

end DynamicSql.Text
