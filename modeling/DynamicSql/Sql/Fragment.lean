import DynamicSql.Dialect
import DynamicSql.Sql.Aliases
import DynamicSql.Sql.Path

/-!
# Pieces of statements

While a statement is put together, aliases are still tokens, and every marker carries the place of
the value that it stands for. The text of the statement is read off at the end.
-/

namespace DynamicSql

/-- A piece of a statement. -/
inductive Piece where
  | text (s : String)
  /-- A table that the statement brings in, with the alias of its token behind it. -/
  | table (name : String) (token : Token)
  /-- A column behind the alias of the table with a token. -/
  | column (token : Token) (name : String)
  /-- The marker of the value that is bound at a place. -/
  | marker (slot : Slot)

namespace Piece

/-- The place of the value that a piece is the marker of. -/
def slot? : Piece → Option Slot
  | .marker slot => some slot
  | _ => none

/-- The token of the table that a piece brings in. -/
def table? : Piece → Option Token
  | .table _ token => some token
  | _ => none

end Piece

/-- A part of a statement. -/
abbrev Fragment := List Piece

namespace Fragment

/-- A fragment of fixed text. -/
def ofText (s : String) : Fragment := [.text s]

/-- The characters of a piece, where aliases are given by a function. -/
def pieceChars (root : String) (aliasOf : Token → String) : Piece → List Char
  | .text s => s.toList
  | .table name token => name.toList ++ ' ' :: (aliasOf token).toList
  | .column token name => (aliasOf token).toList ++ '.' :: name.toList
  | .marker slot => (slot.marker root).toList

/-- The characters of a fragment, where aliases are given by a function. -/
def chars (root : String) (aliasOf : Token → String) (f : Fragment) : List Char :=
  f.flatMap (pieceChars root aliasOf)

/-- The text of a fragment. -/
def render (root : String) (aliases : Aliases) (f : Fragment) : String :=
  String.ofList (f.chars root aliases.text)

/-- The characters of a fragment while the numbers of the aliases are still open. Aliases hold
neither quotation marks nor parentheses nor spaces, so a `t` stands for each of them. -/
def outline (root : String) (f : Fragment) : List Char :=
  f.chars root fun _ => "t"

/-- The places of the markers, from left to right. -/
def slots (f : Fragment) : List Slot :=
  f.filterMap Piece.slot?

/-- The tokens of the tables that a fragment brings in, from left to right. -/
def tables (f : Fragment) : List Token :=
  f.filterMap Piece.table?

/-- The fragments one after the other, with a text between neighbours. -/
def join (separator : String) (fs : List Fragment) : Fragment :=
  [Piece.text separator].intercalate fs

/-- Put text around a fragment. -/
def wrap (w : Wrap) (f : Fragment) : Fragment :=
  .text w.before :: f ++ [.text w.after]

/-- Put parentheses around a fragment. -/
def parens (f : Fragment) : Fragment := f.wrap ⟨"(", ")"⟩

/-- Drop the white space at the front of a fragment. -/
def trimStart : Fragment → Fragment
  | .text s :: rest =>
    let trimmed := Text.trimStart s
    if trimmed.isEmpty then trimStart rest else .text trimmed :: rest
  | f => f

/-- The name of a column behind the alias of its table, if it has one. -/
def qualified (token? : Option Token) (column : String) : Fragment :=
  match token? with
  | some token => [.column token column]
  | none => [.text column]

end Fragment

end DynamicSql
