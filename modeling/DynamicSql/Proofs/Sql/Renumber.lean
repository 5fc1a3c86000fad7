import DynamicSql.Proofs.Sql.Keys
import DynamicSql.Proofs.Sql.Mapping

/-!
# Statements under another number

Every key of a statement begins with what its value is for and the number of the statement. Under
another number, the markers of a fragment spell that number, and all else stays
(`Slot.key_renumber`). So pieces change in the digits of numbers only (`PieceMap.renumber`), and
fragments are put together in the same way under every number.
-/

namespace DynamicSql

/-- A place in the statement with another number. -/
def Slot.renumber (n : Nat) (s : Slot) : Slot := { s with path := ⟨n, s.path.segments⟩ }

/-- A piece of the statement with another number. -/
def Piece.renumber (n : Nat) : Piece → Piece
  | .marker slot => .marker (slot.renumber n)
  | piece => piece

/-- A fragment of the statement with another number. -/
def Fragment.renumber (n : Nat) (f : Fragment) : Fragment := f.map (Piece.renumber n)

/-- A key with another number of the statement: the first digits of the key are replaced. -/
def renumberKey (n : Nat) (key : String) : String :=
  String.ofList (key.toList.takeWhile (!·.isDigit) ++ (toString n).toList ++
    (key.toList.dropWhile (!·.isDigit)).dropWhile (·.isDigit))

/-- A number is spelled by digits. -/
theorem isDigit_of_mem_toString {n : Nat} {c : Char} (h : c ∈ (toString n).toList) :
    c.isDigit := by
  rw [Nat.toString_eq_repr, Nat.toList_repr] at h
  exact Nat.isDigit_of_mem_toDigits (by decide) (by decide) h

/-- A number has a digit at least. -/
theorem toString_ne_nil (n : Nat) : (toString n).toList ≠ [] := by
  rw [Nat.toString_eq_repr, Nat.toList_repr]
  exact Nat.toDigits_ne_nil

namespace Slot

/-- What a key spells behind the number of the statement. -/
def rest (s : Slot) : List Char :=
  spelling (s.path.segments ++ .ofNumber s.index :: s.item?.toList.map .ofNumber)

/-- A key is a stem, the number of the statement and a rest. -/
theorem key_eq (s : Slot) :
    s.key.toList = s.purpose.stem.toList ++ ((toString s.path.root).toList ++ s.rest) := by
  rw [key_toList, way, Path.way, List.cons_append, spelling_ofNumber_cons, rest, List.cons_append,
    List.tail_cons]

/-- Behind the number of the statement, a key goes on with an underscore. -/
theorem rest_eq_cons (s : Slot) : ∃ cs, s.rest = '_' :: cs := by
  unfold rest
  cases s.path.segments with
  | nil => exact ⟨_, spelling_ofNumber_cons _ _⟩
  | cons segment segments => exact ⟨_, rfl⟩

/-- The key of a place under another number has that number in place of its own. -/
theorem key_renumber (s : Slot) (n : Nat) : (s.renumber n).key = renumberKey n s.key := by
  have hstem : ∀ c ∈ s.purpose.stem.toList, (!c.isDigit) = true := by
    rw [← List.all_eq_true]
    cases s.purpose <;> decide
  have hdigits : ∀ c ∈ (toString s.path.root).toList, c.isDigit = true :=
    fun _ => isDigit_of_mem_toString
  obtain ⟨d, ds, hnumber⟩ := List.exists_cons_of_ne_nil (toString_ne_nil s.path.root)
  have hd : d.isDigit = true := hdigits d (hnumber ▸ List.mem_cons_self)
  obtain ⟨cs, hrest⟩ := s.rest_eq_cons
  have hunderscore : '_'.isDigit = false := by decide
  have hfront : s.key.toList.takeWhile (!·.isDigit) = s.purpose.stem.toList := by
    rw [key_eq, List.takeWhile_append_of_pos hstem, hnumber]
    simp [hd]
  have hbehind : s.key.toList.dropWhile (!·.isDigit) = (toString s.path.root).toList ++ s.rest := by
    rw [key_eq, List.dropWhile_append_of_pos hstem, hnumber]
    simp [hd]
  have hback : (s.key.toList.dropWhile (!·.isDigit)).dropWhile (·.isDigit) = s.rest := by
    rw [hbehind, List.dropWhile_append_of_pos hdigits, hrest]
    simp [hunderscore]
  apply String.toList_inj.mp
  rw [renumberKey, String.toList_ofList, hfront, hback, key_eq, List.append_assoc]
  rfl

/-- Under every number, a key is its stem, the number and the same rest behind an underscore. -/
theorem exists_key_renumber (s : Slot) :
    ∃ rest, ∀ n, (s.renumber n).key = s.purpose.stem ++ toString n ++ "_" ++ rest := by
  obtain ⟨cs, hrest⟩ := s.rest_eq_cons
  refine ⟨String.ofList cs, fun n => String.toList_inj.mp ?_⟩
  have hsame : (s.renumber n).rest = s.rest := rfl
  rw [key_eq, hsame, hrest]
  simp [renumber]

end Slot

namespace Piece

variable {n : Nat}

/-- Texts stay under another number. -/
@[simp] theorem renumber_text (s : String) : (text s).renumber n = .text s := rfl

/-- Tables stay under another number. -/
@[simp] theorem renumber_table (name : String) (token : Token) :
    (table name token).renumber n = .table name token := rfl

/-- The place of a marker gets the other number. -/
@[simp] theorem renumber_marker (slot : Slot) :
    (marker slot).renumber n = .marker (slot.renumber n) := rfl

/-- A piece is written alike under every number. -/
theorem chars_renumber_alike (root : String) (aliasOf : Token → String) (piece : Piece) :
    Alike (Fragment.pieceChars root aliasOf piece)
      (Fragment.pieceChars root aliasOf (piece.renumber n)) := by
  cases piece with
  | marker slot =>
    have hmarker : ∀ m, Fragment.pieceChars root aliasOf (.marker (slot.renumber m)) =
        ("#\x7b" ++ root ++ "." ++ slot.purpose.space.name ++ ".").toList ++
          (slot.purpose.stem.toList ++ ((toString m).toList ++ (slot.rest ++ ['\x7d']))) := by
      intro m
      have hkey := (slot.renumber m).key_eq
      simp only [Fragment.pieceChars, Slot.marker, DynamicSql.marker, String.toList_append, hkey]
      simp [Slot.renumber, Slot.rest]
    have hdigits : Alike ((toString slot.path.root).toList ++ (slot.rest ++ ['\x7d']))
        ((toString n).toList ++ (slot.rest ++ ['\x7d'])) :=
      .digits (toString_ne_nil _) (toString_ne_nil _) (fun _ => isDigit_of_mem_toString)
        (fun _ => isDigit_of_mem_toString) (.refl _)
    have hself : slot = slot.renumber slot.path.root := rfl
    rw [renumber_marker, hmarker n, hself, hmarker]
    exact (Alike.refl _).append ((Alike.refl _).append hdigits)
  | text s => exact .refl _
  | table name token => exact .refl _
  | column token name => exact .refl _

end Piece

/-- Giving the statement another number replaces the pieces that show the number. -/
def PieceMap.renumber (n : Nat) : PieceMap where
  apply := Piece.renumber n
  text _ := rfl
  eq_text piece _ h := by
    cases piece with
    | text _ => exact h
    | _ => cases h
  alike root := Piece.chars_renumber_alike root _

namespace Fragment

variable {n : Nat}

/-- An empty fragment stays empty under another number. -/
@[simp] theorem renumber_nil : renumber n [] = [] := rfl

/-- Fragments get another number piece by piece. -/
@[simp] theorem renumber_cons (piece : Piece) (f : Fragment) :
    renumber n (piece :: f) = piece.renumber n :: renumber n f := rfl

/-- Fragments one after the other get another number each. -/
@[simp] theorem renumber_append (f g : Fragment) :
    renumber n (f ++ g) = renumber n f ++ renumber n g :=
  mapped_append (φ := .renumber n) f g

/-- What is put around a fragment stays under another number. -/
@[simp] theorem renumber_wrap (w : Wrap) (f : Fragment) :
    (f.wrap w).renumber n = (f.renumber n).wrap w :=
  mapped_wrap (φ := .renumber n) w f

/-- Parentheses stay under another number. -/
@[simp] theorem renumber_parens (f : Fragment) : f.parens.renumber n = (f.renumber n).parens :=
  renumber_wrap _ f

/-- Joined fragments get another number each. -/
@[simp] theorem renumber_join (separator : String) (fs : List Fragment) :
    (join separator fs).renumber n = join separator (fs.map (renumber n)) :=
  mapped_join (φ := .renumber n) separator fs

end Fragment

section Assembling

variable {n : Nat}

/-- Conditions are combined in the same way. -/
theorem renumber_combineWhere (root : String) (parts : List Fragment) :
    (combineWhere root parts).renumber n = combineWhere root (parts.map (Fragment.renumber n)) :=
  mapped_combineWhere (φ := .renumber n) root parts

mutual

/-- A term of the statement with another number. -/
def Term.renumber (n : Nat) : Term → Term
  | .leaf connector text => .leaf connector (text.renumber n)
  | .group connector terms => .group connector (renumberTerms n terms)

/-- Terms of the statement with another number. -/
def renumberTerms (n : Nat) : List Term → List Term
  | [] => []
  | term :: rest => term.renumber n :: renumberTerms n rest

end

mutual

/-- Another number for a term is a change of its pieces. -/
theorem Term.renumber_eq_mapped : ∀ term : Term, term.renumber n = term.mapped (.renumber n)
  | .leaf _ _ => rfl
  | .group _ terms => by
    rw [Term.renumber, Term.mapped, renumberTerms_eq_mapped terms]

/-- So it is for a list of terms. -/
theorem renumberTerms_eq_mapped : ∀ terms : List Term,
    renumberTerms n terms = mappedTerms (.renumber n) terms
  | [] => rfl
  | term :: rest => by
    rw [renumberTerms, mappedTerms, term.renumber_eq_mapped, renumberTerms_eq_mapped rest]

end

/-- Lists of terms get another number each. -/
@[simp] theorem renumberTerms_append (a b : List Term) :
    renumberTerms n (a ++ b) = renumberTerms n a ++ renumberTerms n b := by
  simp only [renumberTerms_eq_mapped, mappedTerms_append]

/-- Terms are as many under another number. -/
@[simp] theorem isEmpty_renumberTerms (terms : List Term) :
    (renumberTerms n terms).isEmpty = terms.isEmpty := by
  rw [renumberTerms_eq_mapped, isEmpty_mappedTerms]

/-- The text of terms gets another number where the terms get it. -/
theorem Term.renumber_whereText (terms : List Term) :
    (Term.whereText terms).renumber n = Term.whereText (renumberTerms n terms) := by
  rw [renumberTerms_eq_mapped]
  exact Term.mapped_whereText (φ := .renumber n) terms

/-- The lists of the statement with another number. -/
def Collected.renumber (n : Nat) (lists : Collected) : Collected :=
  ⟨lists.columns.map (Fragment.renumber n), lists.groups.map (Fragment.renumber n),
    lists.havings.map (Fragment.renumber n), lists.orders.map (Fragment.renumber n)⟩

/-- What joins add to the statement with another number. -/
def Joined.renumber (n : Nat) (added : Joined) : Joined :=
  ⟨added.text.renumber n, added.collected.renumber n,
    added.conditions.map (Fragment.renumber n)⟩

/-- The parts of a `SELECT` of the statement with another number. -/
def SelectParts.renumber (n : Nat) (parts : SelectParts) : SelectParts :=
  ⟨parts.collected.renumber n, parts.source.renumber n, parts.condition.renumber n⟩

/-- Joins one after the other get another number each. -/
theorem Joined.renumber_append (a b : Joined) :
    (a ++ b).renumber n = a.renumber n ++ b.renumber n :=
  Joined.mapped_append (φ := .renumber n) a b

/-- The entries of a clause get another number each. -/
@[simp] theorem renumber_clause (heading separator : String) (entries : List Fragment) :
    (SelectParts.clause heading separator entries).renumber n =
      SelectParts.clause heading separator (entries.map (Fragment.renumber n)) :=
  mapped_clause (φ := .renumber n) entries

/-- A `SELECT` gets another number where its parts get it. -/
theorem SelectParts.renumber_select (parts : SelectParts) :
    parts.select.renumber n = (parts.renumber n).select :=
  SelectParts.mapped_select (φ := .renumber n) parts

/-- A `SELECT` and its branches get another number each. -/
theorem renumber_compound (select branches : Fragment) :
    (Context.compound select branches).renumber n =
      Context.compound (select.renumber n) (branches.renumber n) :=
  mapped_compound (φ := .renumber n) select branches

/-- The parts of a `SELECT` get another number where that gets it of which they are made. -/
theorem renumber_assemble (ctx : Context) (table : String) (token : Token) (own : Collected)
    (joined : Joined) (terms : List Term) :
    (ctx.assemble table token own joined terms).renumber n =
      ctx.assemble table token (own.renumber n) (joined.renumber n) (renumberTerms n terms) := by
  rw [renumberTerms_eq_mapped]
  exact mapped_assemble (φ := .renumber n) ctx rfl own joined terms

/-- A join gets another number where that gets it of which it is made. -/
theorem renumber_attach (ctx : Context) (table : String) (token : Token) (keys : Fragment)
    (own : Collected) (extra terms : List Term) :
    (ctx.attach table token keys own extra terms).renumber n =
      ctx.attach table token (keys.renumber n) (own.renumber n) (renumberTerms n extra)
        (renumberTerms n terms) := by
  rw [renumberTerms_eq_mapped, renumberTerms_eq_mapped]
  exact mapped_attach (φ := .renumber n) ctx rfl keys own extra terms

/-- An assignment gets another number in its target and its marker. -/
@[simp] theorem renumber_assignmentText (change : Change) (target : Fragment) (marker : Piece) :
    (assignmentText change target marker).renumber n =
      assignmentText change (target.renumber n) (marker.renumber n) :=
  mapped_assignmentText (φ := .renumber n) change target marker

end Assembling

end DynamicSql
