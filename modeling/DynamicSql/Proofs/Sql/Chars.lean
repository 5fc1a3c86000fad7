import DynamicSql.Resolve.Query

/-!
# The characters of fragments

How the text of a fragment follows from the texts of its parts, whatever the aliases are, and which
fragments have a text at all.
-/

namespace DynamicSql

namespace Fragment

variable {f g : Fragment} {root : String} {aliasOf : Token → String}

/-- An empty fragment has no characters. -/
@[simp] theorem chars_nil : chars root aliasOf [] = [] := rfl

/-- The characters of the first piece stand in front. -/
@[simp] theorem chars_cons {piece : Piece} :
    chars root aliasOf (piece :: f) = pieceChars root aliasOf piece ++ chars root aliasOf f := rfl

/-- Fragments have their characters one after the other. -/
@[simp] theorem chars_append :
    chars root aliasOf (f ++ g) = chars root aliasOf f ++ chars root aliasOf g :=
  List.flatMap_append

/-- A fragment that has characters under all aliases. -/
def Visible (f : Fragment) : Prop :=
  ∀ (root : String) (aliasOf : Token → String), f.chars root aliasOf ≠ []

/-- A visible fragment is not empty. -/
theorem Visible.ne_nil (h : f.Visible) : f ≠ [] := fun heq => h "" (fun _ => "") (heq ▸ rfl)

/-- A text that is not empty makes a fragment visible. -/
theorem visible_of_mem_text {s : String} (hs : s ≠ "") (h : Piece.text s ∈ f) : f.Visible := by
  intro root aliasOf hempty
  have hpiece := List.flatMap_eq_nil_iff.mp hempty _ h
  exact hs (String.toList_eq_nil_iff.mp hpiece)

/-- A fragment with a text that is not blank. -/
def Inked (f : Fragment) : Prop := ∃ s, Piece.text s ∈ f ∧ (Text.trimStart s).isEmpty = false

/-- A text that is not blank makes a fragment inked. -/
theorem inked_of_mem_text {s : String} (hs : (Text.trimStart s).isEmpty = false)
    (h : Piece.text s ∈ f) : f.Inked := ⟨s, h, hs⟩

/-- An inked fragment is visible. -/
theorem Inked.visible (h : f.Inked) : f.Visible := by
  obtain ⟨s, hmem, hs⟩ := h
  refine visible_of_mem_text ?_ hmem
  rintro rfl
  cases hs

/-- Something is left where the white space at the front is dropped. -/
theorem Inked.trimStart_ne_nil (h : f.Inked) : f.trimStart ≠ [] := by
  obtain ⟨s, hmem, hs⟩ := h
  induction f with
  | nil => cases hmem
  | cons piece rest ih =>
    cases piece with
    | text first =>
      dsimp only [trimStart]
      split
      case isTrue hempty =>
        refine ih ?_
        obtain heq | hmem := List.mem_cons.mp hmem
        · rw [Piece.text.inj heq, hempty] at hs
          cases hs
        · exact hmem
      case isFalse => exact List.cons_ne_nil _ _
    | _ => exact List.cons_ne_nil _ _

/-- A visible fragment stays visible in front of another one. -/
theorem Visible.append_right (h : f.Visible) (g : Fragment) : (f ++ g).Visible := by
  intro root aliasOf hempty
  rw [chars_append, List.append_eq_nil_iff] at hempty
  exact h root aliasOf hempty.1

/-- Parentheses are visible. -/
theorem visible_parens (f : Fragment) : f.parens.Visible :=
  visible_of_mem_text (by decide) List.mem_cons_self

/-- An empty fragment has an empty text. -/
@[simp] theorem render_nil {aliases : Aliases} : render root aliases [] = "" := rfl

/-- Fragments have their texts one after the other. -/
@[simp] theorem render_append {aliases : Aliases} :
    render root aliases (f ++ g) = render root aliases f ++ render root aliases g := by
  rw [render, chars_append, String.ofList_append, render, render]

/-- A text is shown as it is. -/
@[simp] theorem render_text_cons {aliases : Aliases} {s : String} :
    render root aliases (.text s :: f) = s ++ render root aliases f := by
  rw [render, chars_cons, String.ofList_append, pieceChars, String.ofList_toList, render]

/-- A table is shown by its name and its alias. -/
@[simp] theorem render_table_cons {aliases : Aliases} {name : String} {token : Token} :
    render root aliases (.table name token :: f) =
      name ++ " " ++ aliases.text token ++ render root aliases f := by
  have hspace :
      ' ' :: (aliases.text token).toList = " ".toList ++ (aliases.text token).toList := rfl
  rw [render, chars_cons, pieceChars, hspace, String.ofList_append, String.ofList_append,
    String.ofList_append, String.ofList_toList, String.ofList_toList, String.ofList_toList, render]
  simp only [String.append_assoc]

/-- A column is shown behind an alias and a stop. -/
@[simp] theorem render_column_cons {aliases : Aliases} {token : Token} {name : String} :
    render root aliases (.column token name :: f) =
      aliases.text token ++ "." ++ name ++ render root aliases f := by
  have hstop : (aliases.text token).toList ++ '.' :: name.toList =
      (aliases.text token ++ "." ++ name).toList := by
    simp
  rw [render, chars_cons, pieceChars, hstop, String.ofList_append, String.ofList_toList, render]

/-- Parentheses are shown around the text. -/
@[simp] theorem render_parens {aliases : Aliases} :
    render root aliases f.parens = "(" ++ render root aliases f ++ ")" := by
  simp [parens, wrap, String.append_assoc]

/-- Fragments that come from a list are shown one after the other. -/
theorem render_flatMap {α : Type} {aliases : Aliases} (xs : List α) (g : α → Fragment) :
    render root aliases (xs.flatMap g) =
      String.join (xs.map fun x => render root aliases (g x)) := by
  induction xs with
  | nil => rfl
  | cons x xs ih => rw [List.flatMap_cons, render_append, ih, List.map_cons, String.join_cons]

/-- A visible fragment has a text that is not empty. -/
theorem Visible.render_ne (h : f.Visible) (aliases : Aliases) : render root aliases f ≠ "" := by
  intro hempty
  refine h root aliases.text ?_
  rw [← String.toList_ofList (l := chars root aliases.text f)]
  exact String.toList_eq_nil_iff.mpr hempty

/-- Behind the first of several fragments, each is led by the separator. -/
theorem join_cons (separator : String) (f : Fragment) (fs : List Fragment) :
    join separator (f :: fs) = f ++ fs.flatMap (Piece.text separator :: ·) := by
  unfold join List.intercalate
  induction fs generalizing f with
  | nil => simp
  | cons g fs ih => rw [List.intersperse_cons_cons, List.flatten_cons, List.flatten_cons, ih]; rfl

end Fragment

/-- Several demands stand behind `AND`, each in parentheses if it has an outer `OR`; a single one
stands as it is. -/
theorem combineWhere_cons {root : String} {f : Fragment} {fs : List Fragment} (hf : f ≠ [])
    (hfs : ∀ g ∈ fs, g ≠ []) :
    combineWhere root (f :: fs) =
      if fs = [] then f
      else guardOr root f ++ fs.flatMap fun g => .text " AND " :: guardOr root g := by
  have hall : (f :: fs).filter (!·.isEmpty) = f :: fs := by
    rw [List.filter_eq_self]
    intro g hg
    have hne : g ≠ [] := (List.forall_mem_cons.mpr ⟨hf, hfs⟩ : ∀ g ∈ f :: fs, g ≠ []) g hg
    simpa using hne
  unfold combineWhere
  rw [hall]
  cases fs with
  | nil => rfl
  | cons g fs =>
    rw [if_neg (List.cons_ne_nil g fs)]
    change Fragment.join " AND " (guardOr root f :: (g :: fs).map (guardOr root)) = _
    rw [Fragment.join_cons, List.flatMap_map]

/-- Demands that say nothing are left out. -/
theorem combineWhere_nil_cons {root : String} (fs : List Fragment) :
    combineWhere root ([] :: fs) = combineWhere root fs := rfl

end DynamicSql
