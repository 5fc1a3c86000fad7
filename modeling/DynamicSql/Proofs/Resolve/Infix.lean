import DynamicSql.Proofs.Resolve.Leaves

/-!
# Where the parts of a text stand

What a text is put together from stands in it as a whole: a demand among several, a term among
terms, a clause of a `SELECT`, a branch of a union. At the front of the extra conditions of a join,
white space may be dropped; no query begins with any.
-/

namespace DynamicSql

namespace Fragment

variable {f g : Fragment}

/-- A fragment at whose front there is no white space to drop. -/
def Solid (f : Fragment) : Prop := f ≠ [] ∧ f.trimStart = f

/-- A fragment is solid if it begins with a text that no white space stands in front of. -/
theorem solid_text_cons {s : String} (hs : Text.trimStart s = s) (hne : s.isEmpty = false) :
    Solid (.text s :: f) := by
  refine ⟨List.cons_ne_nil _ _, ?_⟩
  dsimp only [trimStart]
  rw [hs, hne]
  rfl

/-- White space is dropped from the second fragment only where nothing is left of the first. -/
theorem trimStart_append (f g : Fragment) :
    (f ++ g).trimStart = if f.trimStart = [] then g.trimStart else f.trimStart ++ g := by
  induction f with
  | nil => rfl
  | cons piece rest ih =>
    cases piece with
    | text s =>
      rw [List.cons_append]
      dsimp only [trimStart]
      split
      · exact ih
      · rfl
    | _ => rfl

/-- What is dropped at the front of a fragment does not touch a solid fragment inside it. -/
theorem Solid.infix_trimStart (h : f.Solid) (hfg : f <:+: g) : f <:+: g.trimStart := by
  obtain ⟨a, b, rfl⟩ := hfg
  have hfront : (f ++ b).trimStart = f ++ b := by
    rw [trimStart_append, h.2, if_neg h.1]
  rw [List.append_assoc, trimStart_append]
  split
  · rw [hfront]
    exact (List.prefix_append f b).isInfix
  · rw [← List.append_assoc]
    exact List.infix_append _ f b

/-- A fragment stands between its parentheses. -/
theorem infix_parens (f : Fragment) : f <:+: f.parens :=
  List.infix_append [Piece.text "("] f [Piece.text ")"]

/-- A condition stands in its guarded form. -/
theorem infix_guardOr (root : String) (f : Fragment) : f <:+: guardOr root f := by
  unfold guardOr
  split
  · exact infix_parens f
  · exact List.infix_refl f

/-- What is joined stands in the whole. -/
theorem infix_join {fs : List Fragment} (separator : String) (h : f ∈ fs) :
    f <:+: join separator fs := by
  cases fs with
  | nil => cases h
  | cons first rest =>
    rw [join_cons]
    obtain rfl | h := List.mem_cons.mp h
    · exact (List.prefix_append f _).isInfix
    · have hcons : (.text separator :: f) <:+: rest.flatMap (Piece.text separator :: ·) :=
        List.infix_of_mem_flatten (List.mem_map_of_mem h)
      exact (List.infix_cons (List.infix_refl f)).trans
        (hcons.trans (List.suffix_append first _).isInfix)

/-- Each of several demands stands among them. -/
theorem infix_combineWhere (root : String) {parts : List Fragment} (h : f ∈ parts) :
    f <:+: combineWhere root parts := by
  by_cases hempty : f = []
  · exact hempty ▸ List.nil_infix
  have hkept : f ∈ parts.filter (!·.isEmpty) :=
    List.mem_filter.mpr ⟨h, by simpa using hempty⟩
  unfold combineWhere
  split
  case h_1 heq => exact absurd (heq ▸ hkept) List.not_mem_nil
  case h_2 part heq =>
    obtain rfl := List.mem_singleton.mp (heq ▸ hkept)
    exact List.infix_refl f
  case h_3 =>
    exact (infix_guardOr root f).trans (infix_join " AND " (List.mem_map_of_mem hkept))

/-- The extra conditions of a join stand behind its keys, but for white space at their front. -/
theorem Solid.infix_appendOn (h : f.Solid) (root : String) (keys : Fragment) (hfg : f <:+: g) :
    f <:+: appendOn root keys g := by
  have htrimmed := h.infix_trimStart hfg
  have hne : g.trimStart ≠ [] := fun heq => h.1 (List.infix_nil.mp (heq ▸ htrimmed))
  unfold appendOn
  dsimp only
  rw [if_neg (by simpa using hne)]
  split
  · exact (List.infix_cons htrimmed).trans (List.suffix_append keys _).isInfix
  · exact (List.infix_cons htrimmed).trans (List.suffix_append keys _).isInfix

end Fragment

namespace Term

/-- The text of terms stands in that of the terms with one more in front. -/
theorem infix_whereText_cons (term : Term) (rest : List Term) :
    whereText rest <:+: whereText (term :: rest) := by
  have htail : whereText rest <:+: tailText rest := by
    cases rest with
    | nil => exact List.nil_infix
    | cons next rest =>
      obtain ⟨connector, heq⟩ := tailText_cons next rest
      rw [heq]
      exact List.infix_cons (List.infix_refl _)
  exact htail.trans (List.suffix_append (body term) _).isInfix

/-- The text of some terms stands in that of these and further ones. -/
theorem infix_whereText_left (a b : List Term) : whereText a <:+: whereText (a ++ b) := by
  cases a with
  | nil => exact List.nil_infix
  | cons term a =>
    have heq : whereText (term :: a ++ b) = whereText (term :: a) ++ tailText b := by
      rw [List.cons_append, whereText, tailText_append, whereText, List.append_assoc]
    rw [heq]
    exact (List.prefix_append _ _).isInfix

/-- So does the text of the further ones. -/
theorem infix_whereText_right (a b : List Term) : whereText b <:+: whereText (a ++ b) := by
  induction a with
  | nil => exact List.infix_refl _
  | cons term a ih => exact ih.trans (infix_whereText_cons term (a ++ b))

/-- The text of terms stands in the one that joins them to keys. -/
theorem infix_onText (terms : List Term) : whereText terms <:+: onText terms := by
  unfold onText
  split
  case h_1 connector terms rest =>
    obtain ⟨other, heq⟩ := tailText_cons (.group connector terms) rest
    rw [heq]
    exact List.infix_cons (List.infix_refl _)
  case h_2 => exact List.infix_refl _

end Term

namespace Context

/-- The table and the joins of a `SELECT` stand behind `FROM`. -/
theorem infix_source (parts : SelectParts) : parts.source <:+: parts.body := by
  unfold SelectParts.body
  rw [List.append_assoc, List.append_assoc]
  exact (List.infix_cons (List.prefix_append _ _).isInfix : _ <:+: Piece.text " FROM " :: (_ ++ _))

/-- The conditions of a `SELECT` stand behind `WHERE`. -/
theorem infix_condition (parts : SelectParts) : parts.condition <:+: parts.body := by
  have hclause : parts.condition <:+: (if parts.condition.isEmpty then []
      else .text " WHERE " :: parts.condition) := by
    split
    case isTrue h => exact List.isEmpty_iff.mp h ▸ List.nil_infix
    case isFalse => exact List.infix_cons (List.infix_refl _)
  unfold SelectParts.body
  rw [List.append_assoc]
  exact hclause.trans (List.infix_append _ _ _)

/-- What a `SELECT` has behind its columns stands in it. -/
theorem infix_body (parts : SelectParts) : parts.body <:+: parts.select := by
  unfold SelectParts.select
  exact List.infix_append _ _ _

/-- The `SELECT` of a query stands in front of its branches. -/
theorem infix_select (select branches : Fragment) : select <:+: compound select branches := by
  unfold compound
  split
  · exact List.infix_refl _
  · exact (Fragment.infix_parens select).trans (List.prefix_append _ _).isInfix

/-- The `SELECT` of a branch stands behind its keyword, in parentheses and in front of its limit. -/
theorem infix_branch (kind : UnionKind) (select : Fragment) (limit : Option UInt64) :
    select <:+: .text kind.text ::
      Fragment.parens (select ++ [.text (Dialect.limitClause limit)]) := by
  refine List.infix_cons (List.IsInfix.trans ?_ (Fragment.infix_parens _))
  exact (List.prefix_append select _).isInfix

/-- Branches stand behind the `SELECT` that they are joined to. -/
theorem infix_branches (select branches : Fragment) : branches <:+: compound select branches := by
  unfold compound
  split
  case isTrue h => exact List.isEmpty_iff.mp h ▸ List.nil_infix
  case isFalse => exact (List.suffix_append _ _).isInfix

end Context

end DynamicSql
