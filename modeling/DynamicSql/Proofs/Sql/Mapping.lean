import DynamicSql.Proofs.Sql.Chars
import DynamicSql.Statement.Write

/-!
# Fragments piece by piece

A statement is put together from fragments in the same way when their pieces are replaced one by
one, as long as fixed text stays and what is not fixed text remains so. While it is put together,
its text is looked at twice: for the connector in front of the extra conditions of a join, and for
an outer `OR`. Neither depends on aliases, nor on which digits a number has (`Alike`), so pieces may
change in these.
-/

namespace DynamicSql

/-- Texts that are alike up to which digits their numbers have. -/
inductive Alike : List Char → List Char → Prop
  | nil : Alike [] []
  | cons (c : Char) {x y : List Char} : Alike x y → Alike (c :: x) (c :: y)
  | digits {ds es x y : List Char} : ds ≠ [] → es ≠ [] → (∀ d ∈ ds, d.isDigit) →
      (∀ e ∈ es, e.isDigit) → Alike x y → Alike (ds ++ x) (es ++ y)

namespace Alike

variable {x y x' y' : List Char}

/-- A text is like itself. -/
theorem refl (x : List Char) : Alike x x := by
  induction x with
  | nil => exact nil
  | cons c x ih => exact ih.cons c

/-- Texts are alike part by part. -/
theorem append (h : Alike x y) (h' : Alike x' y') : Alike (x ++ x') (y ++ y') := by
  induction h with
  | nil => exact h'
  | cons c _ ih => exact ih.cons c
  | digits hds hes hdigits hdigits' _ ih =>
    rw [List.append_assoc, List.append_assoc]
    exact digits hds hes hdigits hdigits' ih

/-- Texts that are alike begin with the same words without digits. -/
theorem isPrefixOf_eq (h : Alike x y) {word : List Char} (hword : ∀ c ∈ word, ¬c.isDigit) :
    word.isPrefixOf x = word.isPrefixOf y := by
  induction word generalizing x y with
  | nil => rfl
  | cons w word ih =>
    obtain ⟨hw, hrest⟩ := List.forall_mem_cons.mp hword
    cases h with
    | nil => rfl
    | cons c h => rw [List.isPrefixOf_cons_cons, List.isPrefixOf_cons_cons, ih h hrest]
    | digits hds hes hdigits hdigits' h =>
      obtain ⟨d, ds, rfl⟩ := List.exists_cons_of_ne_nil hds
      obtain ⟨e, es, rfl⟩ := List.exists_cons_of_ne_nil hes
      have hd : w ≠ d := fun heq => hw (heq ▸ hdigits d List.mem_cons_self)
      have he : w ≠ e := fun heq => hw (heq ▸ hdigits' e List.mem_cons_self)
      rw [List.cons_append, List.cons_append, List.isPrefixOf_cons_cons,
        List.isPrefixOf_cons_cons, beq_false_of_ne hd, beq_false_of_ne he, Bool.false_and,
        Bool.false_and]

/-- Texts that are alike have the same beginnings, as far as these hold no digits. -/
theorem startsWith_eq (h : Alike x y) {opening : String}
    (hopening : opening.toList.all (!·.isDigit) = true) :
    startsWith opening x = startsWith opening y :=
  h.isPrefixOf_eq (by simpa using hopening)

end Alike

/-- Digits are passed over in the search for an outer `OR`. -/
theorem hasOuterOr_digits {ds cs : List Char} {quoted : Bool} {depth : Int}
    (h : ∀ d ∈ ds, d.isDigit) :
    hasOuterOr quoted depth (ds ++ cs) = hasOuterOr quoted depth cs := by
  induction ds with
  | nil => rfl
  | cons d ds ih =>
    obtain ⟨hd, hds⟩ := List.forall_mem_cons.mp h
    have hne : ∀ c : Char, ¬c.isDigit → d ≠ c := fun c hc heq => hc (heq ▸ hd)
    rw [List.cons_append, hasOuterOr, if_neg (hne '\'' (by decide)), if_neg (hne '(' (by decide)),
      if_neg (hne ')' (by decide)), beq_false_of_ne (hne ' ' (by decide)), Bool.false_and,
      Bool.false_and, Bool.false_or, ih hds, ite_self]

/-- Whether there is an outer `OR` does not depend on which digits numbers have. -/
theorem Alike.hasOuterOr_eq {x y : List Char} (h : Alike x y) (quoted : Bool) (depth : Int) :
    hasOuterOr quoted depth x = hasOuterOr quoted depth y := by
  induction h generalizing quoted depth with
  | nil => rfl
  | cons c h ih =>
    have hstarts : startsWith "OR " _ = startsWith "OR " _ := h.startsWith_eq (by decide)
    simp only [hasOuterOr, hstarts, ih]
  | digits _ _ hdigits hdigits' _ ih =>
    rw [hasOuterOr_digits hdigits, hasOuterOr_digits hdigits', ih]

/-- A replacement of pieces that keeps fixed text, and changes nothing in other pieces but aliases
and the digits of numbers. -/
structure PieceMap where
  apply : Piece → Piece
  text : ∀ s, apply (.text s) = .text s
  eq_text : ∀ piece s, apply piece = .text s → piece = .text s
  alike : ∀ root piece, Alike (Fragment.pieceChars root (fun _ => "t") piece)
    (Fragment.pieceChars root (fun _ => "t") (apply piece))

variable {φ : PieceMap}

namespace Fragment

/-- A fragment with its pieces replaced. -/
def mapped (φ : PieceMap) (f : Fragment) : Fragment := f.map φ.apply

/-- Nothing is replaced in an empty fragment. -/
@[simp] theorem mapped_nil : mapped φ [] = [] := rfl

/-- The first piece is replaced apart from the others. -/
@[simp] theorem mapped_cons (piece : Piece) (f : Fragment) :
    mapped φ (piece :: f) = φ.apply piece :: mapped φ f := rfl

/-- Pieces are replaced part by part. -/
@[simp] theorem mapped_append (f g : Fragment) : mapped φ (f ++ g) = mapped φ f ++ mapped φ g :=
  List.map_append

/-- Pieces are replaced in either of two fragments. -/
theorem mapped_ite (p : Prop) [Decidable p] (f g : Fragment) :
    (if p then f else g).mapped φ = if p then f.mapped φ else g.mapped φ :=
  apply_ite (mapped φ) p f g

/-- Replacing pieces takes none away. -/
@[simp] theorem isEmpty_mapped (f : Fragment) : (f.mapped φ).isEmpty = f.isEmpty :=
  List.isEmpty_map

/-- Texts that are put around a fragment are kept. -/
@[simp] theorem mapped_wrap (w : Wrap) (f : Fragment) :
    (f.wrap w).mapped φ = (f.mapped φ).wrap w := by
  simp [wrap, φ.text]

/-- Parentheses are kept. -/
@[simp] theorem mapped_parens (f : Fragment) : f.parens.mapped φ = (f.mapped φ).parens :=
  mapped_wrap _ f

/-- Separators are kept. -/
@[simp] theorem mapped_join (separator : String) (fs : List Fragment) :
    (join separator fs).mapped φ = join separator (fs.map (mapped φ)) := by
  cases fs with
  | nil => rfl
  | cons f fs =>
    rw [List.map_cons, join_cons, join_cons, mapped_append, mapped, mapped, List.map_flatMap,
      List.flatMap_map]
    simp only [List.map_cons, φ.text]
    rfl

/-- White space at the front is kept or dropped alike. -/
theorem mapped_trimStart (f : Fragment) : f.trimStart.mapped φ = (f.mapped φ).trimStart := by
  have hother : ∀ (piece : Piece) (rest : Fragment), (∀ s, piece ≠ .text s) →
      trimStart (piece :: rest) = piece :: rest := by
    intro piece rest hpiece
    cases piece with
    | text s => exact absurd rfl (hpiece s)
    | _ => rfl
  induction f with
  | nil => rfl
  | cons piece f ih =>
    by_cases hpiece : ∃ s, piece = .text s
    · obtain ⟨s, rfl⟩ := hpiece
      rw [mapped_cons, φ.text, trimStart, trimStart, mapped_ite, ih, mapped_cons, φ.text]
    · have hkept : ∀ s, piece ≠ .text s := fun s heq => hpiece ⟨s, heq⟩
      rw [hother piece f hkept, mapped_cons,
        hother _ _ fun s heq => hkept s (φ.eq_text piece s heq)]

/-- The outline of a fragment changes in the digits of numbers only. -/
theorem mapped_outline_alike (root : String) (f : Fragment) :
    Alike (f.outline root) ((f.mapped φ).outline root) := by
  induction f with
  | nil => exact .nil
  | cons piece f ih => exact (φ.alike root piece).append ih

end Fragment

/-- Whether a condition needs parentheses does not depend on replaced pieces. -/
theorem mapped_guardOr (root : String) (f : Fragment) :
    (guardOr root f).mapped φ = guardOr root (f.mapped φ) := by
  rw [guardOr, guardOr, Fragment.mapped_ite, ← (Fragment.mapped_outline_alike root f).hasOuterOr_eq,
    Fragment.mapped_parens]

/-- Extra conditions are put behind the keys of a join in the same way. -/
theorem mapped_appendOn (root : String) (keys extra : Fragment) :
    (appendOn root keys extra).mapped φ = appendOn root (keys.mapped φ) (extra.mapped φ) := by
  have halike := Fragment.mapped_outline_alike (φ := φ) root extra.trimStart
  have hand : startsWith "AND " _ = startsWith "AND " _ := halike.startsWith_eq (by decide)
  have hor : startsWith "OR " _ = startsWith "OR " _ := halike.startsWith_eq (by decide)
  simp only [appendOn, ← Fragment.mapped_trimStart, Fragment.isEmpty_mapped, ← hand, ← hor]
  rw [Fragment.mapped_ite, Fragment.mapped_ite, Fragment.mapped_append, Fragment.mapped_append,
    Fragment.mapped_cons, Fragment.mapped_cons, φ.text, φ.text]

/-- Conditions are combined in the same way. -/
theorem mapped_combineWhere (root : String) (parts : List Fragment) :
    (combineWhere root parts).mapped φ = combineWhere root (parts.map (Fragment.mapped φ)) := by
  have hfilter : (parts.map (Fragment.mapped φ)).filter (!·.isEmpty) =
      (parts.filter (!·.isEmpty)).map (Fragment.mapped φ) := by
    rw [List.filter_map]
    congr 2
    funext f
    exact congrArg (!·) (Fragment.isEmpty_mapped f)
  have hguard : Fragment.mapped φ ∘ guardOr root = guardOr root ∘ Fragment.mapped φ :=
    funext (mapped_guardOr root)
  unfold combineWhere
  rw [hfilter]
  cases parts.filter (!·.isEmpty) with
  | nil => rfl
  | cons f rest =>
    cases rest with
    | nil => rfl
    | cons g rest => simp [mapped_guardOr, hguard]

mutual

/-- A term with its pieces replaced. -/
def Term.mapped (φ : PieceMap) : Term → Term
  | .leaf connector text => .leaf connector (text.mapped φ)
  | .group connector terms => .group connector (mappedTerms φ terms)

/-- Terms with their pieces replaced. -/
def mappedTerms (φ : PieceMap) : List Term → List Term
  | [] => []
  | term :: rest => term.mapped φ :: mappedTerms φ rest

end

/-- Terms have their pieces replaced list by list. -/
@[simp] theorem mappedTerms_append (a b : List Term) :
    mappedTerms φ (a ++ b) = mappedTerms φ a ++ mappedTerms φ b := by
  induction a with
  | nil => simp [mappedTerms]
  | cons term rest ih => simp [mappedTerms, ih]

/-- Replacing pieces takes no term away. -/
@[simp] theorem isEmpty_mappedTerms (terms : List Term) :
    (mappedTerms φ terms).isEmpty = terms.isEmpty := by
  cases terms <;> simp [mappedTerms]

mutual

/-- The text of terms has its pieces replaced with the terms. -/
theorem Term.mapped_whereText : ∀ terms : List Term,
    (Term.whereText terms).mapped φ = Term.whereText (mappedTerms φ terms)
  | [] => by simp [mappedTerms, Term.whereText]
  | .leaf connector text :: rest => by
    simp [mappedTerms, Term.mapped, Term.whereText, Term.body, Term.mapped_tailText rest]
  | .group connector terms :: rest => by
    simp [mappedTerms, Term.mapped, Term.whereText, Term.body, Term.mapped_tailText rest,
      Term.mapped_whereText terms]

/-- So has their text behind another text. -/
theorem Term.mapped_tailText : ∀ terms : List Term,
    (Term.tailText terms).mapped φ = Term.tailText (mappedTerms φ terms)
  | [] => by simp [mappedTerms, Term.tailText]
  | .leaf connector text :: rest => by
    simp [mappedTerms, Term.mapped, Term.tailText, φ.text, Term.mapped_tailText rest]
  | .group connector terms :: rest => by
    simp [mappedTerms, Term.mapped, Term.tailText, φ.text, Term.mapped_tailText rest,
      Term.mapped_whereText terms]

end

/-- So has their text where they are joined to keys. -/
theorem Term.mapped_onText (terms : List Term) :
    (Term.onText terms).mapped φ = Term.onText (mappedTerms φ terms) := by
  cases terms with
  | nil => simp [mappedTerms, Term.onText, Term.whereText]
  | cons term rest =>
    cases term with
    | leaf connector text =>
      have h := Term.mapped_whereText (φ := φ) (.leaf connector text :: rest)
      simpa only [mappedTerms, Term.mapped, Term.onText] using h
    | group connector terms =>
      have h := Term.mapped_tailText (φ := φ) (.group connector terms :: rest)
      simpa only [mappedTerms, Term.mapped, Term.onText] using h

/-- Lists with their pieces replaced. -/
def Collected.mapped (φ : PieceMap) (lists : Collected) : Collected :=
  ⟨lists.columns.map (Fragment.mapped φ), lists.groups.map (Fragment.mapped φ),
    lists.havings.map (Fragment.mapped φ), lists.orders.map (Fragment.mapped φ)⟩

/-- What joins add, with its pieces replaced. -/
def Joined.mapped (φ : PieceMap) (added : Joined) : Joined :=
  ⟨added.text.mapped φ, added.collected.mapped φ, added.conditions.map (Fragment.mapped φ)⟩

/-- The parts of a `SELECT` with their pieces replaced. -/
def SelectParts.mapped (φ : PieceMap) (parts : SelectParts) : SelectParts :=
  ⟨parts.collected.mapped φ, parts.source.mapped φ, parts.condition.mapped φ⟩

/-- Collected lists are put together list by list. -/
theorem Collected.append_eq (a b : Collected) : a ++ b = ⟨a.columns ++ b.columns,
    a.groups ++ b.groups, a.havings ++ b.havings, a.orders ++ b.orders⟩ := rfl

/-- What joins add is put together part by part. -/
theorem Joined.append_eq (a b : Joined) : a ++ b =
    ⟨a.text ++ b.text, a.collected ++ b.collected, a.conditions ++ b.conditions⟩ := rfl

/-- Collected lists have their pieces replaced part by part. -/
theorem Collected.mapped_append (a b : Collected) :
    (a ++ b).mapped φ = a.mapped φ ++ b.mapped φ := by
  simp only [append_eq, mapped, List.map_append]

/-- So has what joins add. -/
theorem Joined.mapped_append (a b : Joined) :
    (a ++ b).mapped φ = a.mapped φ ++ b.mapped φ := by
  simp only [append_eq, mapped, Fragment.mapped_append, Collected.mapped_append, List.map_append]

/-- The heading of a clause is kept, and so are its separators. -/
@[simp] theorem mapped_clause {heading separator : String} (entries : List Fragment) :
    (SelectParts.clause heading separator entries).mapped φ =
      SelectParts.clause heading separator (entries.map (Fragment.mapped φ)) := by
  unfold SelectParts.clause
  rw [List.isEmpty_map]
  split <;> simp [φ.text]

/-- What stands behind the columns of a `SELECT` has its pieces replaced with the parts. -/
theorem SelectParts.mapped_body (parts : SelectParts) :
    parts.body.mapped φ = (parts.mapped φ).body := by
  simp [-List.isEmpty_iff, body, mapped, Collected.mapped, Fragment.mapped_ite, φ.text]

/-- So has the whole `SELECT`. -/
theorem SelectParts.mapped_select (parts : SelectParts) :
    parts.select.mapped φ = (parts.mapped φ).select := by
  simp [select, SelectParts.mapped_body, φ.text]
  simp [mapped, Collected.mapped]

/-- A `SELECT` has its pieces replaced apart from its branches. -/
theorem mapped_compound (select branches : Fragment) :
    (Context.compound select branches).mapped φ =
      Context.compound (select.mapped φ) (branches.mapped φ) := by
  rw [Context.compound, Context.compound, Fragment.mapped_ite, Fragment.isEmpty_mapped,
    Fragment.mapped_append, Fragment.mapped_parens]

/-- A `SELECT` with replaced pieces is put together of parts with replaced pieces. -/
theorem mapped_assemble (ctx : Context) {table : String} {token token' : Token}
    (htable : φ.apply (.table table token) = .table table token') (own : Collected)
    (joined : Joined) (terms : List Term) :
    (ctx.assemble table token own joined terms).mapped φ =
      ctx.assemble table token' (own.mapped φ) (joined.mapped φ) (mappedTerms φ terms) := by
  unfold Context.assemble SelectParts.mapped
  rw [mapped_combineWhere, List.map_cons, Term.mapped_whereText, Collected.mapped_append,
    Fragment.mapped_cons, htable]
  rfl

/-- So is what a joined query adds. -/
theorem mapped_attach (ctx : Context) {table : String} {token token' : Token}
    (htable : φ.apply (.table table token) = .table table token') (keys : Fragment)
    (own : Collected) (extra terms : List Term) :
    (ctx.attach table token keys own extra terms).mapped φ =
      ctx.attach table token' (keys.mapped φ) (own.mapped φ) (mappedTerms φ extra)
        (mappedTerms φ terms) := by
  unfold Context.attach Joined.mapped
  rw [← Term.mapped_onText, ← Term.mapped_whereText, ← mapped_appendOn]
  dsimp only
  rw [Fragment.isEmpty_mapped]
  split <;> simp [φ.text, htable]

/-- An assignment has the pieces of its target and its marker replaced. -/
@[simp] theorem mapped_assignmentText (change : Change) (target : Fragment) (marker : Piece) :
    (assignmentText change target marker).mapped φ =
      assignmentText change (target.mapped φ) (φ.apply marker) := by
  cases change <;> simp [assignmentText, φ.text]

/-- A comparison has the pieces of its operand and its marker replaced. -/
theorem mapped_comparedWith (operand : Fragment) (comparison : Comparison) (marker : Piece) :
    (Context.comparedWith operand comparison marker).mapped φ =
      Context.comparedWith (operand.mapped φ) comparison (φ.apply marker) := by
  simp [Context.comparedWith, φ.text]

end DynamicSql
