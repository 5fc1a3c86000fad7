import DynamicSql.Proofs.Resolve.Upheld
import DynamicSql.Proofs.Sql.Chars

/-!
# The tables that resolved pieces name

A property that all texts and markers have is one of all resolved pieces, if tables have it where
they are opened, and columns where their table was opened or referred to (`Context.pieces`). In
particular all tables that a fragment names were mentioned while it was resolved.
-/

namespace DynamicSql

/-- The token whose alias is in a piece. -/
def Piece.token? : Piece → Option Token
  | .table _ token | .column token _ => some token
  | .text _ | .marker _ => none

namespace Fragment

/-- The tokens whose aliases are in a fragment. -/
def tokens (f : Fragment) : List Token := f.filterMap Piece.token?

/-- The text of a fragment depends on the aliases in it alone. -/
theorem chars_congr {root : String} {f : Fragment} {a b : Token → String}
    (h : ∀ token ∈ f.tokens, a token = b token) : f.chars root a = f.chars root b := by
  induction f with
  | nil => rfl
  | cons piece rest ih =>
    have hrest : tokens rest ⊆ tokens (piece :: rest) :=
      ((List.sublist_cons_self piece rest).filterMap Piece.token?).subset
    rw [chars_cons, chars_cons, ih fun token htoken => h token (hrest htoken)]
    cases piece with
    | text s => rfl
    | marker slot => rfl
    | table name token => rw [pieceChars, pieceChars, h token List.mem_cons_self]
    | column token name => rw [pieceChars, pieceChars, h token List.mem_cons_self]

/-- Dropping white space at the front leaves a property of pieces that all texts have. -/
theorem forall_mem_trimStart {P : Piece → Prop} (htext : ∀ s, P (.text s)) {f : Fragment}
    (hf : ∀ piece ∈ f, P piece) : ∀ piece ∈ f.trimStart, P piece := by
  induction f with
  | nil => exact hf
  | cons piece rest ih =>
    obtain ⟨hpiece, hrest⟩ := List.forall_mem_cons.mp hf
    cases piece with
    | text s =>
      dsimp only [trimStart]
      split
      · exact ih hrest
      · exact List.forall_mem_cons.mpr ⟨htext _, hrest⟩
    | _ => exact hf

end Fragment

namespace Context

open Resolve

variable {ctx : Context} {opened : Token → String → Prop} {mentioned named : Token → Prop}
  {P : Piece → Prop}

section Operands

variable {scope : Scope} (hscope : ∀ token ∈ scope.token?, named token)
  (htext : ∀ s, P (.text s)) (hcolumn : ∀ {token} name, named token → P (.column token name))

include hscope htext hcolumn

/-- A column of the table at hand is a column of a named table, or a text. -/
theorem qualified_pieces (column : String) :
    ∀ piece ∈ Fragment.qualified scope.token? column, P piece := by
  cases h : scope.token? with
  | none => exact List.forall_mem_singleton.mpr (htext column)
  | some token => exact List.forall_mem_singleton.mpr (hcolumn column (hscope token h))

variable (hreference : ∀ {token name}, ctx.references.lookup token = some name →
  mentioned token → named token)

include hreference

/-- A field is a column of the table at hand, or of the one that it refers to. -/
theorem findColumn_pieces {name : String} :
    (ctx.findColumn scope name).EnsuresWithin mentioned fun found =>
      ∀ piece ∈ found.fragment, P piece := by
  unfold findColumn
  split
  case h_1 token field _ =>
    unfold findReference
    refine .bind ((Ensures.ofOption fun _ h => h).within _) fun table htable => ?_
    refine .bind .trivially fun d _ => .bind .trivially fun column _ => ?_
    refine .bind .mention fun _ htoken => .pure ?_
    exact List.forall_mem_singleton.mpr (hcolumn column (hreference htable htoken))
  case h_2 =>
    exact .bind .trivially fun column _ => .pure (qualified_pieces hscope htext hcolumn column)

/-- The words of an expression are fields, columns or texts, and the rest of it is text. -/
theorem expression_pieces {text : String} :
    (ctx.expression scope text).EnsuresWithin mentioned fun f => ∀ piece ∈ f, P piece := by
  refine .bind (.mapM (R := fun f => ∀ piece ∈ f, P piece) fun part _ => ?_) fun parts hparts =>
    .pure fun piece hpiece => ?_
  · cases part with
    | delimiter c => exact .pure (List.forall_mem_singleton.mpr (htext _))
    | word cs =>
      dsimp only [lexeme]
      split
      · exact .bind (findColumn_pieces hscope htext hcolumn hreference) fun _ hfound =>
          .pure hfound
      · split
        · exact .pure (qualified_pieces hscope htext hcolumn _)
        · exact .pure (List.forall_mem_singleton.mpr (htext _))
  · obtain ⟨f, hf, hmem⟩ := List.mem_flatten.mp hpiece
    exact hparts f hf piece hmem

end Operands

/-- A property of pieces is upheld if texts and markers have it, and columns of the tables that are
named; these are those that are opened and those that are referred to. -/
theorem pieces (htext : ∀ s, P (.text s)) (hmarker : ∀ slot, P (.marker slot))
    (htable : ∀ {token name}, opened token name → mentioned token →
      P (.table name token) ∧ named token)
    (hreference : ∀ {token name}, ctx.references.lookup token = some name → mentioned token →
      named token)
    (hcolumn : ∀ {token} name, named token → P (.column token name)) :
    ctx.Invariant (fun _ => True) opened mentioned
      (fun scope => ∀ token ∈ scope.token?, named token) (fun f => ∀ piece ∈ f, P piece) where
  nil := List.forall_mem_nil _
  append hf hg := List.forall_mem_append.mpr ⟨hf, hg⟩
  fixed s _ := List.forall_mem_singleton.mpr (htext s)
  enclose _ _ _ _ _ _ hf := List.forall_mem_append.mpr
    ⟨List.forall_mem_cons.mpr ⟨htext _, hf⟩, List.forall_mem_singleton.mpr (htext _)⟩
  trimStart := Fragment.forall_mem_trimStart htext
  marker slot := List.forall_mem_singleton.mpr (hmarker slot)
  table hopened htoken := List.forall_mem_singleton.mpr (htable hopened htoken).1
  shownName _ := List.forall_mem_singleton.mpr (htext _)
  scope hopened htoken _ := fun _ hother => Option.mem_some.mp hother ▸ (htable hopened htoken).2
  columns hscope c _ := ⟨qualified_pieces hscope htext hcolumn c.column,
    List.forall_mem_singleton.mpr (htext _)⟩
  key hscope _ := qualified_pieces hscope htext hcolumn _
  find hscope _ := (findColumn_pieces hscope htext hcolumn hreference).mono fun _ hfound =>
    ⟨hfound, List.forall_mem_singleton.mpr (htext _)⟩
  expression hscope _ := expression_pieces hscope htext hcolumn hreference

/-- The tables that a `SELECT` names, from `FROM` to `HAVING`, were mentioned. -/
theorem selectParts_tokens {q : Query} {table : String} {path : Path} {extent : Extent}
    {parts : SelectParts} {t : Trace} (h : (ctx.selectParts table path extent q).Yields parts t) :
    parts.body.tokens ⊆ t.mentioned := by
  -- No demand is made on the opened tables: a token is mentioned where its table is opened.
  have I : ctx.Invariant (fun _ => True) (fun _ _ => True) (· ∈ t.mentioned)
      (fun scope => ∀ token ∈ scope.token?, token ∈ t.mentioned)
      (fun f => ∀ piece ∈ f, ∀ token ∈ piece.token?, token ∈ t.mentioned) :=
    pieces (fun _ _ => nofun) (fun _ _ => nofun)
      (fun _ htoken => ⟨fun _ h => Option.mem_some.mp h ▸ htoken, htoken⟩)
      (fun _ htoken => htoken) (fun _ htoken _ h => Option.mem_some.mp h ▸ htoken)
  have hparts := I.selectParts q (fun _ _ => trivial) trivial (fun _ _ => trivial) parts t h
    fun _ htoken => htoken
  intro token htoken
  obtain ⟨piece, hpiece, heq⟩ := List.mem_filterMap.mp htoken
  exact I.body hparts piece hpiece token heq

end Context

end DynamicSql
