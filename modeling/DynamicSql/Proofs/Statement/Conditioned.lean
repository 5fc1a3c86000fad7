import DynamicSql.Proofs.Resolve.Leaves
import DynamicSql.Proofs.Statement.Description

/-!
# Writes stand under conditions

An update or a deletion whose conditions hold no leaf is refused, whatever its joins demand. In one
that is made, all leaves of its own conditions stand behind `WHERE`, in front of what joins add, and
what joins add can only restrict it further (`writes_conditioned`).
-/

namespace DynamicSql

/-- A text as it is, or in parentheses. -/
def Enclosed (s t : String) : Prop := t = s ∨ t = "(" ++ s ++ ")"

namespace Compiler

/-- A statement that ends in conditions and a tail: behind `WHERE` the whole text of a formula, then
the texts of further formulas, each behind `AND`. Neither the first formula nor any leaf is written
as nothing. -/
def EndsUnder (ctx : Context) (aliases : Aliases) (own : Formula Leaf)
    (joined : List (Formula Leaf)) (head tail sql : String) : Prop :=
  let text := fun F : Formula Leaf => (F.text ctx.written).render ctx.root aliases
  (∀ F ∈ own :: joined, ∀ leaf ∈ F.atoms,
      ctx.Writes leaf ∧ (ctx.written leaf).render ctx.root aliases ≠ "") ∧
    text own ≠ "" ∧ ∃ first others, Enclosed (text own) first ∧
      List.Forall₂ (fun F other => Enclosed (text F) other) joined others ∧
      sql = head ++ " WHERE " ++ first ++ String.join (others.map (" AND " ++ ·)) ++ tail

/-- The context of an update of a table. -/
def updateContext (c : Compiler) (u : Update) (table : String) : Context :=
  ⟨c.schema, c.dialect, c.root, updateReferences u table⟩

/-- The text of an update with a number, under its conditions and those of its joins. Behind them
stand its ordering and its limit. -/
def UpdateText (c : Compiler) (table : String) (u : Update) (n : Nat) (sql : String) : Prop :=
  ∃ aliases own joins sets orders,
    u.conditions.formula? ⟨table, some u.token, (Path.ofRoot n).child "ut"⟩ = some own ∧
    EndsUnder (c.updateContext u table) aliases own
      (formulas (joinedGroups ((Path.ofRoot n).child "cl") 0 u.joins))
      ("UPDATE " ++ table ++ " " ++ aliases.text u.token ++ joins ++ " SET " ++ sets)
      ((SelectParts.clause " ORDER BY " ", " orders).render c.root aliases ++
        Dialect.limitClause u.limit) sql

/-- The text of a deletion under its conditions. -/
def DeleteText (c : Compiler) (table : String) (d : Delete) (sql : String) : Prop :=
  ∃ aliases own,
    d.conditions.formula? ⟨table, none, (Path.ofRoot 0).child "dt"⟩ = some own ∧
    EndsUnder ⟨c.schema, c.dialect, c.root, d.conditions.references⟩ aliases own []
      ("DELETE FROM " ++ table) (Dialect.limitClause d.limit) sql

end Compiler

/-- Leaves that resolve are written as something. -/
theorem written_of_writesAll {ctx : Context} {aliases : Aliases} {Fs : List (Formula Leaf)}
    (h : ∀ F ∈ Fs, ctx.WritesAll F) : ∀ F ∈ Fs, ∀ leaf ∈ F.atoms,
      ctx.Writes leaf ∧ (ctx.written leaf).render ctx.root aliases ≠ "" :=
  fun F hF leaf hleaf => ⟨h F hF leaf hleaf, (h F hF leaf hleaf).inked.visible.render_ne aliases⟩

open Fragment in
/-- Combined conditions are enclosed one by one and stand behind each other. -/
theorem combineWhere_enclosed {ctx : Context} (aliases : Aliases) {own : Formula Leaf}
    {joined : List (Formula Leaf)} (hwrites : ∀ F ∈ own :: joined, ctx.WritesAll F) :
    ∃ first others, Enclosed ((own.text ctx.written).render ctx.root aliases) first ∧
      List.Forall₂ (fun F other => Enclosed ((F.text ctx.written).render ctx.root aliases) other)
        joined others ∧
      (combineWhere ctx.root ((own :: joined).map (Formula.text ctx.written))).render ctx.root
        aliases = first ++ String.join (others.map (" AND " ++ ·)) := by
  have hne : ∀ F ∈ own :: joined, F.text ctx.written ≠ [] := fun F hF =>
    (hwrites F hF).visible.ne_nil
  obtain ⟨hown, hjoined⟩ := List.forall_mem_cons.mp hne
  have hguard : ∀ f : Fragment,
      Enclosed (f.render ctx.root aliases) ((guardOr ctx.root f).render ctx.root aliases) := by
    intro f
    unfold guardOr
    split
    · exact .inr render_parens
    · exact .inl rfl
  rw [List.map_cons, combineWhere_cons hown (List.forall_mem_map.mpr hjoined)]
  cases joined with
  | nil => exact ⟨_, [], .inl rfl, .nil, by simp [String.join]⟩
  | cons F joined =>
    refine ⟨(guardOr ctx.root (own.text ctx.written)).render ctx.root aliases,
      (F :: joined).map fun F => (guardOr ctx.root (F.text ctx.written)).render ctx.root aliases,
      hguard _, ?_, ?_⟩
    · exact List.forall₂_map_right_iff.mpr (List.forall₂_same.mpr fun F _ => hguard _)
    · rw [if_neg (by simp), render_append, List.flatMap_map, render_flatMap, List.map_map]
      simp [Function.comp_def]

namespace Context

open Resolve

variable {ctx : Context} {f : Fragment} {t : Trace} {table : String}

/-- An update that resolves has conditions. -/
theorem update_terms {u : Update} {path : Path} (h : (ctx.update u table path).Yields f t)
    {d : Table} (hd : ctx.schema.table table = .ok d) {terms : List Term} {t' : Trace}
    (hterms : (ctx.groupTerms ⟨table, some u.token, d⟩ (path.child "ut") u.conditions).Yields
      terms t') : terms ≠ [] := by
  rintro rfl
  simp only [update, bind_yields, openScope_yields] at h
  obtain ⟨_, _, _, ⟨d', hd', rfl, rfl⟩, ⟨_, _, _, -, ⟨_, _, _, -, ⟨terms', _, _, hterms', h, -⟩, -⟩,
    -⟩, -⟩ := h
  obtain rfl : d' = d := Except.ok.inj (hd'.symm.trans hd)
  obtain ⟨rfl, -⟩ := Prod.mk.inj (Except.ok.inj (hterms'.symm.trans hterms))
  exact fail_yields h

/-- A deletion that resolves has conditions. -/
theorem delete_terms {d : Delete} (h : (ctx.delete d table).Yields f t)
    {description : Table} (hd : ctx.schema.table table = .ok description) {terms : List Term}
    {t' : Trace}
    (hterms : (ctx.groupTerms ⟨table, none, description⟩ ((Path.ofRoot 0).child "dt")
      d.conditions).Yields terms t') : terms ≠ [] := by
  rintro rfl
  simp only [delete, bind_yields, ofExcept_yields] at h
  obtain ⟨description', _, _, ⟨hd', rfl⟩, ⟨terms', _, _, hterms', h, -⟩, -⟩ := h
  obtain rfl : description' = description := Except.ok.inj (hd'.symm.trans hd)
  obtain ⟨rfl, -⟩ := Prod.mk.inj (Except.ok.inj (hterms'.symm.trans hterms))
  exact fail_yields h

end Context

namespace Compiler

open Fragment

variable {c : Compiler} {table : String} {draft : Draft}

/-- The text of an update that is made has all its conditions behind `WHERE`. -/
theorem updateAt_text {u : Update} {n : Nat} (h : c.updateAt u table n = .ok draft) :
    c.UpdateText table u n (c.render draft) := by
  obtain ⟨ctx, hctx, hupdate⟩ := updateAt_eq_ok h
  obtain ⟨-, rfl⟩ := context_eq_ok hctx
  obtain ⟨d, added, t₁, sets, t₂, terms, t₃, orders, t₄, hd, hadded, -, hterms, -, hf, -⟩ :=
    Context.update_yields hupdate
  have hne := Context.update_terms hupdate hd hterms
  rw [← Context.scopeAt_eq ⟨table, some u.token, (Path.ofRoot n).child "ut"⟩ hd]
    at hterms
  obtain ⟨hnil, -⟩ | ⟨-, own, hown, hwhere, hwrites⟩ := Context.groupTerms_formula hterms
  · exact absurd hnil hne
  obtain ⟨hjoined, hjoinedWrite⟩ := Context.joined_written u.joins hadded
  have hall := List.forall_mem_cons.mpr ⟨hwrites, hjoinedWrite⟩
  obtain ⟨first, others, hfirst, hothers, hcondition⟩ :=
    combineWhere_enclosed (.ofMentions draft.2.mentioned) hall
  refine ⟨.ofMentions draft.2.mentioned, own,
    added.text.render c.root (.ofMentions draft.2.mentioned),
    (Fragment.join ", " sets).render c.root (.ofMentions draft.2.mentioned), orders, hown,
    written_of_writesAll hall, hwrites.visible.render_ne _, first, others, hfirst, hothers, ?_⟩
  rw [List.map_cons] at hcondition
  rw [render, hf, hwhere, hjoined]
  simp only [List.cons_append, render_append, render_text_cons, render_table_cons, render_nil]
  rw [hcondition]
  simp [String.append_assoc]

/-- So has the text of a deletion. -/
theorem deleteDraft_text {d : Delete} (h : c.deleteDraft d table = .ok draft) :
    c.DeleteText table d (c.render draft) := by
  obtain ⟨ctx, hctx, hdelete⟩ := deleteDraft_eq_ok h
  obtain ⟨-, rfl⟩ := context_eq_ok hctx
  obtain ⟨description, terms, hd, hterms, hf⟩ := Context.delete_yields hdelete
  have hne := Context.delete_terms hdelete hd hterms
  rw [← Context.scopeAt_eq ⟨table, none, (Path.ofRoot 0).child "dt"⟩ hd] at hterms
  obtain ⟨hnil, -⟩ | ⟨-, own, hown, hwhere, hwrites⟩ := Context.groupTerms_formula hterms
  · exact absurd hnil hne
  refine ⟨.ofMentions draft.2.mentioned, own, hown, ?_, hwrites.visible.render_ne _, _, [],
    .inl rfl, .nil, ?_⟩
  · exact written_of_writesAll (List.forall_mem_singleton.mpr hwrites)
  · rw [render, hf, hwhere]
    simp [SelectParts.clause, String.join, String.append_assoc]

/-- No update without a condition of its own is resolved. -/
theorem updateAt_leafless {u : Update} (hleafless : u.conditions.isLeafless = true) (n : Nat) :
    ∃ e, c.updateAt u table n = .error e := by
  cases h : c.updateAt u table n with
  | error e => exact ⟨e, rfl⟩
  | ok draft =>
    obtain ⟨aliases, own, _, _, _, hown, -⟩ := updateAt_text h
    rw [(u.conditions.formula?_eq_none_iff _).mpr hleafless] at hown
    cases hown

/-- No deletion without a condition is resolved. -/
theorem deleteDraft_leafless {d : Delete} (hleafless : d.conditions.isLeafless = true) :
    ∃ e, c.deleteDraft d table = .error e := by
  cases h : c.deleteDraft d table with
  | error e => exact ⟨e, rfl⟩
  | ok draft =>
    obtain ⟨aliases, own, hown, -⟩ := deleteDraft_text h
    rw [(d.conditions.formula?_eq_none_iff _).mpr hleafless] at hown
    cases hown

/-- A batch fails where one of its updates does. -/
theorem updateBatch_eq_ok {us : List Update} {s : Statement}
    (h : c.updateBatch us table = .ok s) :
    ∃ drafts, List.Forall₂ (fun x draft => c.updateAt x.1 table x.2 = .ok draft) us.zipIdx drafts ∧
      s.sql = String.join (drafts.map fun draft => c.render draft ++ ";") := by
  obtain ⟨drafts, hdrafts, h⟩ := except_bind_eq_ok.mp h
  obtain rfl := Except.ok.inj h
  exact ⟨drafts, batchDrafts_eq_ok hdrafts, rfl⟩

/-- A write without a leaf among its own conditions is refused, alone or in a batch and whatever its
joins demand. Every update and every deletion that is made ends in its own conditions, each leaf of
them in its place, followed by what its joins demand and by its tail. -/
theorem writes_conditioned (c : Compiler) (table : String) :
    (∀ u : Update, u.conditions.isLeafless = true → ∃ e, c.update u table = .error e) ∧
    (∀ us : List Update, (∃ u ∈ us, u.conditions.isLeafless = true) →
      ∃ e, c.updateBatch us table = .error e) ∧
    (∀ d : Delete, d.conditions.isLeafless = true → ∃ e, c.delete d table = .error e) ∧
    (∀ u s, c.update u table = .ok s → c.UpdateText table u 0 s.sql) ∧
    (∀ us s, c.updateBatch us table = .ok s →
      ∃ sqls, List.Forall₂ (fun x sql => c.UpdateText table x.1 x.2 sql) us.zipIdx sqls ∧
        s.sql = String.join (sqls.map (· ++ ";"))) ∧
    ∀ d s, c.delete d table = .ok s → c.DeleteText table d s.sql := by
  refine ⟨fun u hu => ?_, fun us hus => ?_, fun d hd => ?_, fun u s h => ?_, fun us s h => ?_,
    fun d s h => ?_⟩
  · obtain ⟨e, he⟩ := updateAt_leafless hu 0
    exact ⟨e, by rw [update, he]; rfl⟩
  · obtain ⟨u, hu, hleafless⟩ := hus
    cases h : c.updateBatch us table with
    | error e => exact ⟨e, rfl⟩
    | ok s =>
      -- A batch that is made has a draft for each member, also for the one without a leaf.
      obtain ⟨drafts, hdrafts, -⟩ := updateBatch_eq_ok h
      rw [← List.zipIdx_map_fst 0 us] at hu
      obtain ⟨x, hx, rfl⟩ := List.mem_map.mp hu
      obtain ⟨draft, -, hdraft⟩ := exists_of_forall₂_mem hdrafts.flip hx
      obtain ⟨e, he⟩ := updateAt_leafless hleafless x.2
      rw [he] at hdraft
      cases hdraft
  · obtain ⟨e, he⟩ := deleteDraft_leafless hd
    exact ⟨e, by rw [delete, he]; rfl⟩
  · obtain ⟨draft, hdraft, h⟩ := except_bind_eq_ok.mp h
    obtain rfl := Except.ok.inj h
    exact updateAt_text hdraft
  · obtain ⟨drafts, hdrafts, hsql⟩ := updateBatch_eq_ok h
    refine ⟨drafts.map c.render, ?_, by rw [hsql, List.map_map]; rfl⟩
    exact List.forall₂_map_right_iff.mpr (hdrafts.imp fun x draft hdraft => updateAt_text hdraft)
  · obtain ⟨draft, hdraft, h⟩ := except_bind_eq_ok.mp h
    obtain rfl := Except.ok.inj h
    exact deleteDraft_text hdraft

/-- An update of the orders of one customer is refused, since its own conditions are an empty group,
and each update of a batch stands under its own condition. -/
theorem orderChanges_conditioned :
    (let buyer := HasConditions.compare .equal "name" (.string "b") (.new "c" (some "customer"))
      let u := ((Update.new "a").assign .set "total" (.int 5)).leftJoin
        (.new "customer_id" "id" buyer)
      ∃ e, shop.update { u with conditions := ⟨[], [⟨.or, .empty⟩]⟩ } "orders" = .error e) ∧
    ∃ s, shop.updateBatch orderChanges "orders" = .ok s ∧
      ∃ sqls, List.Forall₂ (fun x sql => shop.UpdateText "orders" x.1 x.2 sql) orderChanges.zipIdx
          sqls ∧
        s.sql = String.join (sqls.map (· ++ ";")) := by
  obtain ⟨hrefused, -, -, -, hbatch, -⟩ := writes_conditioned shop "orders"
  constructor
  · exact hrefused _ rfl
  · obtain ⟨s, hs⟩ : ∃ s, shop.updateBatch orderChanges "orders" = .ok s :=
      except_exists_ok (by decide +kernel)
    exact ⟨s, hs, hbatch _ s hs⟩

end Compiler

end DynamicSql
