import DynamicSql.Proofs.Resolve.Spelling
import DynamicSql.Proofs.Statement.Description

/-!
# Statements under two dialects

What reads or inserts has a statement under one dialect exactly when it has one under the other,
with the same values, and it fails with the same error otherwise; what changes or deletes rows has a
statement under one dialect whenever it has one under the stricter one. The texts are the same where
nothing in them is spelled by the dialect (`dialect_changes_spelling_only`).
-/

namespace DynamicSql

/-- Whether an update is spelled alike in all dialects. -/
def Update.isPortable (u : Update) : Bool :=
  portableJoins u.joins && u.conditions.isPortable && u.orders.all OrderItem.isPortable

namespace Description

/-- Whether a description is spelled alike in all dialects. The window of a page is not. -/
def isPortable : Description → Bool
  | .select q | .findOne q | .page q | .validate q => q.isPortable
  | .pageAt _ _ _ => false
  | .insert _ | .insertRows _ => true
  | .update u => u.isPortable
  | .updateBatch us => us.all Update.isPortable
  | .delete d => d.conditions.isPortable

/-- Whether a description changes or deletes rows. -/
def isChange : Description → Bool
  | .update _ | .updateBatch _ | .delete _ => true
  | _ => false

end Description

/-- Two drafts have the same trace, and where `plain` holds the same text. -/
def Draft.Respelled (plain : Prop) (a b : Draft) : Prop :=
  Spelled plain a.1 b.1 ∧ a.2 = b.2

/-- Two outcomes bind the same values, and where `plain` holds they have the same texts. -/
def Compiled.Respelled (plain : Prop) (a b : Compiled) : Prop :=
  a.params = b.params ∧ (plain → a.texts = b.texts)

/-- A limit makes no difference to whether a query is portable. -/
theorem Query.isPortable_limit (q : Query) (n : UInt64) :
    (q.limit n).isPortable = q.isPortable := by
  cases q
  rfl

/-- Two lists are turned into the same list where their members are turned into the same. -/
theorem map_eq_of_forall₂ {α β γ : Type} {f : α → γ} {g : β → γ} {xs : List α} {ys : List β}
    (h : List.Forall₂ (fun a b => f a = g b) xs ys) : xs.map f = ys.map g := by
  rw [← List.forall₂_eq_eq_eq, List.forall₂_map_left_iff, List.forall₂_map_right_iff]
  exact h

namespace Context

open Resolve

variable {ctx : Context} {dialect : Dialect} {plain : Prop}

/-- In MySQL a writing statement may carry any ordering and any limit. -/
theorem writeTail_respelled {orders orders' : List Fragment} (statement table : String)
    (limit : Option UInt64) (h : Respelled plain List.length orders orders') :
    CoupledOk (Spelled plain) (ofExcept (writeTail dialect statement table orders limit))
      (ofExcept (writeTail .mySql statement table orders' limit)) := by
  rintro ⟨tail, t⟩ hyields
  obtain ⟨htail, rfl⟩ := ofExcept_yields.mp hyields
  obtain rfl := writeTail_eq_ok htail
  exact ⟨(_, .empty), rfl, fun hplain => by rw [h.same hplain], rfl⟩

/-- What can be updated under some dialect can be updated in MySQL. -/
theorem update_respelled {u : Update} {table : String} {path : Path}
    (hplain : plain → u.isPortable) : CoupledOk (Spelled plain) (ctx.update u table path)
      ((ctx.withDialect .mySql).update u table path) := by
  simp only [Update.isPortable, Bool.and_eq_true, List.all_eq_true] at hplain
  unfold update
  refine .after fun scope => ?_
  refine (joined_respelled u.joins scope _ .conditionsOnly 0
    fun h => (hplain h).1.1).coupledOk.bind fun added added' hadded => ?_
  refine .after fun sets => ?_
  refine (groupTerms_respelled u.conditions scope _
    fun h => (hplain h).1.2).coupledOk.bind fun terms terms' hterms => ?_
  rw [hterms.isEmpty]
  split
  · exact .fail _
  · have horders : Coupled .equal (Respelled plain List.length)
        (u.orders.mapM (ctx.orderItem scope))
        (u.orders.mapM ((ctx.withDialect .mySql).orderItem scope)) :=
      mapM_respelled fun item hitem => orderItem_respelled item fun h => (hplain h).2 item hitem
    refine horders.coupledOk.bind fun orders orders' horders => ?_
    refine (writeTail_respelled "update" table u.limit horders).bind fun tail tail' htail => ?_
    exact .pure fun h => by
      rw [hadded.same h, hterms.same h, htail h]
      rfl

/-- What can be deleted under some dialect can be deleted in MySQL. -/
theorem delete_respelled {d : Delete} {table : String}
    (hplain : plain → d.conditions.isPortable) :
    CoupledOk (Spelled plain) (ctx.delete d table) ((ctx.withDialect .mySql).delete d table) := by
  unfold delete
  refine .after fun description => ?_
  refine (groupTerms_respelled d.conditions _ _ hplain).coupledOk.bind
    fun terms terms' hterms => ?_
  rw [hterms.isEmpty]
  split
  · exact .fail _
  · have hnone : Respelled plain List.length ([] : List Fragment) [] := .refl []
    refine (writeTail_respelled "delete" table d.limit hnone).bind fun tail tail' htail => ?_
    exact .pure fun h => by rw [hterms.same h, htail h]

end Context

namespace Compiler

variable {c : Compiler} {dialect : Dialect} {table : String} {plain : Prop}

/-- A compiler for another dialect. -/
def withDialect (c : Compiler) (dialect : Dialect) : Compiler := { c with dialect }

/-- The context of a statement is the same in another dialect, but for the dialect. -/
theorem context_respelled (references : List (Token × String)) :
    Matched Eq (fun ctx ctx' => ctx' = ctx.withDialect dialect) (c.context references)
      ((c.withDialect dialect).context references) :=
  (Matched.same (distinctReferences references) fun _ => rfl).map fun _ _ h => h ▸ rfl

/-- A query is made under both dialects alike. -/
theorem selectDraft_respelled (q : Query) (h : plain → q.isPortable) :
    Matched Eq (Draft.Respelled plain) (c.selectDraft q table)
      ((c.withDialect dialect).selectDraft q table) := by
  refine (context_respelled _).bind fun ctx _ hctx => ?_
  subst hctx
  refine (Context.compoundSelect_respelled q table (.ofRoot 0) h).run_bind
    fun f t g u hfg htu => .ok ?_
  exact ⟨fun hplain => by rw [hfg hplain], htu⟩

/-- So is a page of it. -/
theorem pageDrafts_respelled (q : Query) (h : plain → q.isPortable) :
    Matched Eq (fun x y => Draft.Respelled plain x.1 y.1 ∧ Draft.Respelled plain x.2 y.2)
      (c.pageDrafts q table) ((c.withDialect dialect).pageDrafts q table) := by
  refine (context_respelled _).bind fun ctx _ hctx => ?_
  subst hctx
  split
  · refine (Context.shownParts_respelled q table (.ofRoot 0) h).run_bind
      fun parts t parts' u hparts htu => .ok ⟨⟨fun hplain => ?_, htu⟩, ?_⟩
    · rw [hparts.same hplain]
    · exact ⟨fun hplain => by rw [hparts.same hplain], htu⟩
  · refine (Context.compoundSelect_respelled q table (.ofRoot 0) h).run_bind
      fun f t g u hfg htu => .ok ⟨⟨fun hplain => ?_, htu⟩, hfg, htu⟩
    rw [hfg hplain]

/-- So is the text that counts it. -/
theorem validateDraft_respelled (q : Query) (h : plain → q.isPortable) :
    Matched Eq (Draft.Respelled plain) (c.validateDraft q table)
      ((c.withDialect dialect).validateDraft q table) := by
  refine (context_respelled _).bind fun ctx _ hctx => ?_
  subst hctx
  split
  · refine (Context.selectParts_respelled q table (.ofRoot 0) .counting h).run_bind
      fun parts t parts' u hparts htu => .ok ?_
    exact ⟨fun hplain => by rw [hparts.same hplain], htu⟩
  · refine (Context.compoundSelect_respelled q table (.ofRoot 0) h).run_bind
      fun f t g u hfg htu => .ok ?_
    exact ⟨fun hplain => by rw [hfg hplain], htu⟩

/-- What is refused of an update in MySQL is refused under every dialect. -/
theorem checkUpdate_respelled (u : Update) : MatchedOk (fun _ _ => True) (c.checkUpdate u table)
    ((c.withDialect .mySql).checkUpdate u table) := by
  unfold checkUpdate
  split
  · exact .error _
  · split
    · exact .error _
    · split
      · exact .ok trivial
      · -- In MySQL a joined table may be updated.
        exact fun _ _ => ⟨(), rfl, trivial⟩

/-- An update that has a draft under some dialect has one in MySQL. -/
theorem updateAt_respelled (u : Update) (n : Nat) (h : plain → u.isPortable) :
    MatchedOk (Draft.Respelled plain) (c.updateAt u table n)
      ((c.withDialect .mySql).updateAt u table n) := by
  have hdraft : MatchedOk (Draft.Respelled plain)
      (c.context (updateReferences u table) >>= fun ctx => (ctx.update u table (.ofRoot n)).run)
      ((c.withDialect .mySql).context (updateReferences u table) >>= fun ctx =>
        (ctx.update u table (.ofRoot n)).run) := by
    refine (context_respelled _).matchedOk.bind fun ctx _ hctx => ?_
    subst hctx
    exact Context.update_respelled h
  rw [updateAt_eq, updateAt_eq]
  exact (checkUpdate_respelled u).bind fun _ _ _ => hdraft

/-- Updates that have drafts under some dialect have drafts in MySQL. -/
theorem batchDrafts_respelled (us : List Update) (h : plain → us.all Update.isPortable) :
    MatchedOk (List.Forall₂ (Draft.Respelled plain)) (c.batchDrafts us table)
      ((c.withDialect .mySql).batchDrafts us table) := by
  simp only [List.all_eq_true] at h
  unfold batchDrafts
  split
  · exact .error _
  · refine .mapM (List.forall₂_same.mpr fun x hx => ?_)
    exact updateAt_respelled x.1 x.2 fun hplain => h hplain x.1 (List.fst_mem_of_mem_zipIdx hx)

/-- A deletion that has a draft under some dialect has one in MySQL. -/
theorem deleteDraft_respelled (d : Delete) (h : plain → d.conditions.isPortable) :
    MatchedOk (Draft.Respelled plain) (c.deleteDraft d table)
      ((c.withDialect .mySql).deleteDraft d table) := by
  unfold deleteDraft
  split
  · exact .error _
  · refine (context_respelled _).matchedOk.bind fun ctx _ hctx => ?_
    subst hctx
    exact Context.delete_respelled h

/-- Drafts that differ in spelling only are printed alike where `plain` holds. -/
theorem render_respelled {a b : Draft} (h : a.Respelled plain b) (hplain : plain) :
    c.render a = (c.withDialect dialect).render b := by
  obtain ⟨f, t⟩ := a
  obtain ⟨g, u⟩ := b
  obtain ⟨hfg, htu⟩ := h
  obtain rfl : f = g := hfg hplain
  obtain rfl : t = u := htu
  rfl

/-- Statements of drafts that differ in spelling only. -/
theorem finish_respelled {a b : Draft} (h : a.Respelled plain b) :
    (c.finish a).compiled.Respelled plain ((c.withDialect dialect).finish b).compiled :=
  ⟨congrArg (fun t : Trace => Params.ofBound t.bound) h.2,
    fun hplain => congrArg ([·]) (render_respelled h hplain)⟩

/-- Drafts that are made alike are finished alike. -/
theorem compiled_respelled {x y : Except Error Draft} (h : Matched Eq (Draft.Respelled plain) x y) :
    Matched Eq (Compiled.Respelled plain)
      (do return Statement.compiled (← (do return c.finish (← x))))
      (do return Statement.compiled (← (do return (c.withDialect dialect).finish (← y)))) := by
  refine Matched.bind (R := fun s s' => s.compiled.Respelled plain s'.compiled) ?_
    fun _ _ h => .ok h
  exact h.map fun a b => finish_respelled

/-- The paged forms of a query under two dialects. -/
theorem page_respelled (q : Query) (h : plain → q.isPortable) :
    Matched Eq (fun p p' => Compiled.Respelled plain ⟨[p.countSql, p.baseSql], p.params⟩
        ⟨[p'.countSql, p'.baseSql], p'.params⟩)
      (c.page q table) ((c.withDialect dialect).page q table) := by
  refine (pageDrafts_respelled q h).bind fun x y hxy => .ok ⟨?_, fun hplain => ?_⟩
  · exact congrArg (fun t : Trace => Params.ofBound t.bound) hxy.2.2
  · exact congrArg₂ (fun count base => [count, base]) (render_respelled hxy.1 hplain)
      (render_respelled hxy.2 hplain)

/-- Whether there is a window with a number does not depend on the dialect. -/
theorem pageSql_matched (p p' : PagedStatement) (number size : UInt64) :
    Matched Eq (fun _ _ => True) (p.pageSql number size) (p'.pageSql number size) :=
  (Matched.same (pageOffset number size) fun _ => rfl).bind fun _ _ _ => .ok trivial

/-- What reads or inserts has statements that differ in spelling only, or fails in the same way. -/
theorem compile_respelled {d : Description} (hchange : d.isChange = false)
    (hplain : plain → d.isPortable) : Matched Eq (Compiled.Respelled plain) (c.compile table d)
      ((c.withDialect dialect).compile table d) := by
  cases d with
  | select q => exact compiled_respelled (selectDraft_respelled q hplain)
  | findOne q =>
    exact compiled_respelled (selectDraft_respelled (q.limit 1) (q.isPortable_limit 1 ▸ hplain))
  | page q => exact (page_respelled q hplain).bind fun p p' hp => .ok hp
  | pageAt q number size =>
    -- The window is spelled by the dialect, so only the values are compared.
    have hnever : False → q.isPortable := False.elim
    refine (page_respelled q hnever).bind fun p p' hp => ?_
    exact (pageSql_matched p p' number size).bind fun sql sql' _ =>
      .ok ⟨hp.1, fun h => absurd (hplain h) Bool.false_ne_true⟩
  | validate q => exact compiled_respelled (validateDraft_respelled q hplain)
  | insert row => exact .same _ fun _ => ⟨rfl, fun _ => rfl⟩
  | insertRows rows => exact .same _ fun _ => ⟨rfl, fun _ => rfl⟩
  | update u => cases hchange
  | updateBatch us => cases hchange
  | delete d => cases hchange

/-- A batch of drafts that differ in spelling only. -/
theorem batch_respelled {drafts drafts' : List Draft}
    (h : List.Forall₂ (Draft.Respelled plain) drafts drafts') :
    Compiled.Respelled plain
      ⟨[String.join (drafts.map fun draft => c.render draft ++ ";")],
        .ofBound (drafts.flatMap (·.2.bound))⟩
      ⟨[String.join (drafts'.map fun draft => (c.withDialect dialect).render draft ++ ";")],
        .ofBound (drafts'.flatMap (·.2.bound))⟩ := by
  have hbound : drafts.map (·.2.bound) = drafts'.map (·.2.bound) :=
    map_eq_of_forall₂ (h.imp fun _ _ hab => congrArg Trace.bound hab.2)
  refine ⟨?_, fun hplain => ?_⟩
  · simp only [List.flatMap_def, hbound]
  · have htexts : drafts.map (fun draft => c.render draft ++ ";") =
        drafts'.map fun draft => (c.withDialect dialect).render draft ++ ";" :=
      map_eq_of_forall₂ (h.imp fun _ _ hab => congrArg (· ++ ";") (render_respelled hab hplain))
    simp only [htexts]

/-- What changes or deletes rows has a statement in MySQL whenever it has one under some dialect,
and the statements differ in spelling only. -/
theorem compile_change_respelled {d : Description} (hchange : d.isChange = true)
    (hplain : plain → d.isPortable) : MatchedOk (Compiled.Respelled plain) (c.compile table d)
      ((c.withDialect .mySql).compile table d) := by
  have hsingle : ∀ {x y : Except Error Draft}, MatchedOk (Draft.Respelled plain) x y →
      MatchedOk (Compiled.Respelled plain)
        (do return Statement.compiled (← (do return c.finish (← x))))
        (do return Statement.compiled (← (do return (c.withDialect .mySql).finish (← y)))) := by
    intro x y hxy
    refine MatchedOk.bind (R := fun s s' => s.compiled.Respelled plain s'.compiled) ?_
      fun _ _ h => .ok h
    exact hxy.bind fun a b hab => .ok (finish_respelled hab)
  cases d with
  | update u => exact hsingle (updateAt_respelled u 0 hplain)
  | updateBatch us =>
    refine MatchedOk.bind (R := fun s s' => s.compiled.Respelled plain s'.compiled) ?_
      fun _ _ h => .ok h
    exact (batchDrafts_respelled us hplain).bind fun _ _ h => .ok (batch_respelled h)
  | delete d => exact hsingle (deleteDraft_respelled d hplain)
  | _ => cases hchange

/-- The dialect changes the spelling only. What reads or inserts succeeds under both dialects with
the same values, or fails under both with the same error; what changes or deletes rows succeeds in
MySQL, with the same values, whenever it does in PostgreSQL; and wherever nothing is spelled by the
dialect, the texts are the same. -/
theorem dialect_changes_spelling_only (schema : Schema) (root table : String) (d : Description) :
    (d.isChange = false → Matched Eq (Compiled.Respelled d.isPortable)
      ((Compiler.mk schema .mySql root).compile table d)
      ((Compiler.mk schema .postgreSql root).compile table d)) ∧
    (d.isChange = true → ∀ out, (Compiler.mk schema .postgreSql root).compile table d = .ok out →
      ∃ out', (Compiler.mk schema .mySql root).compile table d = .ok out' ∧
        out.Respelled d.isPortable out') := by
  constructor
  · intro hchange
    exact compile_respelled (c := ⟨schema, .mySql, root⟩) hchange id
  · intro hchange out hout
    exact compile_change_respelled (c := ⟨schema, .postgreSql, root⟩) hchange id out hout

/-- Totals of orders, grouped by a formatted date. -/
def monthlyTotals : Query :=
  ((Query.new "o" (some "orders")).aggregate .sum "total" "sum").groupBy "id" (some "%Y-%m")

/-- Totals are spelled by the dialect, and names of customers and changes of orders are not. -/
theorem shop_dialects :
    (∃ a b, shop.compile "orders" (.select monthlyTotals) = .ok a ∧
      (shop.withDialect .postgreSql).compile "orders" (.select monthlyTotals) = .ok b ∧
      a.params = b.params) ∧
    (∃ a b, shop.compile "customer" (.page frequentCustomers) = .ok a ∧
      (shop.withDialect .postgreSql).compile "customer" (.page frequentCustomers) = .ok b ∧
      a.params = b.params ∧ a.texts = b.texts) ∧
    ∃ a b, (shop.withDialect .postgreSql).compile "orders" (.updateBatch orderChanges) = .ok a ∧
      shop.compile "orders" (.updateBatch orderChanges) = .ok b ∧
      a.params = b.params ∧ a.texts = b.texts := by
  have hboth := dialect_changes_spelling_only shop.schema shop.root
  refine ⟨?_, ?_, ?_⟩
  · obtain ⟨a, ha⟩ : ∃ a, shop.compile "orders" (.select monthlyTotals) = .ok a :=
      except_exists_ok (by decide +kernel)
    obtain ⟨b, hb, hparams, -⟩ := ((hboth "orders" (.select monthlyTotals)).1 rfl).exists_ok ha
    exact ⟨a, b, ha, hb, hparams⟩
  · obtain ⟨a, ha⟩ : ∃ a, shop.compile "customer" (.page frequentCustomers) = .ok a :=
      except_exists_ok (by decide +kernel)
    obtain ⟨b, hb, hparams, htexts⟩ :=
      ((hboth "customer" (.page frequentCustomers)).1 rfl).exists_ok ha
    exact ⟨a, b, ha, hb, hparams, htexts (by decide)⟩
  · obtain ⟨a, ha⟩ : ∃ a, (shop.withDialect .postgreSql).compile "orders"
        (.updateBatch orderChanges) = .ok a := except_exists_ok (by decide +kernel)
    obtain ⟨b, hb, hparams, htexts⟩ := (hboth "orders" (.updateBatch orderChanges)).2 rfl a ha
    exact ⟨a, b, ha, hb, hparams, htexts (by decide)⟩

end Compiler

end DynamicSql
