import DynamicSql.Proofs.Resolve.Succeeds
import DynamicSql.Proofs.Statement.Batches
import DynamicSql.Proofs.Statement.Dialects
import DynamicSql.Proofs.Statement.Joins
import DynamicSql.Proofs.Statement.Qualifiers

/-!
# Updates with an ordering or a limit

An update that is ordered or limited is the same update without both, with two clauses behind it.
PostgreSQL has no form for them, nor for updates of joined tables, and such updates are refused.
MySQL has a form for either, but none for both at once. Since the joins are looked at before
the update is resolved, and the ordering and the limit behind it, they are never looked at
together: a joined update is made with an ordering and a limit as any other update is
(`updates_bounded`).
-/

namespace DynamicSql

/-- Whether a dialect has a form for updates, with joins or without, and with an ordering or a limit
or without. In MySQL, an update of several tables takes neither an ordering nor a limit. -/
def Dialect.hasForm (d : Dialect) (joined bounded : Bool) : Bool :=
  match d with
  | .mySql => !(joined && bounded)
  | .postgreSql => !joined && !bounded

namespace Update

/-- Whether an update joins other tables. -/
def isJoined (u : Update) : Bool := !u.joins.isEmpty

/-- Whether an update has an ordering, or a limit that restricts something. -/
def isBounded (u : Update) : Bool := !u.orders.isEmpty || Dialect.isLimited u.limit

/-- An update without its ordering and its limit. -/
def unbounded (u : Update) : Update := { u with orders := [], limit := none }

end Update

namespace Context

open Resolve

variable {ctx : Context} {u : Update} {table : String} {path : Path} {scope : Scope}

/-- What stands in front of the ordering of an update, and the scope of its table. -/
def updateHead (ctx : Context) (u : Update) (table : String) (path : Path) :
    Resolve (Scope × Fragment) := do
  let scope ← ctx.openScope u.token table
  let joined ← ctx.joined scope (path.child "cl") .conditionsOnly 0 u.joins
  let sets ← assignments scope (!u.joins.isEmpty) (path.child "u") 0 u.sets
  let terms ← ctx.groupTerms scope (path.child "ut") u.conditions
  if terms.isEmpty then fail (.emptyUpdateConditions table)
  else
    return (scope, .text "UPDATE " :: .table table u.token :: joined.text ++
      .text " SET " :: Fragment.join ", " sets ++
      .text " WHERE " :: combineWhere ctx.root (Term.whereText terms :: joined.conditions))

/-- The ordering and the limit of an update. -/
def updateTail (ctx : Context) (u : Update) (table : String) (scope : Scope) :
    Resolve Fragment := do
  let orders ← u.orders.mapM (ctx.orderItem scope)
  ofExcept (writeTail ctx.dialect "update" table orders u.limit)

/-- The ordering and the limit of an update are resolved last. -/
theorem update_eq (u : Update) (table : String) (path : Path) :
    ctx.update u table path = ctx.updateHead u table path >>= fun x =>
      ctx.updateTail u table x.1 >>= fun tail => pure (x.2 ++ tail) := by
  unfold update updateHead updateTail
  simp only [bind_assoc]
  refine bind_congr fun scope => bind_congr fun joined => bind_congr fun sets =>
    bind_congr fun terms => ?_
  split
  · rfl
  · rw [pure_bind]

/-- Without an ordering and a limit, an update is what stands in front of them. -/
theorem update_unbounded (u : Update) (table : String) (path : Path) :
    ctx.update u.unbounded table path =
      ctx.updateHead u table path >>= fun x => pure (x.2 ++ [.text ""]) := by
  have htail : ∀ scope, ctx.updateTail u.unbounded table scope = pure [.text ""] := by
    intro scope
    unfold updateTail Update.unbounded
    rw [List.mapM_nil, pure_bind]
    cases ctx.dialect <;> rfl
  rw [update_eq]
  simp only [htail, pure_bind]
  rfl

/-- In front of its ordering, an update has the scope of its table. -/
theorem updateHead_scope {x : Scope × Fragment} {t : Trace}
    (h : (ctx.updateHead u table path).Yields x t) :
    ∃ d, ctx.schema.table table = .ok d ∧ x.1 = ⟨table, some u.token, d⟩ := by
  simp only [updateHead, bind_yields, openScope_yields] at h
  obtain ⟨_, _, _, ⟨d, hd, rfl, -⟩,
    ⟨_, _, _, -, ⟨_, _, _, -, ⟨terms, _, _, -, h, -⟩, -⟩, -⟩, -⟩ := h
  split at h
  · exact absurd h fail_yields
  · obtain ⟨rfl, -⟩ := pure_yields.mp h
    exact ⟨d, hd, rfl⟩

/-- Behind a writing statement, PostgreSQL has neither an ordering nor a limit. -/
theorem writeTail_eq (d : Dialect) (statement table : String) (orders : List Fragment)
    (limit : Option UInt64) : writeTail d statement table orders limit =
      if d = .postgreSql ∧ (!orders.isEmpty || Dialect.isLimited limit) = true then
        .error (.boundedWrite statement table)
      else .ok (SelectParts.clause " ORDER BY " ", " orders ++
        [.text (Dialect.limitClause limit)]) := by
  unfold writeTail Dialect.checkBounds
  cases d with
  | mySql => rfl
  | postgreSql =>
    simp only [true_and]
    split <;> rfl

/-- Where the entries of the ordering are resolved, they and the limit are refused in PostgreSQL,
unless there are none, and stand one behind the other in MySQL. -/
theorem updateTail_run {orders : List Fragment} {t : Trace}
    (h : (u.orders.mapM (ctx.orderItem scope)).Yields orders t) :
    (ctx.updateTail u table scope).run =
      if ctx.dialect = .postgreSql ∧ u.isBounded = true then
        .error (.boundedWrite "update" table)
      else .ok (SelectParts.clause " ORDER BY " ", " orders ++
        [.text (Dialect.limitClause u.limit)], t) := by
  have hempty : orders.isEmpty = u.orders.isEmpty := by
    rw [Bool.eq_iff_iff, List.isEmpty_iff_length_eq_zero, List.isEmpty_iff_length_eq_zero,
      length_of_mapM_yields h]
  have htail : writeTail ctx.dialect "update" table orders u.limit =
      if ctx.dialect = .postgreSql ∧ u.isBounded = true then .error (.boundedWrite "update" table)
      else .ok (SelectParts.clause " ORDER BY " ", " orders ++
        [.text (Dialect.limitClause u.limit)]) := by
    rw [writeTail_eq, hempty, Update.isBounded]
  unfold Yields at h
  rw [updateTail, run_bind, h]
  dsimp only
  rw [htail]
  by_cases hrefused : ctx.dialect = .postgreSql ∧ u.isBounded = true
  · rw [if_pos hrefused, if_pos hrefused]
    rfl
  · rw [if_neg hrefused, if_neg hrefused]
    exact congrArg (fun t => Except.ok (_, t)) (Trace.append_empty t)

/-- What is resolved for an ordering and a limit. -/
theorem updateTail_yields {f : Fragment} {t : Trace}
    (h : (ctx.updateTail u table scope).Yields f t) :
    ∃ orders, (u.orders.mapM (ctx.orderItem scope)).Yields orders t ∧
      ¬(ctx.dialect = .postgreSql ∧ u.isBounded = true) ∧
      f = SelectParts.clause " ORDER BY " ", " orders ++
        [.text (Dialect.limitClause u.limit)] := by
  obtain ⟨orders, t₁, t₂, horders, hbehind, rfl⟩ := bind_yields.mp h
  obtain ⟨-, rfl⟩ := ofExcept_yields.mp hbehind
  rw [Trace.append_empty] at h ⊢
  have hrun := h.symm.trans (updateTail_run horders)
  split at hrun
  case isTrue => cases hrun
  case isFalse hform => exact ⟨orders, horders, hform, (Prod.mk.inj (Except.ok.inj hrun)).1⟩

/-- The tables that an update names were mentioned. -/
theorem update_tokens {f : Fragment} {t : Trace} (h : (ctx.update u table path).Yields f t) :
    f.tokens ⊆ t.mentioned := by
  have hnamed : ∀ {piece : Piece} {token : Token}, piece.token? = some token →
      token ∈ t.mentioned → ∀ other ∈ piece.token?, other ∈ t.mentioned := by
    intro piece token hpiece htoken other hother
    rw [hpiece] at hother
    exact Option.mem_some.mp hother ▸ htoken
  have hcolumn : ∀ {token : Token} (name : String), token ∈ t.mentioned →
      ∀ other ∈ (Piece.column token name).token?, other ∈ t.mentioned := fun _ => hnamed rfl
  have htable : ∀ {token : Token} {name : String}, True → token ∈ t.mentioned →
      (∀ other ∈ (Piece.table name token).token?, other ∈ t.mentioned) ∧ token ∈ t.mentioned :=
    fun _ htoken => ⟨hnamed rfl htoken, htoken⟩
  have hpieces : (ctx.update u table path).EnsuresWithin (· ∈ t.mentioned) fun f =>
      ∀ piece ∈ f, ∀ token ∈ piece.token?, token ∈ t.mentioned :=
    update_pieces (fun _ _ => nofun) (fun _ _ => nofun) hcolumn htable
      (fun _ htoken => htoken) fun _ _ => trivial
  intro token htoken
  obtain ⟨piece, hpiece, heq⟩ := List.mem_filterMap.mp htoken
  exact hpieces f t h (fun _ hmentioned => hmentioned) piece hpiece token heq

/-- The text of an update fails as it does without its ordering and its limit, or these are resolved
behind what it is without them. -/
theorem update_outcome (ctx : Context) (u : Update) (table : String) (path : Path) :
    (∃ e, (ctx.update u.unbounded table path).run = .error e ∧
      (ctx.update u table path).run = .error e) ∨
    ∃ d head t, ctx.schema.table table = .ok d ∧
      (ctx.update u.unbounded table path).Yields (head ++ [.text ""]) t ∧
      Fragment.tokens head ⊆ t.mentioned ∧
      (ctx.update u table path).run =
        (ctx.updateTail u table ⟨table, some u.token, d⟩).run.map fun x =>
          (head ++ x.1, t ++ x.2) := by
  cases hhead : (ctx.updateHead u table path).run with
  | error e =>
    refine .inl ⟨e, ?_, ?_⟩
    · rw [update_unbounded, run_bind, hhead]
    · rw [update_eq, run_bind, hhead]
  | ok x =>
    obtain ⟨⟨scope, head⟩, t⟩ := x
    obtain ⟨d, hd, hscope⟩ := updateHead_scope hhead
    obtain rfl : scope = _ := hscope
    have hunbounded : (ctx.update u.unbounded table path).Yields (head ++ [.text ""]) t := by
      rw [update_unbounded]
      exact bind_yields.mpr ⟨_, t, .empty, hhead, pure_yields.mpr ⟨rfl, rfl⟩,
        (Trace.append_empty t).symm⟩
    have htokens := update_tokens hunbounded
    have hhere : Fragment.tokens head ⊆ t.mentioned := fun _ htoken =>
      htokens (((List.sublist_append_left head _).filterMap Piece.token?).subset htoken)
    refine .inr ⟨d, head, t, hd, hunbounded, hhere, ?_⟩
    rw [update_eq, run_bind, hhead]
    dsimp only
    rw [run_map]
    cases (ctx.updateTail u table _).run <;> rfl

end Context

namespace Compiler

variable {c : Compiler} {u : Update} {table : String}

/-- The entries of the ordering of an update can be looked up. -/
def FindsOrders (c : Compiler) (u : Update) (table : String) : Prop :=
  ∀ d, c.schema.find? table = some d →
    ∀ item ∈ u.orders, (c.updateContext u table).Finds d item.lookup

/-- PostgreSQL refuses a joined update before anything is resolved. -/
theorem checkUpdate_joined (table : String) (hdialect : c.dialect = .postgreSql)
    (hjoined : u.isJoined = true) :
    ∃ e, c.checkUpdate u table = .error e ∧ e.kind = .invalidProvider := by
  unfold checkUpdate
  split
  · exact ⟨_, rfl, rfl⟩
  · split
    · exact ⟨_, rfl, rfl⟩
    · have hjoins : u.joins.isEmpty = false := Bool.not_eq_true' _ ▸ hjoined
      rw [hdialect, hjoins]
      exact ⟨_, rfl, rfl⟩

/-- An update fails as it does without its ordering and its limit, or these are resolved behind what
it is without them. -/
theorem updateAt_outcome (c : Compiler) (u : Update) (table : String) :
    (∃ e, c.updateAt u.unbounded table 0 = .error e ∧ c.updateAt u table 0 = .error e) ∨
    ∃ d head t, c.schema.table table = .ok d ∧
      c.updateAt u.unbounded table 0 = .ok (head ++ [.text ""], t) ∧
      Fragment.tokens head ⊆ t.mentioned ∧ ¬(c.dialect = .postgreSql ∧ u.isJoined = true) ∧
      c.updateAt u table 0 = ((c.updateContext u table).updateTail u table
        ⟨table, some u.token, d⟩).run.map fun x => (head ++ x.1, t ++ x.2) := by
  -- Neither the checks nor the tables of an update depend on its ordering and its limit.
  have hsame : c.checkUpdate u.unbounded table = c.checkUpdate u table := rfl
  have htables : updateReferences u.unbounded table = updateReferences u table := rfl
  rw [updateAt_eq, updateAt_eq, hsame, htables]
  cases hcheck : c.checkUpdate u table with
  | error e => exact .inl ⟨e, rfl, rfl⟩
  | ok _ =>
    have hform : ¬(c.dialect = .postgreSql ∧ u.isJoined = true) := fun ⟨hdialect, hjoined⟩ => by
      obtain ⟨e, he, -⟩ := checkUpdate_joined table hdialect hjoined
      cases hcheck.symm.trans he
    cases hctx : c.context (updateReferences u table) with
    | error e => exact .inl ⟨e, rfl, rfl⟩
    | ok ctx =>
      obtain rfl : ctx = c.updateContext u table := (context_eq_ok hctx).2
      obtain herror | ⟨d, head, t, hd, hunbounded, htokens, hrun⟩ :=
        (c.updateContext u table).update_outcome u table (.ofRoot 0)
      · exact .inl herror
      · exact .inr ⟨d, head, t, hd, hunbounded, htokens, hform, hrun⟩

/-- What an update that is made looks like: the update without its ordering and its limit is made,
too, the ordering is found, and both are in front of them and behind it. -/
theorem update_bounded {s : Statement} (h : c.update u table = .ok s) :
    ¬(c.dialect = .postgreSql ∧ (u.isJoined = true ∨ u.isBounded = true)) ∧
    ∃ draft base d orders, c.updateAt u table 0 = .ok draft ∧
      c.update u.unbounded table = .ok base ∧ c.schema.find? table = some d ∧
      List.Forall₂ (fun item f =>
        ((c.updateContext u table).orderItem ⟨table, some u.token, d⟩ item).Gives f) u.orders
        orders ∧
      s.sql = base.sql ++ clauseText " ORDER BY " ", "
        (orders.map (Fragment.render c.root (.ofMentions draft.2.mentioned))) ++
        Dialect.limitClause u.limit ∧
      s.params = base.params := by
  obtain ⟨draft, hdraft, rfl⟩ := update_eq_ok.mp h
  obtain ⟨e, -, he⟩ | ⟨d, head, t, hd, hbase, htokens, hjoined, hrun⟩ :=
    c.updateAt_outcome u table
  · cases he.symm.trans hdraft
  · rw [hdraft] at hrun
    cases htail : ((c.updateContext u table).updateTail u table ⟨table, some u.token, d⟩).run with
    | error e =>
      rw [htail] at hrun
      cases hrun
    | ok x =>
      obtain ⟨f, t'⟩ := x
      rw [htail] at hrun
      obtain rfl := Except.ok.inj hrun
      obtain ⟨orders, horders, hbounded, rfl⟩ := Context.updateTail_yields htail
      have hbound := (Context.mapM_bare (fun _ _ _ => Context.orderItem_bare) horders).bound
      refine ⟨fun hrefused => hrefused.2.elim (fun h => hjoined ⟨hrefused.1, h⟩)
        fun h => hbounded ⟨hrefused.1, h⟩, _, _, d, orders, hdraft,
        update_eq_ok.mpr ⟨_, hbase, rfl⟩, Schema.table_eq_ok.mp hd, Context.mapM_gives horders,
        ?_, ?_⟩
      · -- What is mentioned for the ordering comes last, so it changes no alias in front of it.
        have hhead : Fragment.render c.root (.ofMentions (t.mentioned ++ t'.mentioned)) head =
            Fragment.render c.root (.ofMentions t.mentioned) head := by
          unfold Fragment.render
          rw [Fragment.chars_congr fun token htoken =>
            Aliases.text_ofMentions_append (htokens htoken) t'.mentioned]
        unfold finish render
        simp only [Fragment.render_append, Trace.mentioned_append, hhead, render_clause,
          Fragment.render_text_cons, Fragment.render_nil, String.append_empty,
          String.append_assoc]
      · unfold finish
        rw [Trace.bound_append, hbound, List.append_nil]

/-- An update that is made looks all entries of its ordering up. -/
theorem findsOrders_of_update {s : Statement} (h : c.update u table = .ok s) :
    c.FindsOrders u table := by
  obtain ⟨-, _, _, d, orders, -, -, hd, horders, -⟩ := update_bounded h
  intro d' hd' item hitem
  obtain rfl : d = d' := Option.some.inj (hd.symm.trans hd')
  obtain ⟨f, -, t, hf⟩ := exists_of_forall₂_mem horders.flip hitem
  exact Context.orderItem_succeeds.mp ⟨f, t, hf⟩

/-- What fails without an ordering and a limit fails with them, in the same way. -/
theorem update_eq_error_of_unbounded {e : Error} (h : c.update u.unbounded table = .error e) :
    c.update u table = .error e := by
  have hunbounded := update_eq_error.mp h
  obtain ⟨e', he, he'⟩ | ⟨_, _, _, -, hbase, -⟩ := c.updateAt_outcome u table
  · obtain rfl := Except.error.inj (he.symm.trans hunbounded)
    exact update_eq_error.mpr he'
  · cases hbase.symm.trans hunbounded

/-- Where an update is made without its ordering and its limit and the ordering is found, it is
made with them unless PostgreSQL refuses them. -/
theorem update_of_unbounded {base : Statement} (h : c.update u.unbounded table = .ok base)
    (horders : c.FindsOrders u table) :
    if c.dialect = .postgreSql ∧ u.isBounded = true then
      c.update u table = .error (.boundedWrite "update" table)
    else ∃ s, c.update u table = .ok s := by
  obtain ⟨draft, hdraft, -⟩ := update_eq_ok.mp h
  obtain ⟨e, he, -⟩ | ⟨d, head, t, hd, -, -, -, hrun⟩ := c.updateAt_outcome u table
  · cases he.symm.trans hdraft
  · obtain ⟨orders, t', hyields⟩ :
        (u.orders.mapM ((c.updateContext u table).orderItem
          ⟨table, some u.token, d⟩)).Succeeds :=
      Resolve.mapM_succeeds.mpr fun item hitem =>
        Context.orderItem_succeeds.mpr (horders d (Schema.table_eq_ok.mp hd) item hitem)
    rw [Context.updateTail_run hyields] at hrun
    have hdialect : (c.updateContext u table).dialect = c.dialect := rfl
    rw [hdialect] at hrun
    split at hrun
    case isTrue hrefused =>
      rw [if_pos hrefused]
      exact update_eq_error.mpr hrun
    case isFalse hform =>
      rw [if_neg hform]
      exact exists_update_eq_ok.mpr ⟨_, hrun⟩

/-- In PostgreSQL, no joined update is made. -/
theorem update_joined (hdialect : c.dialect = .postgreSql) (hjoined : u.isJoined = true) :
    ∃ e, c.update u table = .error e ∧ e.kind = .invalidProvider := by
  obtain ⟨e, he, hkind⟩ := checkUpdate_joined table hdialect hjoined
  refine ⟨e, update_eq_error.mpr ?_, hkind⟩
  rw [updateAt_eq, he]
  rfl

/-- An update for which the dialect has no form is refused, unless it is a joined update with an
ordering or a limit in MySQL. PostgreSQL refuses joined updates, and it refuses an ordering and a
limit where the update is made without them. In MySQL an update is made with an ordering and a limit
whenever it is made without them and the ordering is found, and they stand behind it, whether it is
joined or not. All of this holds for the members of a batch, as each of them is made alone. -/
theorem updates_bounded (c : Compiler) (u : Update) (table : String) :
    (∀ s, c.update u table = .ok s → c.dialect.hasForm u.isJoined u.isBounded = true ∨
      c.dialect = .mySql ∧ u.isJoined = true ∧ u.isBounded = true) ∧
    (c.dialect = .postgreSql →
      (u.isJoined = true → ∃ e, c.update u table = .error e ∧ e.kind = .invalidProvider) ∧
      (u.isBounded = true → c.FindsOrders u table → (∃ s, c.update u.unbounded table = .ok s) →
        c.update u table = .error (.boundedWrite "update" table))) ∧
    (∀ e, c.update u.unbounded table = .error e → c.update u table = .error e) ∧
    (c.dialect = .mySql →
      ((∃ s, c.update u table = .ok s) ↔
        c.FindsOrders u table ∧ ∃ s, c.update u.unbounded table = .ok s) ∧
      ∀ s, c.update u table = .ok s → ∃ draft base d orders,
        c.updateAt u table 0 = .ok draft ∧ c.update u.unbounded table = .ok base ∧
        c.schema.find? table = some d ∧
        List.Forall₂ (fun item f =>
          ((c.updateContext u table).orderItem ⟨table, some u.token, d⟩ item).Gives f) u.orders
          orders ∧
        s.sql = base.sql ++ clauseText " ORDER BY " ", "
          (orders.map (Fragment.render c.root (.ofMentions draft.2.mentioned))) ++
          Dialect.limitClause u.limit ∧
        s.params = base.params) ∧
    ∀ us s, c.updateBatch us table = .ok s → ∀ v ∈ us, ∃ s, c.update v table = .ok s := by
  refine ⟨fun s hs => ?_,
    fun hdialect => ⟨update_joined hdialect, fun hbounded horders hbase => ?_⟩,
    fun e => update_eq_error_of_unbounded, fun hdialect => ⟨⟨fun hs => ?_, fun h => ?_⟩,
      fun s hs => (update_bounded hs).2⟩, fun us s hs => (exists_updateBatch_eq_ok.mp ⟨s, hs⟩).2⟩
  · have hform := (update_bounded hs).1
    cases hdialect : c.dialect <;> cases hjoined : u.isJoined <;> cases hbounded : u.isBounded <;>
      simp [Dialect.hasForm, hdialect, hjoined, hbounded] at hform ⊢
  · obtain ⟨base, hbase⟩ := hbase
    have houtcome := update_of_unbounded hbase horders
    rwa [if_pos ⟨hdialect, hbounded⟩] at houtcome
  · obtain ⟨s, hs⟩ := hs
    obtain ⟨-, _, base, _, _, -, hbase, -⟩ := update_bounded hs
    exact ⟨findsOrders_of_update hs, base, hbase⟩
  · obtain ⟨horders, base, hbase⟩ := h
    have houtcome := update_of_unbounded hbase horders
    rw [hdialect] at houtcome
    rwa [if_neg fun h => nomatch h.1] at houtcome

/-- A change of the largest total of an order. -/
def largestChange : Update :=
  ((HasConditions.byId (.int 1) ((Update.new "a").assign .set "total" (.int 5))).order "total"
    .descending).limited 1

/-- The same change with the customer of the order. -/
def joinedChange : Update :=
  largestChange.leftJoin (.new "customer_id" "id" (.new "c" (some "customer")))

/-- The ordering of this change is found in every dialect. -/
theorem largestChange_findsOrders (d : Dialect) :
    (shop.withDialect d).FindsOrders largestChange "orders" := by
  intro d hd item hitem
  have hname : reference? "total" = none := by decide +kernel
  obtain rfl := Option.some.inj hd
  obtain rfl := List.mem_singleton.mp hitem
  simp only [OrderItem.lookup, Context.Finds, Context.Knows, hname]
  rfl

/-- MySQL has no form for the joined change with its ordering and its limit, and it is made, alone
and in a batch. PostgreSQL refuses it, and the change without the customer, too. -/
theorem joinedChange_bounded :
    Dialect.mySql.hasForm joinedChange.isJoined joinedChange.isBounded = false ∧
    (∃ s base items, shop.update joinedChange "orders" = .ok s ∧
      shop.update joinedChange.unbounded "orders" = .ok base ∧
      s.sql = base.sql ++ clauseText " ORDER BY " ", " items ++ " LIMIT 1" ∧
      s.sql = "UPDATE orders t0 LEFT JOIN customer t1 ON (t0.customer_id = t1.id) " ++
        "SET t0.total = #\x7brequest.field.field_v0_u_0\x7d " ++
        "WHERE t0.id = #\x7brequest.filter.filter_v0_ut_0\x7d " ++
        "ORDER BY t0.total DESC LIMIT 1") ∧
    (∃ s, shop.updateBatch [joinedChange, largestChange] "orders" = .ok s ∧
      ∀ u ∈ [joinedChange, largestChange], ∃ s, shop.update u "orders" = .ok s) ∧
    (∃ e, (shop.withDialect .postgreSql).update joinedChange "orders" = .error e ∧
      e.kind = .invalidProvider) ∧
    (shop.withDialect .postgreSql).update largestChange "orders" =
      .error (.boundedWrite "update" "orders") := by
  obtain ⟨-, -, -, hmySql, hbatch⟩ := updates_bounded shop joinedChange "orders"
  obtain ⟨-, hjoined, -⟩ :=
    updates_bounded (shop.withDialect .postgreSql) joinedChange "orders"
  obtain ⟨-, hbounded, -⟩ :=
    updates_bounded (shop.withDialect .postgreSql) largestChange "orders"
  refine ⟨rfl, ?_, ?_, (hjoined rfl).1 rfl, ?_⟩
  · obtain ⟨s, hs⟩ : ∃ s, shop.update joinedChange "orders" = .ok s :=
      except_exists_ok (by decide +kernel)
    have htext : (shop.update joinedChange "orders").toOption.map (·.sql) = some
        ("UPDATE orders t0 LEFT JOIN customer t1 ON (t0.customer_id = t1.id) " ++
          "SET t0.total = #\x7brequest.field.field_v0_u_0\x7d " ++
          "WHERE t0.id = #\x7brequest.filter.filter_v0_ut_0\x7d " ++
          "ORDER BY t0.total DESC LIMIT 1") := by decide +kernel
    rw [hs] at htext
    obtain ⟨_, base, _, _, -, hbase, -, -, hsql, -⟩ := (hmySql rfl).2 s hs
    have hlimit : Dialect.limitClause joinedChange.limit = " LIMIT 1" := by decide +kernel
    rw [hlimit] at hsql
    exact ⟨s, base, _, hs, hbase, hsql, Option.some.inj htext⟩
  · obtain ⟨s, hs⟩ : ∃ s, shop.updateBatch [joinedChange, largestChange] "orders" = .ok s :=
      except_exists_ok (by decide +kernel)
    exact ⟨s, hs, hbatch _ s hs⟩
  · exact (hbounded rfl).2 rfl (largestChange_findsOrders .postgreSql)
      (except_exists_ok (by decide +kernel))

end Compiler

end DynamicSql
