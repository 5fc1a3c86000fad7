import DynamicSql.Proofs.Resolve.Steps
import DynamicSql.Statement.Read
import DynamicSql.Statement.Write

/-!
# How drafts come about

For every kind of draft, what was resolved when it came about, and what was made of it. Later
modules never open the definitions of drafts.
-/

namespace DynamicSql

/-- Two steps in a row succeed when each does. -/
theorem except_bind_eq_ok {α β : Type} {x : Except Error α} {f : α → Except Error β} {b : β} :
    (x >>= f) = .ok b ↔ ∃ a, x = .ok a ∧ f a = .ok b := by
  cases x with
  | error e =>
    constructor
    · intro h
      cases h
    · rintro ⟨_, h, -⟩
      cases h
  | ok a =>
    constructor
    · intro h
      exact ⟨a, rfl, h⟩
    · rintro ⟨_, h, hf⟩
      obtain rfl := Except.ok.inj h
      exact hf

/-- What is known to succeed has a result. -/
theorem except_exists_ok {ε α : Type} {x : Except ε α} (h : x.isOk = true) : ∃ a, x = .ok a := by
  cases x with
  | error e => cases h
  | ok a => exact ⟨a, rfl⟩

/-- Several steps succeed when each does. -/
theorem except_mapM_eq_ok {α β : Type} {f : α → Except Error β} {xs : List α} {ys : List β} :
    xs.mapM f = .ok ys ↔ List.Forall₂ (fun x y => f x = .ok y) xs ys := by
  induction xs generalizing ys with
  | nil =>
    rw [List.mapM_nil, List.forall₂_nil_left_iff]
    exact ⟨fun h => (Except.ok.inj h).symm, fun h => h ▸ rfl⟩
  | cons x xs ih =>
    rw [List.mapM_cons, except_bind_eq_ok, List.forall₂_cons_left_iff]
    constructor
    · rintro ⟨y, hy, h⟩
      obtain ⟨rest, hrest, h⟩ := except_bind_eq_ok.mp h
      exact ⟨y, rest, hy, ih.mp hrest, (Except.ok.inj h).symm⟩
    · rintro ⟨y, rest, hy, hrest, rfl⟩
      exact ⟨y, hy, except_bind_eq_ok.mpr ⟨rest, ih.mpr hrest, rfl⟩⟩

/-- A field is written to the column that it stands for. -/
theorem Table.writeColumn_eq_ok {t : Table} {name field column : String} :
    t.writeColumn name field = .ok column ↔ t.resolve? field = some column := by
  unfold writeColumn
  cases t.resolve? field <;> simp

/-- Rows pass when they have the fields of the first one. -/
theorem checkRows_eq_ok {table : String} {fields : List String} {rows : List Insert} {r : Nat} :
    checkRows table fields r rows = .ok () ↔ ∀ row ∈ rows, row.fields = fields := by
  induction rows generalizing r with
  | nil => exact iff_of_true rfl (List.forall_mem_nil _)
  | cons row rest ih =>
    rw [checkRows, List.forall_mem_cons]
    split
    case isTrue heq => rw [ih, and_iff_right heq]
    case isFalse hne => exact iff_of_false (fun h => nomatch h) fun h => hne h.1

namespace Context

open Resolve

variable {ctx : Context} {f : Fragment} {t : Trace}

/-- Each assignment looks its column up and binds its value. -/
theorem assignments_cons_yields {scope : Scope} {qualify : Bool} {path : Path} {i : Nat}
    {a : Assignment} {rest : List Assignment} {fs : List Fragment}
    (h : (assignments scope qualify path i (a :: rest)).Yields fs t) :
    ∃ column others t', scope.table.resolve? a.field = some column ∧
      (assignments scope qualify path (i + 1) rest).Yields others t' ∧
      fs = assignmentText a.change (.qualified (if qualify then scope.token? else none) column)
        (.marker ⟨.assigned, path, i, none⟩) :: others ∧
      t = ⟨[], [(⟨.assigned, path, i, none⟩, a.value)]⟩ ++ t' := by
  simp only [assignments, bind_yields, ofExcept_yields, bound_yields, pure_yields] at h
  obtain ⟨column, _, _, ⟨hcolumn, rfl⟩, ⟨_, _, _, ⟨rfl, rfl⟩, ⟨others, t', _, hothers, ⟨rfl, rfl⟩,
    rfl⟩, rfl⟩, rfl⟩ := h
  exact ⟨column, others, t', Table.writeColumn_eq_ok.mp hcolumn, hothers, rfl,
    by rw [Trace.empty_append, Trace.append_empty]⟩

/-- Behind a writing statement stand its ordering and its limit. -/
theorem writeTail_eq_ok {d : Dialect} {statement table : String} {orders : List Fragment}
    {limit : Option UInt64} (h : writeTail d statement table orders limit = .ok f) :
    f = SelectParts.clause " ORDER BY " ", " orders ++ [.text (Dialect.limitClause limit)] := by
  obtain ⟨_, -, h⟩ := except_bind_eq_ok.mp h
  exact (Except.ok.inj h).symm

/-- An update resolves its joins, its assignments, its conditions and its ordering. -/
theorem update_yields {u : Update} {table : String} {path : Path}
    (h : (ctx.update u table path).Yields f t) :
    ∃ d added t₁ sets t₂ terms t₃ orders t₄, ctx.schema.table table = .ok d ∧
      (ctx.joined ⟨table, some u.token, d⟩ (path.child "cl") .conditionsOnly 0
        u.joins).Yields added t₁ ∧
      (assignments ⟨table, some u.token, d⟩ (!u.joins.isEmpty) (path.child "u") 0
        u.sets).Yields sets t₂ ∧
      (ctx.groupTerms ⟨table, some u.token, d⟩ (path.child "ut") u.conditions).Yields terms t₃ ∧
      (u.orders.mapM (ctx.orderItem ⟨table, some u.token, d⟩)).Yields orders t₄ ∧
      f = .text "UPDATE " :: .table table u.token :: added.text ++
        .text " SET " :: Fragment.join ", " sets ++
        .text " WHERE " :: combineWhere ctx.root (Term.whereText terms :: added.conditions) ++
        (SelectParts.clause " ORDER BY " ", " orders ++
          [.text (Dialect.limitClause u.limit)]) ∧
      t = ⟨[u.token], []⟩ ++ (t₁ ++ (t₂ ++ (t₃ ++ t₄))) := by
  simp only [update, bind_yields, openScope_yields] at h
  obtain ⟨_, _, _, ⟨d, hd, rfl, rfl⟩, ⟨added, t₁, _, hadded, ⟨sets, t₂, _, hsets,
    ⟨terms, t₃, _, hterms, h, rfl⟩, rfl⟩, rfl⟩, rfl⟩ := h
  split at h
  · exact absurd h fail_yields
  · simp only [bind_yields, ofExcept_yields, pure_yields] at h
    obtain ⟨orders, t₄, _, horders, ⟨tail, _, _, ⟨htail, rfl⟩, ⟨rfl, rfl⟩, rfl⟩, rfl⟩ := h
    obtain rfl := writeTail_eq_ok htail
    exact ⟨d, added, t₁, sets, t₂, terms, t₃, orders, t₄, hd, hadded, hsets, hterms, horders, rfl,
      by simp only [Trace.append_empty]⟩

/-- A deletion resolves its conditions. -/
theorem delete_yields {d : Delete} {table : String} (h : (ctx.delete d table).Yields f t) :
    ∃ description terms, ctx.schema.table table = .ok description ∧
      (ctx.groupTerms ⟨table, none, description⟩ ((Path.ofRoot 0).child "dt")
        d.conditions).Yields terms t ∧
      f = .text ("DELETE FROM " ++ table ++ " WHERE ") :: Term.whereText terms ++
        (SelectParts.clause " ORDER BY " ", " [] ++ [.text (Dialect.limitClause d.limit)]) := by
  simp only [delete, bind_yields, ofExcept_yields] at h
  obtain ⟨description, _, _, ⟨hd, rfl⟩, ⟨terms, t₁, _, hterms, h, rfl⟩, rfl⟩ := h
  split at h
  · exact absurd h fail_yields
  · simp only [bind_yields, ofExcept_yields, pure_yields] at h
    obtain ⟨tail, _, _, ⟨htail, rfl⟩, ⟨rfl, rfl⟩, rfl⟩ := h
    obtain rfl := writeTail_eq_ok htail
    exact ⟨description, terms, hd, by simpa using hterms, rfl⟩

end Context

namespace Compiler

variable {c : Compiler} {q : Query} {table : String} {draft : Draft}

/-- The context of a statement holds what the compiler holds, and tables with tokens of their
own. -/
theorem context_eq_ok {references : List (Token × String)} {ctx : Context}
    (h : c.context references = .ok ctx) :
    checkTokens [] references = .ok () ∧ ctx = ⟨c.schema, c.dialect, c.root, references⟩ := by
  unfold context distinctReferences at h
  obtain ⟨checked, hchecked, h⟩ := except_bind_eq_ok.mp h
  obtain ⟨_, hcheck, hreferences⟩ := except_bind_eq_ok.mp hchecked
  obtain rfl := Except.ok.inj hreferences
  exact ⟨hcheck, (Except.ok.inj h).symm⟩

/-- A statement that is finished from a draft has what every such draft has. -/
theorem exists_draft_of_finish {x : Except Error Draft} {s : Statement} {P : Draft → Prop}
    (h : (do return c.finish (← x)) = .ok s) (hP : ∀ draft, x = .ok draft → P draft) :
    ∃ draft, x = .ok draft ∧ s = c.finish draft ∧ P draft := by
  obtain ⟨draft, hdraft, h⟩ := except_bind_eq_ok.mp h
  exact ⟨draft, hdraft, (Except.ok.inj h).symm, hP draft hdraft⟩

/-- The draft of a query is its text with its unions and its limit. -/
theorem selectDraft_eq_ok (h : c.selectDraft q table = .ok draft) :
    ∃ ctx f, c.queryContext q table = .ok ctx ∧
      (ctx.compoundSelect table (.ofRoot 0) q).Yields f draft.2 ∧
      draft.1 = f ++ [.text (Dialect.limitClause q.clauses.limit)] := by
  obtain ⟨ctx, hctx, h⟩ := except_bind_eq_ok.mp h
  obtain ⟨⟨f, trace⟩, hf, h⟩ := except_bind_eq_ok.mp h
  obtain rfl := Except.ok.inj h
  exact ⟨ctx, f, hctx, hf, rfl⟩

/-- A query without unions is counted by its rows or its groups, and one with unions as a whole. -/
theorem pageDrafts_eq_ok {count base : Draft} (h : c.pageDrafts q table = .ok (count, base)) :
    ∃ ctx, c.queryContext q table = .ok ctx ∧ count.2 = base.2 ∧
      ((q.unions = [] ∧ ∃ parts, (ctx.shownParts table (.ofRoot 0) q).Yields parts base.2 ∧
          base.1 = parts.select ∧
          (count.1 = countBody parts ∨ count.1 = countRows (countBody parts))) ∨
        ((ctx.compoundSelect table (.ofRoot 0) q).Yields base.1 base.2 ∧
          count.1 = countRows base.1)) := by
  obtain ⟨ctx, hctx, h⟩ := except_bind_eq_ok.mp h
  refine ⟨ctx, hctx, ?_⟩
  split at h
  case isTrue hunions =>
    obtain ⟨⟨parts, trace⟩, hparts, h⟩ := except_bind_eq_ok.mp h
    obtain ⟨rfl, rfl⟩ := Prod.mk.inj (Except.ok.inj h)
    refine ⟨rfl, .inl ⟨List.isEmpty_iff.mp hunions, parts, hparts, rfl, ?_⟩⟩
    dsimp only
    split
    · exact .inl rfl
    · exact .inr rfl
  case isFalse =>
    obtain ⟨⟨f, trace⟩, hf, h⟩ := except_bind_eq_ok.mp h
    obtain ⟨rfl, rfl⟩ := Prod.mk.inj (Except.ok.inj h)
    exact ⟨rfl, .inr ⟨hf, rfl⟩⟩

/-- The draft that counts a query is made from its single `SELECT`, or from its rows. -/
theorem validateDraft_eq_ok (h : c.validateDraft q table = .ok draft) :
    ∃ ctx, c.queryContext q table = .ok ctx ∧
      ((q.unions = [] ∧ ∃ parts,
          (ctx.selectParts table (.ofRoot 0) .counting q).Yields parts draft.2 ∧
          draft.1 = countBody parts) ∨
        ∃ f, (ctx.compoundSelect table (.ofRoot 0) q).Yields f draft.2 ∧
          draft.1 = countRows f) := by
  obtain ⟨ctx, hctx, h⟩ := except_bind_eq_ok.mp h
  refine ⟨ctx, hctx, ?_⟩
  split at h
  case isTrue hunions =>
    obtain ⟨⟨parts, trace⟩, hparts, h⟩ := except_bind_eq_ok.mp h
    obtain rfl := Except.ok.inj h
    exact .inl ⟨List.isEmpty_iff.mp hunions, parts, hparts, rfl⟩
  case isFalse =>
    obtain ⟨⟨f, trace⟩, hf, h⟩ := except_bind_eq_ok.mp h
    obtain rfl := Except.ok.inj h
    exact .inr ⟨f, hf, rfl⟩

/-- Rows are inserted where the first one has values, the table is described and has a column for
each of their fields, and all rows have the fields of the first one. -/
theorem insertDraft_eq_ok {rows : List Insert} : c.insertDraft rows table = .ok draft ↔
    ∃ first description columns tuples, rows.head? = some first ∧ first.values ≠ [] ∧
      c.schema.table table = .ok description ∧
      List.Forall₂ (fun field column => description.resolve? field = some column) first.fields
        columns ∧
      (∀ row ∈ rows, row.fields = first.fields) ∧
      (rows.zipIdx.mapM fun x => insertTuple x.2 x.1 : Resolve _).Yields tuples draft.2 ∧
      draft.1 = .text ("INSERT INTO " ++ table ++ " (" ++ ", ".intercalate columns ++
        ") VALUES ") :: Fragment.join ", " tuples := by
  unfold insertDraft
  constructor
  · intro h
    split at h
    case h_1 => cases h
    case h_2 first rest =>
      split at h
      case isTrue => cases h
      case isFalse hvalues =>
        obtain ⟨description, hdescription, h⟩ := except_bind_eq_ok.mp h
        obtain ⟨columns, hcolumns, h⟩ := except_bind_eq_ok.mp h
        obtain ⟨_, hrows, h⟩ := except_bind_eq_ok.mp h
        obtain ⟨⟨tuples, trace⟩, htuples, h⟩ := except_bind_eq_ok.mp h
        obtain rfl := Except.ok.inj h
        exact ⟨first, description, columns, tuples, rfl, fun hnil => hvalues (by rw [hnil]; rfl),
          hdescription, (except_mapM_eq_ok.mp hcolumns).imp fun _ _ => Table.writeColumn_eq_ok.mp,
          checkRows_eq_ok.mp hrows, htuples, rfl⟩
  · rintro ⟨first, description, columns, tuples, hfirst, hvalues, hdescription, hcolumns, hrows,
      htuples, hdraft⟩
    cases rows with
    | nil => cases hfirst
    | cons row rest =>
      -- Each check passes for the reason that is given, so the steps go on to the draft.
      obtain rfl : row = first := Option.some.inj hfirst
      have hsome : ¬row.values.isEmpty = true := by rwa [List.isEmpty_iff]
      obtain ⟨f, trace⟩ := draft
      obtain rfl : f = _ := hdraft
      dsimp only
      rw [if_neg hsome]
      refine except_bind_eq_ok.mpr ⟨description, hdescription, except_bind_eq_ok.mpr ⟨columns, ?_,
        except_bind_eq_ok.mpr ⟨(), checkRows_eq_ok.mpr hrows,
          except_bind_eq_ok.mpr ⟨(tuples, trace), htuples, rfl⟩⟩⟩⟩
      exact except_mapM_eq_ok.mpr (hcolumns.imp fun _ _ => Table.writeColumn_eq_ok.mpr)

/-- What an update is refused for before anything of it is resolved: nothing to change, no condition
of its own, or joins that the dialect has no form for. -/
def checkUpdate (c : Compiler) (u : Update) (table : String) : Except Error Unit :=
  if u.sets.isEmpty then .error (.nothingToSet table)
  else if u.conditions.isEmpty then .error (.unconditionalUpdate table)
  else if u.joins.isEmpty then .ok ()
  else c.dialect.checkJoinedUpdate table

/-- An update is checked first, and then resolved with its own table and those of its conditions and
joins. -/
theorem updateAt_eq (u : Update) (table : String) (n : Nat) :
    c.updateAt u table n = c.checkUpdate u table >>= fun _ =>
      c.context (updateReferences u table) >>= fun ctx =>
        (ctx.update u table (.ofRoot n)).run := by
  unfold updateAt checkUpdate
  split
  · rfl
  · split
    · rfl
    · cases u.joins.isEmpty <;> rfl

/-- The draft of an update is resolved under its number. -/
theorem updateAt_eq_ok {u : Update} {n : Nat} (h : c.updateAt u table n = .ok draft) :
    ∃ ctx, c.context (updateReferences u table) = .ok ctx ∧
      (ctx.update u table (.ofRoot n)).Yields draft.1 draft.2 := by
  rw [updateAt_eq] at h
  obtain ⟨_, -, h⟩ := except_bind_eq_ok.mp h
  exact except_bind_eq_ok.mp h

/-- The drafts of a batch are those of its members, each under a number of its own. -/
theorem batchDrafts_eq_ok {us : List Update} {drafts : List Draft}
    (h : c.batchDrafts us table = .ok drafts) :
    List.Forall₂ (fun x draft => c.updateAt x.1 table x.2 = .ok draft) us.zipIdx drafts := by
  unfold batchDrafts at h
  split at h
  · cases h
  · exact except_mapM_eq_ok.mp h

/-- The draft of a deletion is resolved with the tables of its conditions. -/
theorem deleteDraft_eq_ok {d : Delete} (h : c.deleteDraft d table = .ok draft) :
    ∃ ctx, c.context d.conditions.references = .ok ctx ∧
      (ctx.delete d table).Yields draft.1 draft.2 := by
  unfold deleteDraft at h
  split at h
  · cases h
  · obtain ⟨ctx, hctx, h⟩ := except_bind_eq_ok.mp h
    exact ⟨ctx, hctx, h⟩

end Compiler

end DynamicSql
