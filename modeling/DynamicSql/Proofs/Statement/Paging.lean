import DynamicSql.Proofs.Resolve.Shown
import DynamicSql.Proofs.Sql.Chars
import DynamicSql.Proofs.Statement.Description

/-!
# Pages and whole reads

A query that is read page by page is read by the text of its whole `SELECT`, with a window in place
of the limit; asking for its first row only puts another limit there. All three bind the same
values, or fail with the same error (`reads_agree`). The rows of the pages are counted over the same
text, from `FROM` to `HAVING` where there is a single `SELECT`, and as a whole where there are
branches.
-/

namespace DynamicSql

/-- All that the rows of a query are grouped by: its own groups, then those of the queries that are
joined to it at any depth. -/
def Query.allGroups (q : Query) : List GroupItem :=
  q.clauses.groups ++ q.allJoins.flatMap (·.query.clauses.groups)

/-- Give a query a limit, or none. -/
def Query.withLimit (q : Query) (limit : Option UInt64) : Query :=
  q.modifyClauses fun clauses => { clauses with limit }

/-- The statement that reads all pages at once, with a limit behind it. -/
def PagedStatement.whole (p : PagedStatement) (limit : String) : Statement :=
  ⟨p.baseSql ++ limit, p.params⟩

/-- The text of a page without its window, and the text that counts the rows of all pages, as they
follow from the columns, the body and the ordering of a single `SELECT`. -/
structure PagedStatement.OfSelect (p : PagedStatement) (columns body ordering : String)
    (grouped : Bool) : Prop where
  base : p.baseSql = "SELECT " ++ columns ++ body ++ ordering
  count : p.countSql =
    if grouped then "SELECT count(1) FROM (SELECT count(1)" ++ body ++ ") s"
    else "SELECT count(1)" ++ body

/-- Counted rows are written in parentheses, under a name of their own. -/
theorem render_countRows (root : String) (aliases : Aliases) (f : Fragment) :
    (countRows f).render root aliases =
      "SELECT count(1) FROM (" ++ f.render root aliases ++ ") s" := by
  have hopening : "SELECT count(1) FROM (" = "SELECT count(1) FROM " ++ "(" := by decide
  have hclosing : ") s" = ")" ++ " s" := by decide
  change Fragment.render root aliases (.text _ :: (f.parens ++ [.text " s"])) = _
  rw [Fragment.render_text_cons, Fragment.render_append, Fragment.render_parens,
    Fragment.render_text_cons, Fragment.render_nil, String.append_empty, hopening, hclosing]
  simp only [String.append_assoc]

/-- A counted `SELECT` is written without its columns. -/
theorem render_countBody (root : String) (aliases : Aliases) (parts : SelectParts) :
    (countBody parts).render root aliases = "SELECT count(1)" ++ parts.body.render root aliases :=
  Fragment.render_text_cons

namespace Context

open Resolve

variable {ctx : Context} {t : Trace}

/-- Each entry of the list that rows are grouped by is resolved to one fragment. -/
theorem collect_groups {scope : Scope} {clauses : Clauses} {path : Path}
    {columns : Resolve (List Fragment)} {lists : Collected}
    (h : (ctx.collect scope clauses path columns .everything).Yields lists t) :
    lists.groups.length = clauses.groups.length := by
  simp only [collect, bind_yields, pure_yields] at h
  obtain ⟨_, _, _, -, ⟨groups, _, _, hgroups, ⟨_, _, _, -, ⟨_, _, _, -, ⟨rfl, -⟩, -⟩, -⟩, -⟩,
    -⟩ := h
  exact length_of_mapM_yields hgroups

/-- So is each entry of the queries that are joined, at any depth. -/
theorem joined_groups : ∀ (joins : List Join) {parent : Scope} {path : Path} {l : Nat}
    {added : Joined} {t : Trace}, (ctx.joined parent path .everything l joins).Yields added t →
    added.collected.groups.length =
      ((nestedJoins joins).flatMap (·.query.clauses.groups)).length
  | [], _, _, _, _, _, h => by
    obtain ⟨rfl, -⟩ := pure_yields.mp h
    rfl
  | ⟨_, ⟨_, _, _, _, joins, _⟩, _⟩ :: rest, _, _, _, _, _, h => by
    obtain ⟨_, _, _, _, lists, _, _, _, _, _, inner, _, others, _, -, -, -, hlists, -, -, hinner,
      hothers, rfl, -⟩ := joined_cons_yields h
    have hown := collect_groups hlists
    have hinside := joined_groups joins hinner
    have hbeside := joined_groups rest hothers
    rw [nestedJoins, Query.allJoins, List.cons_append, List.flatMap_cons, List.flatMap_append,
      List.length_append, List.length_append, ← hown, ← hinside, ← hbeside, ← Nat.add_assoc]
    change (lists.groups ++ inner.collected.groups ++ others.collected.groups).length = _
    rw [List.length_append, List.length_append]

/-- A `SELECT` is grouped if and only if its query or one of the joined queries has groups. -/
theorem selectParts_groups {q : Query} {table : String} {path : Path} {parts : SelectParts}
    (h : (ctx.selectParts table path .everything q).Yields parts t) :
    parts.collected.groups = [] ↔ q.allGroups = [] := by
  obtain ⟨own, token, clauses, conditions, joins, unions⟩ := q
  obtain ⟨_, lists, _, added, _, _, _, -, hlists, hadded, -, rfl, -⟩ := selectParts_yields h
  have hown := collect_groups hlists
  have hjoined := joined_groups joins hadded
  change lists.groups ++ added.collected.groups = [] ↔ _
  rw [Query.allGroups, Query.allJoins, ← List.length_eq_zero_iff, ← List.length_eq_zero_iff,
    List.length_append, List.length_append, hown, hjoined]

/-- Without branches, a query is its single `SELECT`. -/
theorem compoundSelect_of_unions_nil {q : Query} {table : String} {path : Path}
    (hunions : q.unions = []) :
    ctx.compoundSelect table path q =
      (ctx.shownParts table path q >>= fun parts => pure parts.select) := by
  unfold compoundSelect
  rw [hunions]
  simp only [unionBranches, pure_bind]
  rfl

end Context

namespace Compiler

variable {c : Compiler} {q : Query} {table : String}

/-- The limit of a query plays no part in its tables. -/
theorem queryContext_withLimit (c : Compiler) (q : Query) (table : String)
    (limit : Option UInt64) :
    c.queryContext (q.withLimit limit) table = c.queryContext q table := by
  cases q
  rw [queryContext, queryContext, Query.withLimit, Query.modifyClauses, Query.references,
    Query.references]

/-- The limit of a query plays no part in its `SELECT`. -/
theorem shownParts_withLimit (ctx : Context) (q : Query) (table : String) (path : Path)
    (limit : Option UInt64) :
    ctx.shownParts table path (q.withLimit limit) = ctx.shownParts table path q := by
  cases q
  rw [Context.shownParts, Context.shownParts, Query.withLimit, Query.modifyClauses,
    Context.selectParts, Context.selectParts]
  rfl

/-- The limit of a query stands behind its text and is not looked at within. -/
theorem compoundSelect_withLimit (ctx : Context) (q : Query) (table : String) (path : Path)
    (limit : Option UInt64) :
    ctx.compoundSelect table path (q.withLimit limit) = ctx.compoundSelect table path q := by
  rw [Context.compoundSelect, Context.compoundSelect, shownParts_withLimit]
  rfl

/-- The limit of a query plays no part in its paged form. -/
theorem page_withLimit (c : Compiler) (q : Query) (table : String) (limit : Option UInt64) :
    c.page (q.withLimit limit) table = c.page q table := by
  have hunions : (q.withLimit limit).unions = q.unions := rfl
  unfold page pageDrafts
  simp only [queryContext_withLimit, hunions, shownParts_withLimit, compoundSelect_withLimit]

/-- The `SELECT` of a query is the base of its paged form, with the limit of the query behind it. -/
theorem selectDraft_eq_pageDrafts (c : Compiler) (q : Query) (table : String) :
    c.selectDraft q table = (c.pageDrafts q table).map fun drafts =>
      (drafts.2.1 ++ [.text (Dialect.limitClause q.clauses.limit)], drafts.2.2) := by
  unfold selectDraft pageDrafts
  cases c.queryContext q table with
  | error e => rfl
  | ok ctx =>
    simp only [bind, Except.bind]
    by_cases hunions : q.unions.isEmpty = true
    · rw [if_pos hunions, Context.compoundSelect_of_unions_nil (List.isEmpty_iff.mp hunions),
        Resolve.run_bind]
      cases (ctx.shownParts table (.ofRoot 0) q).run with
      | error e => rfl
      | ok result =>
        simp only [Resolve.run_pure, Trace.append_empty]
        rfl
    · rw [if_neg hunions]
      cases (ctx.compoundSelect table (.ofRoot 0) q).run <;> rfl

/-- The `SELECT` of a query is the text that all its pages are read by, with its own limit. -/
theorem select_eq_page (c : Compiler) (q : Query) (table : String) :
    c.select q table = (c.page q table).map (·.whole (Dialect.limitClause q.clauses.limit)) := by
  unfold select page
  rw [selectDraft_eq_pageDrafts]
  cases c.pageDrafts q table with
  | error e => rfl
  | ok drafts =>
    obtain ⟨count, base⟩ := drafts
    have hsql : c.render (base.1 ++ [.text (Dialect.limitClause q.clauses.limit)], base.2) =
        c.render base ++ Dialect.limitClause q.clauses.limit := by
      simp [render]
    change Except.ok (Statement.mk _ _) = Except.ok (Statement.mk _ _)
    rw [hsql]

/-- Asking for the first row only puts another limit behind this text. -/
theorem findOne_eq_page (c : Compiler) (q : Query) (table : String) :
    c.findOne q table = (c.page q table).map (·.whole " LIMIT 1") := by
  have hlimit : q.limit 1 = q.withLimit (some 1) := rfl
  have htext : Dialect.limitClause (some 1) = " LIMIT 1" := by decide
  rw [findOne, hlimit, select_eq_page, page_withLimit, ← htext]
  rfl

/-- A query without branches is paged by its single `SELECT`, and counted by what follows the
columns: as it stands, or by its groups. -/
theorem page_of_unions_nil {p : PagedStatement} (h : c.page q table = .ok p)
    (hunions : q.unions = []) :
    ∃ ctx parts trace, c.queryContext q table = .ok ctx ∧
      (ctx.selectParts table (.ofRoot 0) .everything q).Yields parts trace ∧
      p.baseSql = c.render (parts.select, trace) ∧
      p.countSql = c.render
        (if q.allGroups = [] then countBody parts else countRows (countBody parts), trace) ∧
      p.params = .ofBound trace.bound := by
  obtain ⟨⟨count, base⟩, hdrafts, h⟩ := except_bind_eq_ok.mp h
  obtain rfl := Except.ok.inj h
  obtain ⟨ctx, hctx, hdrafts⟩ := except_bind_eq_ok.mp hdrafts
  rw [if_pos (List.isEmpty_iff.mpr hunions)] at hdrafts
  obtain ⟨⟨parts, trace⟩, hrun, hdrafts⟩ := except_bind_eq_ok.mp hdrafts
  obtain ⟨rfl, rfl⟩ := Prod.mk.inj (Except.ok.inj hdrafts)
  have hparts := (Context.shownParts_yields hrun).1
  refine ⟨ctx, parts, trace, hctx, hparts, rfl, ?_, rfl⟩
  have hgroups := Context.selectParts_groups hparts
  by_cases hempty : q.allGroups = []
  · simp [hgroups.mpr hempty, hempty]
  · simp [mt hgroups.mp hempty, hempty]

/-- A query with branches is paged and counted as a whole. -/
theorem page_of_unions_ne_nil {p : PagedStatement} (h : c.page q table = .ok p)
    (hunions : q.unions ≠ []) : p.countSql = "SELECT count(1) FROM (" ++ p.baseSql ++ ") s" := by
  obtain ⟨⟨count, base⟩, hdrafts, h⟩ := except_bind_eq_ok.mp h
  obtain rfl := Except.ok.inj h
  obtain ⟨ctx, hctx, hdrafts⟩ := except_bind_eq_ok.mp hdrafts
  rw [if_neg (mt List.isEmpty_iff.mp hunions)] at hdrafts
  obtain ⟨⟨f, trace⟩, hrun, hdrafts⟩ := except_bind_eq_ok.mp hdrafts
  obtain ⟨rfl, rfl⟩ := Prod.mk.inj (Except.ok.inj hdrafts)
  exact render_countRows c.root _ f

/-- Both texts of the pages follow from the texts of the parts of this `SELECT`. -/
theorem ofSelect_of_unions_nil {p : PagedStatement} (h : c.page q table = .ok p)
    (hunions : q.unions = []) :
    ∃ ctx parts trace, c.queryContext q table = .ok ctx ∧
      (ctx.selectParts table (.ofRoot 0) .everything q).Yields parts trace ∧
      p.OfSelect (c.render (.join ", " parts.collected.columns, trace))
        (c.render (parts.body, trace))
        (c.render (SelectParts.clause " ORDER BY " ", " parts.collected.orders, trace))
        (!q.allGroups.isEmpty) := by
  obtain ⟨ctx, parts, trace, hctx, hparts, hbase, hcount, -⟩ := page_of_unions_nil h hunions
  refine ⟨ctx, parts, trace, hctx, hparts, ?_, ?_⟩
  · rw [hbase]
    simp [render, SelectParts.select, String.append_assoc]
  · rw [hcount]
    -- Groups are counted as the rows of a query of their own.
    by_cases hempty : q.allGroups = []
    · simp [hempty, render, render_countBody]
    · have hopening : "SELECT count(1) FROM (SELECT count(1)" =
          "SELECT count(1) FROM (" ++ "SELECT count(1)" := by decide
      have hgrouped : (!q.allGroups.isEmpty) = true := by simp [hempty]
      rw [if_neg hempty, if_pos hgrouped, render, render_countRows, render_countBody, hopening]
      simp only [String.append_assoc]
      rfl

/-- A query as a whole, its first row, and its pages are read by the same text up to limits, with
the same values, or refused with the same error, and the limit of the query plays no part in its
pages. The rows of a query with branches are counted as a whole; those of another query over the
same body, by groups if it or a joined query has any. -/
theorem reads_agree (c : Compiler) (q : Query) (table : String) :
    c.select q table = (c.page q table).map (·.whole (Dialect.limitClause q.clauses.limit)) ∧
    c.findOne q table = (c.page q table).map (·.whole " LIMIT 1") ∧
    (∀ limit, c.page (q.withLimit limit) table = c.page q table) ∧
    ∀ p, c.page q table = .ok p →
      (q.unions ≠ [] → p.countSql = "SELECT count(1) FROM (" ++ p.baseSql ++ ") s") ∧
      (q.unions = [] → ∃ ctx parts trace, c.queryContext q table = .ok ctx ∧
        (ctx.selectParts table (.ofRoot 0) .everything q).Yields parts trace ∧
        p.OfSelect (c.render (.join ", " parts.collected.columns, trace))
          (c.render (parts.body, trace))
          (c.render (SelectParts.clause " ORDER BY " ", " parts.collected.orders, trace))
          (!q.allGroups.isEmpty)) :=
  ⟨c.select_eq_page q table, c.findOne_eq_page q table, c.page_withLimit q table,
    fun _ h => ⟨page_of_unions_ne_nil h, ofSelect_of_unions_nil h⟩⟩

/-- Orders that are grouped through the customers that they are joined to are counted by groups, and
customers with a branch are counted as a whole. -/
theorem groupedOrders_reads_agree :
    let grouped := (Query.new "o" (some "orders")).leftJoin
      (.new "customer_id" "id" ((Query.new "c" (some "customer")).groupBy "name" none))
    (∃ p, shop.page grouped "orders" = .ok p ∧ grouped.unions = [] ∧
      ∃ columns body ordering, p.OfSelect columns body ordering true ∧
        body =
          " FROM orders t0 LEFT JOIN customer t1 ON (t0.customer_id = t1.id) GROUP BY t1.name" ∧
        shop.findOne grouped "orders" = .ok (p.whole " LIMIT 1")) ∧
    ∃ p, shop.page frequentCustomers "customer" = .ok p ∧ frequentCustomers.unions ≠ [] ∧
      p.countSql = "SELECT count(1) FROM (" ++ p.baseSql ++ ") s" := by
  intro grouped
  obtain ⟨-, hfirst, -, hcounted⟩ := reads_agree shop grouped "orders"
  obtain ⟨-, -, -, hwhole⟩ := reads_agree shop frequentCustomers "customer"
  obtain ⟨p, hp⟩ : ∃ p, shop.page grouped "orders" = .ok p := except_exists_ok (by decide +kernel)
  obtain ⟨p', hp'⟩ : ∃ p, shop.page frequentCustomers "customer" = .ok p :=
    except_exists_ok (by decide +kernel)
  have hbody : ((shop.queryContext grouped "orders").toOption.bind fun ctx =>
      (ctx.selectParts "orders" (.ofRoot 0) .everything grouped).run.toOption.map fun result =>
        shop.render (result.1.body, result.2)) =
      some
        " FROM orders t0 LEFT JOIN customer t1 ON (t0.customer_id = t1.id) GROUP BY t1.name" := by
    decide +kernel
  have hgroups : (!grouped.allGroups.isEmpty) = true := by decide +kernel
  have hunions : frequentCustomers.unions ≠ [] := List.cons_ne_nil _ _
  obtain ⟨ctx, parts, trace, hctx, hparts, hselect⟩ := (hcounted p hp).2 rfl
  rw [hgroups] at hselect
  have hrun : (ctx.selectParts "orders" (.ofRoot 0) .everything grouped).run = _ := hparts
  rw [hctx] at hbody
  simp only [Except.toOption, Option.bind_some] at hbody
  rw [hrun] at hbody
  refine ⟨⟨p, hp, rfl, _, _, _, hselect, Option.some.inj hbody, ?_⟩, p', hp', hunions,
    (hwhole p' hp').1 hunions⟩
  rw [hfirst, hp]
  rfl

end Compiler

end DynamicSql
