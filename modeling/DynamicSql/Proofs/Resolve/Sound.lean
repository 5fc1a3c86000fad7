import DynamicSql.Proofs.Resolve.Succeeds

/-!
# Sound descriptions are resolved

A query is resolved exactly when all queries that are shown for it are sound
(`shownSelect_succeeds`, `unionBranches_succeeds`). This is an induction over the description, one
statement for each of its parts; only whether a `SELECT` shows a column depends on what was
resolved before, and the number of columns is known from the description.
-/

namespace DynamicSql

namespace Context

open Resolve

variable {ctx : Context} {scope : Scope} {t : Trace}

/-- A list of columns is made from the columns that are wanted. -/
theorem collect_columns {clauses : Clauses} {path : Path} {columns : Resolve (List Fragment)}
    {lists : Collected} (h : (ctx.collect scope clauses path columns .everything).Yields lists t) :
    ∃ u, columns.Yields lists.columns u := by
  simp only [collect, bind_yields, pure_yields] at h
  obtain ⟨fs, u, _, hfs, ⟨_, _, _, -, ⟨_, _, _, -, ⟨_, _, _, -, ⟨rfl, -⟩, -⟩, -⟩, -⟩, -⟩ := h
  exact ⟨u, hfs⟩

/-- Columns are shown just if one that is named is not left out. -/
theorem explicitColumns_ne_nil {clauses : Clauses} {fs : List Fragment}
    (h : (ctx.explicitColumns scope clauses).Yields fs t) :
    fs ≠ [] ↔ clauses.kept scope.table ≠ [] := by
  rw [explicitColumns_eq] at h
  rw [← List.length_pos_iff, ← List.length_pos_iff, length_of_mapM_yields h]

/-- So it is for a joined query. -/
theorem joinedColumns_ne_nil {clauses : Clauses} {fs : List Fragment}
    (h : (ctx.joinedColumns scope clauses).Yields fs t) :
    fs ≠ [] ↔ clauses.kept scope.table ≠ [] := by
  unfold joinedColumns at h
  split at h
  case isTrue hcolumns =>
    obtain ⟨rfl, -⟩ := pure_yields.mp h
    simp [kept_of_columns_nil (List.isEmpty_iff.mp hcolumns)]
  case isFalse => exact explicitColumns_ne_nil h

/-- A query that asks for no columns shows those of its table that are not left out. -/
theorem shownColumns_ne_nil {clauses : Clauses} {fs : List Fragment}
    (h : (ctx.shownColumns scope clauses).Yields fs t) :
    fs ≠ [] ↔ (clauses.columns = [] ∧ clauses.showsNothing = false ∧
      ∃ c ∈ scope.table.columns, c.field ∉ clauses.removed ∧ c.column ∉ clauses.removed) ∨
      clauses.kept scope.table ≠ [] := by
  unfold shownColumns at h
  split at h
  case isTrue hall =>
    obtain ⟨rfl, -⟩ := pure_yields.mp h
    simp only [Bool.and_eq_true, List.isEmpty_iff, Bool.not_eq_true'] at hall
    simp [hall, kept_of_columns_nil hall.1, allColumns]
  case isFalse hexplicit =>
    rw [explicitColumns_ne_nil h]
    simp only [Bool.and_eq_true, List.isEmpty_iff, Bool.not_eq_true'] at hexplicit
    constructor
    · exact .inr
    · rintro (⟨hcolumns, hshows, -⟩ | hkept)
      · exact absurd ⟨hcolumns, hshows⟩ hexplicit
      · exact hkept

/-- Joins add a column when one of the joined queries asks for one. -/
theorem joined_columns : ∀ (joins : List Join) {parent : Scope} {path : Path} {l : Nat}
    {added : Joined} {t : Trace}, (ctx.joined parent path .everything l joins).Yields added t →
    (added.collected.columns ≠ [] ↔ ∃ j ∈ nestedJoins joins, ∃ d,
      ctx.described? j.query.table = some d ∧ j.query.clauses.kept d ≠ [])
  | [], _, _, _, _, _, h => by
    obtain ⟨rfl, -⟩ := pure_yields.mp h
    simp [nestedJoins, Joined.empty, Collected.empty]
  | ⟨_, ⟨_, _, clauses, _, joins, _⟩, _⟩ :: rest, _, _, _, _, _, h => by
    obtain ⟨table, d, _, _, lists, _, _, _, _, _, inner, _, others, _, rfl, hd, -, hlists, -, -,
      hinner, hothers, rfl, -⟩ := joined_cons_yields h
    obtain ⟨_, hcolumns⟩ := collect_columns hlists
    have hown := joinedColumns_ne_nil hcolumns
    have hinside := joined_columns joins hinner
    have hbeside := joined_columns rest hothers
    have hdescribed : ctx.described? (some table) = some d := Schema.table_eq_ok.mp hd
    change lists.columns ++ inner.collected.columns ++ others.collected.columns ≠ [] ↔ _
    simp only [nestedJoins, Query.allJoins, List.mem_append, List.mem_cons, or_and_right,
      exists_or, exists_eq_left, exists_eq_left', hdescribed, Option.some.injEq]
    rw [← hinside, ← hbeside, ← hown, ne_eq, List.append_eq_nil_iff, List.append_eq_nil_iff,
      Classical.not_and_iff_not_or_not, Classical.not_and_iff_not_or_not]

/-- A `SELECT` shows a column when its description says so. -/
theorem selectParts_columns {q : Query} {table : String} {path : Path} {parts : SelectParts}
    {d : Table} (hd : ctx.schema.find? table = some d)
    (h : (ctx.selectParts table path .everything q).Yields parts t) :
    parts.collected.columns ≠ [] ↔ ctx.ShowsColumn d q := by
  obtain ⟨own, token, clauses, conditions, joins, unions⟩ := q
  obtain ⟨d', lists, _, added, _, _, _, hd', hlists, hadded, -, rfl, -⟩ := selectParts_yields h
  obtain rfl : d = d' := Option.some.inj (hd.symm.trans (Schema.table_eq_ok.mp hd'))
  obtain ⟨_, hcolumns⟩ := collect_columns hlists
  have hown := shownColumns_ne_nil hcolumns
  have hjoined := joined_columns joins hadded
  change lists.columns ++ added.collected.columns ≠ [] ↔ _
  rw [ShowsColumn, Query.allJoins, ← or_assoc, ← hown, ← hjoined, ne_eq, List.append_eq_nil_iff,
    Classical.not_and_iff_not_or_not]

/-- All queries that are shown for a query over a known table are sound when this one fits its
table and shows a column, and the others are sound. -/
theorem shown_sound {q : Query} {table? : Option String} :
    (∀ s ∈ q.shown table?, s.Sound ctx) ↔
      (∃ d, ctx.described? table? = some d ∧ Shown.Fits ctx ⟨table?, q, none⟩ d ∧
        ctx.ShowsColumn d q) ∧
      (∀ s ∈ joinShown table? q.joins, s.Sound ctx) ∧ ∀ s ∈ q.conditions.shown, s.Sound ctx := by
  obtain ⟨own, token, clauses, conditions, joins, unions⟩ := q
  rw [Query.shown, List.forall_mem_cons, List.forall_mem_append]
  apply and_congr _ Iff.rfl
  simp [Shown.Sound]

/-- Conditions of a query fit a table when they are settled there. -/
theorem fits_iff {table? : Option String} {q : Query} {d : Table} :
    Shown.Fits ctx ⟨table?, q, none⟩ d ↔
      (∀ l ∈ q.clauses.lookups d, ctx.Finds d l) ∧
        ∀ x ∈ q.conditions.allConditions, ctx.Settles d x := by
  constructor
  · intro h
    exact ⟨h.clauses, h.conditions⟩
  · rintro ⟨hclauses, hconditions⟩
    exact ⟨hclauses, hconditions, by simp⟩

/-- Likewise for a query that is joined to a known table. -/
theorem joined_sound {own : Option String} {q : Query} {parent : Scope} {j : Join}
    (hparent : ctx.schema.find? parent.name = some parent.table) :
    Shown.Sound ctx ⟨own, q, some (some parent.name, j)⟩ ↔
      ∃ d, ctx.described? own = some d ∧ ctx.Joins parent.table d j.keys ∧
        (∀ l ∈ q.clauses.lookups d, ctx.Finds d l) ∧
        (∀ x ∈ j.on.allConditions, ctx.Settles d x) ∧
            ∀ x ∈ q.conditions.allConditions, ctx.Settles d x := by
  have hknown : ctx.described? (some parent.name) = some parent.table := hparent
  have hfits : ∀ d, Shown.Fits ctx ⟨own, q, some (some parent.name, j)⟩ d ↔
      ctx.Joins parent.table d j.keys ∧ (∀ l ∈ q.clauses.lookups d, ctx.Finds d l) ∧
        (∀ x ∈ j.on.allConditions, ctx.Settles d x) ∧
        ∀ x ∈ q.conditions.allConditions, ctx.Settles d x := by
    intro d
    constructor
    · intro h
      exact ⟨h.keys _ _ rfl _ hknown, h.clauses, List.forall_mem_append.mp h.conditions⟩
    · rintro ⟨hkeys, hclauses, hconditions⟩
      refine ⟨hclauses, List.forall_mem_append.mpr hconditions, ?_⟩
      rintro _ _ ⟨⟩ d' hd'
      obtain rfl := Option.some.inj (hknown.symm.trans hd')
      exact hkeys
  simp [Shown.Sound, hfits]

/-- A `SELECT` that has to show a column is resolved, and what follows it, when all queries that are
shown for it are sound and the rest succeeds. -/
theorem shownSelect_succeeds {α : Type} {q : Query} {table : String} {path : Path} {e : Error}
    {f : SelectParts → Resolve α} {P : Prop}
    (hparts : (ctx.selectParts table path .everything q).Succeeds ↔
      (∃ d, ctx.schema.find? table = some d ∧ Shown.Fits ctx ⟨some table, q, none⟩ d) ∧
      (∀ s ∈ joinShown (some table) q.joins, s.Sound ctx) ∧ ∀ s ∈ q.conditions.shown, s.Sound ctx)
    (hf : ∀ parts, (f parts).Succeeds ↔ P) :
    (ctx.selectParts table path .everything q >>= fun parts =>
      requireColumns parts e >>= fun _ => f parts).Succeeds ↔
      (∀ s ∈ q.shown (some table), s.Sound ctx) ∧ P := by
  have hrequire : ∀ parts, (requireColumns parts e >>= fun _ => f parts).Succeeds ↔
      parts.collected.columns ≠ [] ∧ P := by
    intro parts
    rw [bind_succeeds_of fun _ => hf parts]
    simp [Succeeds, requireColumns_yields]
  rw [bind_succeeds, shown_sound]
  simp only [hrequire]
  constructor
  · rintro ⟨parts, ⟨t, hyields⟩, hcolumns, hP⟩
    obtain ⟨⟨d, hd, hfits⟩, hrest⟩ := hparts.mp ⟨parts, t, hyields⟩
    exact ⟨⟨⟨d, hd, hfits, (selectParts_columns hd hyields).mp hcolumns⟩, hrest⟩, hP⟩
  · rintro ⟨⟨⟨d, hd, hfits, hshows⟩, hrest⟩, hP⟩
    obtain ⟨parts, t, hyields⟩ := hparts.mpr ⟨⟨d, hd, hfits⟩, hrest⟩
    exact ⟨parts, ⟨t, hyields⟩, (selectParts_columns hd hyields).mpr hshows, hP⟩

/-- No query is shown for a condition that holds none. -/
theorem simpleCondition_settled {connector : Connector} {field : String} {filter : Filter}
    {path : Path} {i : Nat} (hquery : ∀ test q, filter ≠ .memberOf test q)
    (hshown : filter.shown = []) : (ctx.simpleCondition scope path i field filter).Succeeds ↔
      ctx.Settles scope.table ⟨connector, field, filter⟩ ∧ ∀ s ∈ filter.shown, s.Sound ctx := by
  rw [simpleCondition_succeeds hquery, hshown]
  exact (and_iff_left (List.forall_mem_nil _)).symm

mutual

/-- A `SELECT` is resolved when its query fits its table and all queries below are sound. -/
theorem selectParts_succeeds : ∀ (q : Query) (table : String) (path : Path),
    (ctx.selectParts table path .everything q).Succeeds ↔
      (∃ d, ctx.schema.find? table = some d ∧ Shown.Fits ctx ⟨some table, q, none⟩ d) ∧
      (∀ s ∈ joinShown (some table) q.joins, s.Sound ctx) ∧ ∀ s ∈ q.conditions.shown, s.Sound ctx
  | ⟨_, token, clauses, conditions, joins, _⟩, table, path => by
    have hsteps : ∀ d, ctx.schema.find? table = some d →
        ((do
          let own ← ctx.collect ⟨table, some token, d⟩ clauses (path.child "gh")
            (ctx.shownColumns ⟨table, some token, d⟩ clauses) .everything
          let added ← ctx.joined ⟨table, some token, d⟩ (path.child "cl") .everything 0 joins
          let terms ← ctx.groupTerms ⟨table, some token, d⟩ (path.child "tl") conditions
          return ctx.assemble table token own added terms).Succeeds ↔
        (∀ l ∈ clauses.lookups d, ctx.Finds d l) ∧
          (∀ s ∈ joinShown (some table) joins, s.Sound ctx) ∧
          (∀ x ∈ conditions.allConditions, ctx.Settles d x) ∧
            ∀ s ∈ conditions.shown, s.Sound ctx) := by
      intro d hd
      rw [bind_succeeds_of fun _ => bind_succeeds_of fun _ => map_succeeds,
        collect_succeeds shownColumns_succeeds, joined_succeeds joins _ _ _ hd,
        groupTerms_succeeds conditions]
    rw [selectParts, openScope_bind_succeeds]
    simp only [fits_iff]
    constructor
    · rintro ⟨d, hd, h⟩
      obtain ⟨hclauses, hjoins, hconditions, hbelow⟩ := (hsteps d hd).mp h
      exact ⟨⟨d, hd, hclauses, hconditions⟩, hjoins, hbelow⟩
    · rintro ⟨⟨d, hd, hclauses, hconditions⟩, hjoins, hbelow⟩
      exact ⟨d, hd, (hsteps d hd).mpr ⟨hclauses, hjoins, hconditions, hbelow⟩⟩

/-- Branches are resolved when all queries that are shown for them are sound. -/
theorem unionBranches_succeeds : ∀ (branches : List UnionBranch) (table : String) (path : Path)
    (k : Nat), (ctx.unionBranches table path k branches).Succeeds ↔
      ∀ s ∈ branchShown (some table) branches, s.Sound ctx
  | [], _, _, _ => by
    simp [unionBranches, branchShown, pure_succeeds]
  | ⟨kind, ⟨own, token, clauses, conditions, joins, unions⟩⟩ :: rest, table, path, k => by
    have htable : own.or (some table) = some (own.getD table) := by cases own <;> rfl
    rw [unionBranches, branchShown, List.forall_mem_append, htable,
      ← unionBranches_succeeds rest table path (k + 1)]
    exact shownSelect_succeeds (selectParts_succeeds _ _ _) fun _ => map_succeeds

/-- A group of conditions is resolved when all its conditions are settled and all queries that are
shown for it are sound. -/
theorem groupTerms_succeeds : ∀ (group : ConditionGroup) (scope : Scope) (path : Path),
    (ctx.groupTerms scope path group).Succeeds ↔
      (∀ x ∈ group.allConditions, ctx.Settles scope.table x) ∧ ∀ s ∈ group.shown, s.Sound ctx
  | ⟨conditions, groups⟩, scope, path => by
    rw [groupTerms, bind_succeeds_of fun _ => map_succeeds,
      conditionTerms_succeeds conditions scope path 0, subgroupTerms_succeeds groups scope path 0,
      ConditionGroup.allConditions, ConditionGroup.shown, List.forall_mem_append,
      List.forall_mem_append]
    exact and_and_and_comm

/-- So it is for conditions in a row. -/
theorem conditionTerms_succeeds : ∀ (conditions : List Condition) (scope : Scope) (path : Path)
    (i : Nat), (ctx.conditionTerms scope path i conditions).Succeeds ↔
      (∀ x ∈ conditions, ctx.Settles scope.table x) ∧ ∀ s ∈ conditionShown conditions, s.Sound ctx
  | [], _, _, _ => by
    simp [conditionTerms, conditionShown, pure_succeeds]
  | ⟨connector, field, filter⟩ :: rest, scope, path, i => by
    rw [conditionTerms, bind_succeeds_of fun _ => map_succeeds,
      conditionText_succeeds filter connector scope path i field,
      conditionTerms_succeeds rest scope path (i + 1), conditionShown, List.forall_mem_cons,
      List.forall_mem_append]
    exact and_and_and_comm

/-- A condition is resolved when it is settled and all queries that are shown for it are sound. -/
theorem conditionText_succeeds : ∀ (filter : Filter) (connector : Connector) (scope : Scope)
    (path : Path) (i : Nat) (field : String),
    (ctx.conditionText scope path i field filter).Succeeds ↔
      ctx.Settles scope.table ⟨connector, field, filter⟩ ∧ ∀ s ∈ filter.shown, s.Sound ctx
  | .memberOf test ⟨some table, token, clauses, conditions, joins, unions⟩, connector, scope, path,
    i, field => by
    rw [conditionText, settles_iff (by simp) (by simp), Filter.shown, List.forall_mem_append,
      ← unionBranches_succeeds unions table (path.childAt "s" i) 0,
      bind_succeeds_of fun _ => shownSelect_succeeds (selectParts_succeeds _ _ _) fun _ =>
        map_succeeds, field_succeeds]
    simp [Filter.lookups]
  | .memberOf test ⟨none, token, clauses, conditions, joins, unions⟩, _, scope, path, i, field => by
    have hunsound : ¬∀ s ∈ Filter.shown
        (.memberOf test ⟨none, token, clauses, conditions, joins, unions⟩), s.Sound ctx := by
      intro h
      rw [Filter.shown, List.forall_mem_append, shown_sound] at h
      obtain ⟨⟨⟨_, hd, -⟩, -⟩, -⟩ := h
      cases hd
    have hfails : (ctx.conditionText scope path i field
        (.memberOf test ⟨none, token, clauses, conditions, joins, unions⟩)).Succeeds ↔ False :=
      fail_succeeds
    rw [hfails]
    simp only [hunsound, and_false]
  | .compare _ _, _, _, _, _, _ | .compareField _ _, _, _, _, _, _
  | .compareDate _ _ _, _, _, _, _, _ | .like _ _, _, _, _, _, _ | .member _ _, _, _, _, _, _
  | .guard _ _, _, _, _, _, _ | .isNull, _, _, _, _, _ | .isNotNull, _, _, _, _, _ =>
    simpleCondition_settled (by simp) (by simp [Filter.shown])

/-- Groups are resolved when all conditions in them are settled and all queries that are shown for
them are sound. -/
theorem subgroupTerms_succeeds : ∀ (groups : List Subgroup) (scope : Scope) (path : Path)
    (j : Nat), (ctx.subgroupTerms scope path j groups).Succeeds ↔
      (∀ x ∈ subgroupConditions groups, ctx.Settles scope.table x) ∧
        ∀ s ∈ subgroupShown groups, s.Sound ctx
  | [], _, _, _ => by
    simp [subgroupTerms, subgroupConditions, subgroupShown, pure_succeeds]
  | ⟨connector, group⟩ :: rest, scope, path, j => by
    rw [subgroupTerms, bind_succeeds_of fun _ => map_succeeds,
      groupTerms_succeeds group scope (path.childAt "ot" j),
      subgroupTerms_succeeds rest scope path (j + 1), subgroupConditions, subgroupShown,
      List.forall_mem_append, List.forall_mem_append]
    exact and_and_and_comm

/-- Joins to a known table are resolved when all queries that are shown for them are sound. -/
theorem joined_succeeds : ∀ (joins : List Join) (parent : Scope) (path : Path) (l : Nat),
    ctx.schema.find? parent.name = some parent.table →
    ((ctx.joined parent path .everything l joins).Succeeds ↔
      ∀ s ∈ joinShown (some parent.name) joins, s.Sound ctx)
  | [], _, _, _, _ => by
    simp [joined, joinShown, pure_succeeds]
  | ⟨keys, ⟨some table, token, clauses, conditions, joins, unions⟩, on⟩ :: rest, parent, path, l,
    hparent => by
    -- Where the table is described, the steps of a join do not depend on each other.
    have hsteps : ∀ d, ctx.schema.find? table = some d →
        ((do
          let keyText ← ctx.joinKeys parent ⟨table, some token, d⟩ keys
          let own ← ctx.collect ⟨table, some token, d⟩ clauses (path.childAt "gh" l)
            (ctx.joinedColumns ⟨table, some token, d⟩ clauses) .everything
          let extra ← ctx.groupTerms ⟨table, some token, d⟩ (path.childAt "ofl" l) on
          let terms ← ctx.groupTerms ⟨table, some token, d⟩ (path.childAt "fl" l) conditions
          let inner ← ctx.joined ⟨table, some token, d⟩ (path.childAt "j" l) .everything 0 joins
          return ctx.attach table token keyText own extra terms ++ inner).Succeeds ↔
        ctx.Joins parent.table d keys ∧ (∀ l ∈ clauses.lookups d, ctx.Finds d l) ∧
          ((∀ x ∈ on.allConditions, ctx.Settles d x) ∧ ∀ s ∈ on.shown, s.Sound ctx) ∧
          ((∀ x ∈ conditions.allConditions, ctx.Settles d x) ∧
            ∀ s ∈ conditions.shown, s.Sound ctx) ∧
          ∀ s ∈ joinShown (some table) joins, s.Sound ctx) := by
      intro d hd
      rw [bind_succeeds_of fun _ => bind_succeeds_of fun _ => bind_succeeds_of fun _ =>
          bind_succeeds_of fun _ => map_succeeds, joinKeys_succeeds,
        collect_succeeds joinedColumns_succeeds, groupTerms_succeeds on,
        groupTerms_succeeds conditions, joined_succeeds joins _ _ _ hd]
    rw [joined, bind_succeeds_of fun _ => map_succeeds,
      joined_succeeds rest parent path (l + 1) hparent, joinedQuery, openScope_bind_succeeds,
      joinShown, List.forall_mem_append, List.forall_mem_cons, joined_sound hparent,
      List.forall_mem_append, List.forall_mem_append]
    apply and_congr _ Iff.rfl
    constructor
    · rintro ⟨d, hd, h⟩
      obtain ⟨hkeys, hclauses, ⟨hon, honBelow⟩, ⟨hconditions, hbelow⟩, hjoins⟩ := (hsteps d hd).mp h
      exact ⟨⟨d, hd, hkeys, hclauses, hon, hconditions⟩, ⟨honBelow, hbelow⟩, hjoins⟩
    · rintro ⟨⟨d, hd, hkeys, hclauses, hon, hconditions⟩, ⟨honBelow, hbelow⟩, hjoins⟩
      exact ⟨d, hd, (hsteps d hd).mpr
        ⟨hkeys, hclauses, ⟨hon, honBelow⟩, ⟨hconditions, hbelow⟩, hjoins⟩⟩
  | ⟨keys, ⟨none, token, clauses, conditions, joins, unions⟩, on⟩ :: rest, parent, path, l, _ => by
    have hunsound : ∀ q : Query, ¬Shown.Sound ctx
        ⟨none, q, some (some parent.name, ⟨keys, q, on⟩)⟩ := by
      rintro q ⟨_, hd, -⟩
      cases hd
    rw [joined, bind_succeeds_of fun _ => map_succeeds, joinedQuery, fail_succeeds, joinShown,
      List.forall_mem_append, List.forall_mem_cons]
    simp only [hunsound, false_and]

end

end Context

end DynamicSql
