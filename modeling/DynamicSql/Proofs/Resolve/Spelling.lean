import DynamicSql.Proofs.Resolve.Coupled
import DynamicSql.Resolve.Query

/-!
# Resolving under another dialect

A dialect is asked in few places: where null counts as zero, and where a date is formatted. What it
answers is put into the text, and nothing that happens while a query is resolved depends on it. So
under two dialects a query is resolved with the same error, or with the same trace and results that
differ in their text only (`selectParts_respelled`); where nothing in the query is spelled by the
dialect, the results are the same.
-/

namespace DynamicSql

/-- Whether a shown column is spelled alike in all dialects. -/
def SelectItem.isPortable (item : SelectItem) : Bool :=
  match item.aggregate with
  | .sum | .avg | .dateFormat _ => false
  | _ => true

/-- Whether rows are grouped by something that is spelled alike in all dialects. -/
def GroupItem.isPortable (item : GroupItem) : Bool := item.pattern?.isNone

/-- Whether rows are ordered by something that is spelled alike in all dialects. -/
def OrderItem.isPortable (item : OrderItem) : Bool :=
  match item.operand with
  | .sum | .avg => false
  | _ => true

/-- Whether the clauses of a query are spelled alike in all dialects. -/
def Clauses.isPortable (clauses : Clauses) : Bool :=
  clauses.columns.all SelectItem.isPortable && clauses.groups.all GroupItem.isPortable &&
    clauses.orders.all OrderItem.isPortable

mutual

/-- Whether a query, with all that it holds, is spelled alike in all dialects: there is no sum, no
average and no formatted date in it. -/
def Query.isPortable : Query → Bool
  | ⟨_, _, clauses, conditions, joins, unions⟩ =>
    clauses.isPortable && conditions.isPortable && portableJoins joins && portableBranches unions

/-- Whether a group of conditions is spelled alike in all dialects. -/
def ConditionGroup.isPortable : ConditionGroup → Bool
  | ⟨conditions, groups⟩ => portableConditions conditions && portableSubgroups groups

/-- Whether conditions are spelled alike in all dialects. -/
def portableConditions : List Condition → Bool
  | [] => true
  | ⟨_, _, filter⟩ :: rest => filter.isPortable && portableConditions rest

/-- Whether what is said of a field is spelled alike in all dialects. -/
def Filter.isPortable : Filter → Bool
  | .compareDate _ _ _ => false
  | .memberOf _ query => query.isPortable
  | _ => true

/-- Whether groups are spelled alike in all dialects. -/
def portableSubgroups : List Subgroup → Bool
  | [] => true
  | ⟨_, group⟩ :: rest => group.isPortable && portableSubgroups rest

/-- Whether joins are spelled alike in all dialects. -/
def portableJoins : List Join → Bool
  | [] => true
  | ⟨_, query, on⟩ :: rest => query.isPortable && on.isPortable && portableJoins rest

/-- Whether branches are spelled alike in all dialects. -/
def portableBranches : List UnionBranch → Bool
  | [] => true
  | ⟨_, query⟩ :: rest => query.isPortable && portableBranches rest

end

/-- Two results differ in spelling only, if at all: they have the same size, and where `plain` holds
they are the same. -/
structure Respelled {α : Type} (plain : Prop) (size : α → Nat) (a b : α) : Prop where
  size : size a = size b
  same : plain → a = b

/-- What is kept as it is has the same size. -/
theorem Respelled.refl {α : Type} {plain : Prop} {size : α → Nat} (a : α) :
    Respelled plain size a a :=
  ⟨rfl, fun _ => rfl⟩

/-- Lists of one size are empty together. -/
theorem Respelled.isEmpty {α : Type} {plain : Prop} {xs ys : List α}
    (h : Respelled plain List.length xs ys) : xs.isEmpty = ys.isEmpty := by
  rw [Bool.eq_iff_iff, List.isEmpty_iff_length_eq_zero, List.isEmpty_iff_length_eq_zero, h.size]

/-- Lists are respelled part by part. -/
theorem Respelled.append {α : Type} {plain : Prop} {xs ys xs' ys' : List α}
    (h : Respelled plain List.length xs ys) (h' : Respelled plain List.length xs' ys') :
    Respelled plain List.length (xs ++ xs') (ys ++ ys') :=
  ⟨by rw [List.length_append, List.length_append, h.size, h'.size],
    fun hplain => by rw [h.same hplain, h'.same hplain]⟩

/-- Two fragments are the same where `plain` holds. -/
def Spelled (plain : Prop) (f g : Fragment) : Prop := plain → f = g

/-- Fragments that are the same one by one. -/
theorem respelled_of_forall₂ {plain : Prop} {fs gs : List Fragment}
    (h : List.Forall₂ (Spelled plain) fs gs) : Respelled plain List.length fs gs := by
  refine ⟨h.length_eq, fun hplain => ?_⟩
  exact List.forall₂_eq_eq_eq ▸ h.imp fun _ _ hfg => hfg hplain

/-- The number of columns that tables show. -/
def Collected.width (lists : Collected) : Nat := lists.columns.length

/-- Collected lists have their columns one after the other. -/
theorem Collected.width_append (a b : Collected) : (a ++ b).width = a.width + b.width :=
  List.length_append

/-- What two tables add, where each is respelled. -/
theorem Collected.append_respelled {plain : Prop} {a b a' b' : Collected}
    (h : Respelled plain width a a') (h' : Respelled plain width b b') :
    Respelled plain width (a ++ b) (a' ++ b') :=
  ⟨by rw [width_append, width_append, h.size, h'.size],
    fun hplain => by rw [h.same hplain, h'.same hplain]⟩

/-- The number of columns that joins show. -/
def Joined.width (added : Joined) : Nat := added.collected.width

/-- What joins add is respelled join by join. -/
theorem Joined.append_respelled {plain : Prop} {a b a' b' : Joined}
    (h : Respelled plain width a a') (h' : Respelled plain width b b') :
    Respelled plain width (a ++ b) (a' ++ b') := by
  refine ⟨?_, fun hplain => by rw [h.same hplain, h'.same hplain]⟩
  have hsize : ∀ x y : Joined, (x ++ y).width = x.width + y.width :=
    fun x y => Collected.width_append x.collected y.collected
  rw [hsize, hsize, h.size, h'.size]

/-- The number of columns that a `SELECT` shows. -/
def SelectParts.width (parts : SelectParts) : Nat := parts.collected.width

namespace Context

open Resolve

/-- What is known while a statement is resolved, with another dialect. -/
def withDialect (ctx : Context) (dialect : Dialect) : Context := { ctx with dialect }

variable {ctx : Context} {dialect : Dialect} {scope : Scope} {plain : Prop}

/-- The other dialect spells an item of the `SELECT` list differently only where it is not
portable. -/
theorem selectItem_respelled (item : SelectItem) (h : plain → item.isPortable) :
    Coupled .equal (Spelled plain) (ctx.selectItem scope item)
      ((ctx.withDialect dialect).selectItem scope item) := by
  obtain ⟨field, aggregate, alias?⟩ := item
  cases aggregate with
  | sum | avg | dateFormat =>
    refine .after fun operand => .pure fun hplain => ?_
    exact absurd (h hplain) (by simp [SelectItem.isPortable])
  | _ => exact .same _ fun _ _ => rfl

/-- So it is for an item of the `GROUP BY` list. -/
theorem groupItem_respelled (item : GroupItem) (h : plain → item.isPortable) :
    Coupled .equal (Spelled plain) (ctx.groupItem scope item)
      ((ctx.withDialect dialect).groupItem scope item) := by
  obtain ⟨field, pattern?⟩ := item
  refine .after fun operand => .pure fun hplain => ?_
  cases pattern? with
  | some pattern => exact absurd (h hplain) (by simp [GroupItem.isPortable])
  | none => rfl

/-- So it is for an item of the `ORDER BY` list. -/
theorem orderItem_respelled (item : OrderItem) (h : plain → item.isPortable) :
    Coupled .equal (Spelled plain) (ctx.orderItem scope item)
      ((ctx.withDialect dialect).orderItem scope item) := by
  obtain ⟨field, direction, operand⟩ := item
  cases operand with
  | sum | avg =>
    refine Coupled.map (R := Spelled plain) (.after fun found => .pure fun hplain => ?_)
      fun f g hfg hplain => by rw [hfg hplain]
    exact absurd (h hplain) (by simp [OrderItem.isPortable])
  | _ => exact .same _ fun _ _ => rfl

/-- A list is resolved entry by entry. -/
theorem mapM_respelled {α : Type} {items : List α} {f g : α → Resolve Fragment}
    (h : ∀ item ∈ items, Coupled .equal (Spelled plain) (f item) (g item)) :
    Coupled .equal (Respelled plain List.length) (items.mapM f) (items.mapM g) :=
  (Coupled.mapM (List.forall₂_same.mpr h)).mono fun _ _ => respelled_of_forall₂

/-- So it is for the columns that a query names. -/
theorem explicitColumns_respelled (clauses : Clauses) (h : plain → clauses.isPortable) :
    Coupled .equal (Respelled plain List.length) (ctx.explicitColumns scope clauses)
      ((ctx.withDialect dialect).explicitColumns scope clauses) := by
  unfold explicitColumns
  split
  · exact .pure (.refl [])
  · refine mapM_respelled fun item hitem => selectItem_respelled item fun hplain => ?_
    simp only [Clauses.isPortable, Bool.and_eq_true, List.all_eq_true] at h
    exact (h hplain).1.1 item (List.mem_filter.mp hitem).1

/-- So it is for the columns that a query shows, whether it names any or not. -/
theorem shownColumns_respelled (clauses : Clauses) (h : plain → clauses.isPortable) :
    Coupled .equal (Respelled plain List.length) (ctx.shownColumns scope clauses)
      ((ctx.withDialect dialect).shownColumns scope clauses) := by
  unfold shownColumns
  split
  · exact .pure (.refl _)
  · exact explicitColumns_respelled clauses h

/-- So it is for the columns that a joined query shows. -/
theorem joinedColumns_respelled (clauses : Clauses) (h : plain → clauses.isPortable) :
    Coupled .equal (Respelled plain List.length) (ctx.joinedColumns scope clauses)
      ((ctx.withDialect dialect).joinedColumns scope clauses) := by
  unfold joinedColumns
  split
  · exact .pure (.refl [])
  · exact explicitColumns_respelled clauses h

/-- So it is for all that the clauses collect. -/
theorem collect_respelled {clauses : Clauses} {path : Path}
    {columns columns' : Resolve (List Fragment)} (extent : Extent) (h : plain → clauses.isPortable)
    (hcolumns : Coupled .equal (Respelled plain List.length) columns columns') :
    Coupled .equal (Respelled plain Collected.width)
      (ctx.collect scope clauses path columns extent)
      ((ctx.withDialect dialect).collect scope clauses path columns' extent) := by
  simp only [Clauses.isPortable, Bool.and_eq_true, List.all_eq_true] at h
  have hgroups : Coupled .equal (Respelled plain List.length)
      (clauses.groups.mapM (ctx.groupItem scope))
      (clauses.groups.mapM ((ctx.withDialect dialect).groupItem scope)) :=
    mapM_respelled fun item hitem => groupItem_respelled item fun hplain =>
      (h hplain).1.2 item hitem
  have horders : Coupled .equal (Respelled plain List.length)
      (clauses.orders.mapM (ctx.orderItem scope))
      (clauses.orders.mapM ((ctx.withDialect dialect).orderItem scope)) :=
    mapM_respelled fun item hitem => orderItem_respelled item fun hplain => (h hplain).2 item hitem
  cases extent with
  | everything =>
    refine hcolumns.bind fun columns columns' hcolumns => ?_
    refine hgroups.bind fun groups groups' hgroups => ?_
    refine .after fun havings => ?_
    refine horders.map fun orders orders' horders => ⟨hcolumns.size, fun hplain => ?_⟩
    rw [hcolumns.same hplain, hgroups.same hplain, horders.same hplain]
  | counting =>
    refine hgroups.bind fun groups groups' hgroups => ?_
    refine .after fun havings => .pure ⟨rfl, fun hplain => ?_⟩
    rw [hgroups.same hplain]
  | conditionsOnly => exact .pure (.refl _)

/-- So it is for a condition that holds no query. -/
theorem simpleCondition_respelled (path : Path) (i : Nat) (field : String) (filter : Filter)
    (h : plain → filter.isPortable) :
    Coupled .equal (Spelled plain) (ctx.simpleCondition scope path i field filter)
      ((ctx.withDialect dialect).simpleCondition scope path i field filter) := by
  cases filter with
  | compareDate comparison pattern v =>
    refine .after fun operand => .after fun marker => .pure fun hplain => ?_
    exact absurd (h hplain) (by simp [Filter.isPortable])
  | _ => exact .same _ fun _ _ => rfl

/-- Whether there are columns does not depend on their spelling. -/
theorem requireColumns_respelled {parts parts' : SelectParts} (e : Error)
    (h : Respelled plain SelectParts.width parts parts') :
    Coupled .equal Eq (requireColumns parts e) (requireColumns parts' e) := by
  have hcolumns : Respelled plain List.length parts.collected.columns parts'.collected.columns :=
    ⟨h.size, fun hplain => by rw [h.same hplain]⟩
  unfold requireColumns
  rw [hcolumns.isEmpty]
  exact .same _ fun _ => rfl

mutual

/-- A `SELECT` shows as many columns under another dialect, or fails in the same way. -/
theorem selectParts_respelled : ∀ (q : Query) (table : String) (path : Path) (extent : Extent),
    (plain → q.isPortable) → Coupled .equal (Respelled plain SelectParts.width)
      (ctx.selectParts table path extent q)
      ((ctx.withDialect dialect).selectParts table path extent q)
  | ⟨_, token, clauses, conditions, joins, _⟩, table, path, extent, h => by
    simp only [Query.isPortable, Bool.and_eq_true] at h
    have hclauses : plain → clauses.isPortable := fun hplain => (h hplain).1.1.1
    rw [selectParts, selectParts]
    refine .after fun scope => ?_
    refine (collect_respelled extent hclauses (shownColumns_respelled clauses hclauses)).bind
      fun own own' hown => ?_
    refine (joined_respelled joins scope _ extent 0 fun hplain => (h hplain).1.2).bind
      fun added added' hadded => ?_
    refine (groupTerms_respelled conditions scope _ fun hplain => (h hplain).1.1.2).map
      fun terms terms' hterms => ?_
    refine ⟨?_, fun hplain => ?_⟩
    · exact (Collected.append_respelled hown
        ⟨hadded.size, fun hplain => by rw [hadded.same hplain]⟩).size
    · rw [hown.same hplain, hadded.same hplain, hterms.same hplain]
      rfl

/-- The other dialect takes the same steps for branches. -/
theorem unionBranches_respelled : ∀ (branches : List UnionBranch) (table : String) (path : Path)
    (k : Nat), (plain → portableBranches branches) → Coupled .equal (Spelled plain)
      (ctx.unionBranches table path k branches)
      ((ctx.withDialect dialect).unionBranches table path k branches)
  | [], _, _, _, _ => by
    rw [unionBranches, unionBranches]
    exact .pure fun _ => rfl
  | ⟨kind, ⟨own, token, clauses, conditions, joins, unions⟩⟩ :: rest, table, path, k, h => by
    simp only [portableBranches, Bool.and_eq_true] at h
    rw [unionBranches, unionBranches]
    refine (selectParts_respelled _ _ _ .everything fun hplain => (h hplain).1).bind
      fun parts parts' hparts => ?_
    refine (requireColumns_respelled _ hparts).bind fun _ _ _ => ?_
    refine (unionBranches_respelled rest table path (k + 1) fun hplain => (h hplain).2).map
      fun others others' hothers hplain => ?_
    rw [hparts.same hplain, hothers hplain]

/-- So it does for a group. -/
theorem groupTerms_respelled : ∀ (group : ConditionGroup) (scope : Scope) (path : Path),
    (plain → group.isPortable) → Coupled .equal (Respelled plain List.length)
      (ctx.groupTerms scope path group) ((ctx.withDialect dialect).groupTerms scope path group)
  | ⟨conditions, groups⟩, scope, path, h => by
    simp only [ConditionGroup.isPortable, Bool.and_eq_true] at h
    rw [groupTerms, groupTerms]
    refine (conditionTerms_respelled conditions scope path 0 fun hplain => (h hplain).1).bind
      fun leaves leaves' hleaves => ?_
    refine (subgroupTerms_respelled groups scope path 0 fun hplain => (h hplain).2).map
      fun others others' hothers => ?_
    exact hleaves.append hothers

/-- So it does for conditions. -/
theorem conditionTerms_respelled : ∀ (conditions : List Condition) (scope : Scope) (path : Path)
    (i : Nat), (plain → portableConditions conditions) →
    Coupled .equal (Respelled plain List.length) (ctx.conditionTerms scope path i conditions)
      ((ctx.withDialect dialect).conditionTerms scope path i conditions)
  | [], _, _, _, _ => by
    rw [conditionTerms, conditionTerms]
    exact .pure (.refl [])
  | ⟨connector, field, filter⟩ :: rest, scope, path, i, h => by
    simp only [portableConditions, Bool.and_eq_true] at h
    rw [conditionTerms, conditionTerms]
    refine (conditionText_respelled filter scope path i field fun hplain => (h hplain).1).bind
      fun text text' htext => ?_
    refine (conditionTerms_respelled rest scope path (i + 1) fun hplain => (h hplain).2).map
      fun others others' hothers => ?_
    exact ⟨congrArg (· + 1) hothers.size, fun hplain => by rw [htext hplain, hothers.same hplain]⟩

/-- So it does for a single condition, with a query inside it or without. -/
theorem conditionText_respelled : ∀ (filter : Filter) (scope : Scope) (path : Path) (i : Nat)
    (field : String), (plain → filter.isPortable) → Coupled .equal (Spelled plain)
      (ctx.conditionText scope path i field filter)
      ((ctx.withDialect dialect).conditionText scope path i field filter)
  | .memberOf test ⟨some table, token, clauses, conditions, joins, unions⟩, scope, path, i, field,
    h => by
    simp only [Filter.isPortable] at h
    have hunions : plain → portableBranches unions := fun hplain => by
      have hquery := h hplain
      simp only [Query.isPortable, Bool.and_eq_true] at hquery
      exact hquery.2
    rw [conditionText, conditionText]
    refine .after fun operand => ?_
    refine (selectParts_respelled _ table _ .everything h).bind fun parts parts' hparts => ?_
    refine (requireColumns_respelled _ hparts).bind fun _ _ _ => ?_
    refine (unionBranches_respelled unions table _ 0 hunions).map
      fun branches branches' hbranches hplain => ?_
    rw [hparts.same hplain, hbranches hplain]
  | .memberOf test ⟨none, _, _, _, _, _⟩, _, _, _, _, _ => by
    exact .fail rfl
  | .compare comparison v, _, path, i, field, h =>
    simpleCondition_respelled path i field (.compare comparison v) h
  | .compareField comparison other, _, path, i, field, h =>
    simpleCondition_respelled path i field (.compareField comparison other) h
  | .compareDate comparison pattern v, _, path, i, field, h =>
    simpleCondition_respelled path i field (.compareDate comparison pattern v) h
  | .like wildcards v, _, path, i, field, h =>
    simpleCondition_respelled path i field (.like wildcards v) h
  | .member test v, _, path, i, field, h =>
    simpleCondition_respelled path i field (.member test v) h
  | .guard guard v, _, path, i, field, h =>
    simpleCondition_respelled path i field (.guard guard v) h
  | .isNull, _, path, i, field, h => simpleCondition_respelled path i field .isNull h
  | .isNotNull, _, path, i, field, h => simpleCondition_respelled path i field .isNotNull h

/-- So it does for the groups of a group. -/
theorem subgroupTerms_respelled : ∀ (groups : List Subgroup) (scope : Scope) (path : Path)
    (j : Nat), (plain → portableSubgroups groups) →
    Coupled .equal (Respelled plain List.length) (ctx.subgroupTerms scope path j groups)
      ((ctx.withDialect dialect).subgroupTerms scope path j groups)
  | [], _, _, _, _ => by
    rw [subgroupTerms, subgroupTerms]
    exact .pure (.refl [])
  | ⟨connector, group⟩ :: rest, scope, path, j, h => by
    simp only [portableSubgroups, Bool.and_eq_true] at h
    rw [subgroupTerms, subgroupTerms]
    refine (groupTerms_respelled group scope _ fun hplain => (h hplain).1).bind
      fun terms terms' hterms => ?_
    refine (subgroupTerms_respelled rest scope path (j + 1) fun hplain => (h hplain).2).map
      fun others others' hothers => ?_
    rw [hterms.isEmpty]
    split
    · exact hothers
    · exact ⟨congrArg (· + 1) hothers.size,
        fun hplain => by rw [hterms.same hplain, hothers.same hplain]⟩

/-- So it does for joins. -/
theorem joined_respelled : ∀ (joins : List Join) (parent : Scope) (path : Path) (extent : Extent)
    (l : Nat), (plain → portableJoins joins) → Coupled .equal (Respelled plain Joined.width)
      (ctx.joined parent path extent l joins)
      ((ctx.withDialect dialect).joined parent path extent l joins)
  | [], _, _, _, _, _ => by
    rw [joined, joined]
    exact .pure (.refl Joined.empty)
  | ⟨keys, ⟨some table, token, clauses, conditions, joins, unions⟩, on⟩ :: rest, parent, path,
    extent, l, h => by
    simp only [portableJoins, Query.isPortable, Bool.and_eq_true] at h
    have hclauses : plain → clauses.isPortable := fun hplain => (h hplain).1.1.1.1.1
    rw [joined, joined, joinedQuery, joinedQuery]
    refine Coupled.bind (R := Respelled plain Joined.width) ?_ fun first first' hfirst => ?_
    · refine .after fun scope => .after fun keyText => ?_
      refine (collect_respelled extent hclauses (joinedColumns_respelled clauses hclauses)).bind
        fun own own' hown => ?_
      refine (groupTerms_respelled on scope _ fun hplain => (h hplain).1.2).bind
        fun extra extra' hextra => ?_
      refine (groupTerms_respelled conditions scope _ fun hplain => (h hplain).1.1.1.1.2).bind
        fun terms terms' hterms => ?_
      refine (joined_respelled joins scope _ extent 0 fun hplain => (h hplain).1.1.1.2).map
        fun inner inner' hinner => ?_
      refine Joined.append_respelled ⟨hown.size, fun hplain => ?_⟩ hinner
      rw [hown.same hplain, hextra.same hplain, hterms.same hplain]
      rfl
    · refine (joined_respelled rest parent path extent (l + 1) fun hplain => (h hplain).2).map
        fun others others' hothers => ?_
      exact Joined.append_respelled hfirst hothers
  | ⟨keys, ⟨none, _, _, _, _, _⟩, on⟩ :: rest, parent, path, extent, l, h => by
    rw [joined, joined, joinedQuery, joinedQuery]
    exact .fail rfl

end

/-- A query with its unions is respelled under another dialect, or fails in the same way. -/
theorem shownParts_respelled (q : Query) (table : String) (path : Path)
    (h : plain → q.isPortable) : Coupled .equal (Respelled plain SelectParts.width)
      (ctx.shownParts table path q) ((ctx.withDialect dialect).shownParts table path q) := by
  refine (selectParts_respelled q table path .everything h).bind fun parts parts' hparts => ?_
  exact (requireColumns_respelled _ hparts).map fun _ _ _ => hparts

/-- So it does for a query with its unions. -/
theorem compoundSelect_respelled (q : Query) (table : String) (path : Path)
    (h : plain → q.isPortable) : Coupled .equal (Spelled plain)
      (ctx.compoundSelect table path q)
      ((ctx.withDialect dialect).compoundSelect table path q) := by
  have hunions : plain → portableBranches q.unions := fun hplain => by
    have hquery := h hplain
    cases q
    simp only [Query.isPortable, Bool.and_eq_true] at hquery
    exact hquery.2
  refine (shownParts_respelled q table path h).bind fun parts parts' hparts => ?_
  refine (unionBranches_respelled q.unions table path 0 hunions).map
    fun branches branches' hbranches hplain => ?_
  rw [hparts.same hplain, hbranches hplain]

end Context

end DynamicSql
