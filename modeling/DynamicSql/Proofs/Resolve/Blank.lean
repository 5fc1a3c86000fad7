import DynamicSql.Proofs.Resolve.Agree
import DynamicSql.Resolve.Query
import DynamicSql.Resolve.References

/-!
# Queries without their values

A query is blanked by leaving its bound values out. What stays of a value is what the text shows of
it: whether a search pattern is made from null, and how many values a membership test is among, if
it is among any. Two queries that are the same when blanked differ in bound values only. The main
statement is `compoundSelect_blank`: a query and its blanked form are resolved alike, to the same
text or to the same error.
-/

namespace DynamicSql

namespace Value

/-- What is left of the operand of a search: whether it is null. -/
def blankPattern (v : Value) : Value := if v.isNull then .null else .string ""

/-- What is left of the operand of a membership test: the number of its members, if it has any. -/
def blankMembers (v : Value) : Value :=
  match v.members? with
  | some members => .list (members.map fun _ => .null)
  | none => .null

/-- Whether a pattern is null is kept. -/
theorem isNull_blankPattern (v : Value) : v.blankPattern.isNull = v.isNull := by
  unfold blankPattern
  cases h : v.isNull with
  | true => rfl
  | false => rfl

/-- A blanked value has as many members as before, all of them null. -/
theorem members?_blankMembers (v : Value) :
    v.blankMembers.members? = v.members?.map (·.map fun _ => .null) := by
  unfold blankMembers
  cases v.members? with
  | none => rfl
  | some members => rfl

end Value

/-- A condition on groups without its value. -/
def HavingItem.blank (item : HavingItem) : HavingItem := { item with value := .null }

/-- Clauses without their values. -/
def Clauses.blank (clauses : Clauses) : Clauses :=
  { clauses with havings := clauses.havings.map HavingItem.blank }

mutual

/-- A query without its values. -/
def Query.blank : Query → Query
  | ⟨own, token, clauses, conditions, joins, unions⟩ =>
    ⟨own, token, clauses.blank, conditions.blank, blankJoins joins, blankBranches unions⟩

/-- Branches of a union without their values. -/
def blankBranches : List UnionBranch → List UnionBranch
  | [] => []
  | ⟨kind, query⟩ :: rest => ⟨kind, query.blank⟩ :: blankBranches rest

/-- A group of conditions without its values. -/
def ConditionGroup.blank : ConditionGroup → ConditionGroup
  | ⟨conditions, groups⟩ => ⟨blankConditions conditions, blankSubgroups groups⟩

/-- Conditions without their values. -/
def blankConditions : List Condition → List Condition
  | [] => []
  | ⟨connector, field, filter⟩ :: rest => ⟨connector, field, filter.blank⟩ :: blankConditions rest

/-- What a condition says of its field, without the value. -/
def Filter.blank : Filter → Filter
  | .compare comparison _ => .compare comparison .null
  | .compareField comparison other => .compareField comparison other
  | .compareDate comparison pattern _ => .compareDate comparison pattern .null
  | .like wildcards v => .like wildcards v.blankPattern
  | .member test v => .member test v.blankMembers
  | .memberOf test query => .memberOf test query.blank
  | .guard guard _ => .guard guard .null
  | .isNull => .isNull
  | .isNotNull => .isNotNull

/-- Groups without their values. -/
def blankSubgroups : List Subgroup → List Subgroup
  | [] => []
  | ⟨connector, group⟩ :: rest => ⟨connector, group.blank⟩ :: blankSubgroups rest

/-- Joins without their values. -/
def blankJoins : List Join → List Join
  | [] => []
  | ⟨keys, query, on⟩ :: rest => ⟨keys, query.blank, on.blank⟩ :: blankJoins rest

end

mutual

/-- The tables of a query do not depend on its values. -/
theorem Query.references_blank : ∀ (q : Query) (table : String),
    q.blank.references table = q.references table
  | ⟨_, _, _, conditions, joins, unions⟩, table => by
    rw [Query.blank, Query.references, Query.references, conditions.references_blank,
      joinReferences_blank joins, branchReferences_blank unions]

/-- The references of a group do not depend on its values. -/
theorem ConditionGroup.references_blank : ∀ g : ConditionGroup,
    g.blank.references = g.references
  | ⟨conditions, groups⟩ => by
    rw [ConditionGroup.blank, ConditionGroup.references, ConditionGroup.references,
      conditionReferences_blank conditions, subgroupReferences_blank groups]

/-- Nor do those of conditions. -/
theorem conditionReferences_blank : ∀ conditions : List Condition,
    conditionReferences (blankConditions conditions) = conditionReferences conditions
  | [] => by rw [blankConditions]
  | ⟨_, _, filter⟩ :: rest => by
    rw [blankConditions, conditionReferences, conditionReferences, filter.references_blank,
      conditionReferences_blank rest]

/-- Nor do those of a query inside a condition. -/
theorem Filter.references_blank : ∀ filter : Filter, filter.blank.references = filter.references
  | .memberOf _ query => by
    rw [Filter.blank, Filter.references, Filter.references, query.ownReferences_blank]
  | .compare _ _ | .compareField _ _ | .compareDate _ _ _ | .like _ _ | .member _ _ | .guard _ _
  | .isNull | .isNotNull => by
    simp only [Filter.blank, Filter.references]

/-- Nor do those of a query with a table of its own. -/
theorem Query.ownReferences_blank : ∀ q : Query, q.blank.ownReferences = q.ownReferences
  | ⟨some _, _, _, conditions, joins, unions⟩ => by
    rw [Query.blank, Query.ownReferences, Query.ownReferences, conditions.references_blank,
      joinReferences_blank joins, branchReferences_blank unions]
  | ⟨none, _, _, _, _, _⟩ => by rw [Query.blank, Query.ownReferences, Query.ownReferences]

/-- Nor do those of the groups in a group. -/
theorem subgroupReferences_blank : ∀ groups : List Subgroup,
    subgroupReferences (blankSubgroups groups) = subgroupReferences groups
  | [] => by rw [blankSubgroups]
  | ⟨_, group⟩ :: rest => by
    rw [blankSubgroups, subgroupReferences, subgroupReferences, group.references_blank,
      subgroupReferences_blank rest]

/-- Nor do those of joins. -/
theorem joinReferences_blank : ∀ joins : List Join,
    joinReferences (blankJoins joins) = joinReferences joins
  | [] => by rw [blankJoins]
  | ⟨_, query, on⟩ :: rest => by
    rw [blankJoins, joinReferences, joinReferences, query.ownReferences_blank,
      on.references_blank, joinReferences_blank rest]

/-- Nor do those of branches. -/
theorem branchReferences_blank : ∀ (branches : List UnionBranch) (table : String),
    branchReferences table (blankBranches branches) = branchReferences table branches
  | [], _ => by rw [blankBranches]
  | ⟨_, query⟩ :: rest, table => by
    rw [blankBranches, branchReferences, branchReferences, query.branchReferences_blank,
      branchReferences_blank rest]

/-- Nor do those of a branch, which may take its table from outside. -/
theorem Query.branchReferences_blank : ∀ (q : Query) (table : String),
    q.blank.branchReferences table = q.branchReferences table
  | ⟨_, _, _, conditions, joins, unions⟩, table => by
    rw [Query.blank, Query.branchReferences, Query.branchReferences, conditions.references_blank,
      joinReferences_blank joins, DynamicSql.branchReferences_blank unions]

end

namespace Context

open Resolve

variable {ctx : Context} {scope : Scope}

/-- The text of a condition on groups does not depend on its value. -/
theorem havingItem_blank (path : Path) (item : HavingItem) (i : Nat) :
    Agree (ctx.havingItem scope path item i) (ctx.havingItem scope path item.blank i) := by
  unfold havingItem
  apply Coupled.after
  intro operand
  exact (Agree.bound _ _ _).before _

/-- What the clauses collect does not depend on the values of conditions on groups. -/
theorem collect_blank (clauses : Clauses) (path : Path) (columns : Resolve (List Fragment))
    (extent : Extent) :
    Agree (ctx.collect scope clauses path columns extent)
      (ctx.collect scope clauses.blank path columns extent) := by
  have hhavings : Agree
      (clauses.havings.zipIdx.mapM fun x => ctx.havingItem scope path x.1 x.2)
      (clauses.blank.havings.zipIdx.mapM fun x => ctx.havingItem scope path x.1 x.2) := by
    rw [Clauses.blank, List.zipIdx_map]
    exact .mapM_eq fun x _ => havingItem_blank path x.1 x.2
  cases extent with
  | everything =>
    apply Coupled.after
    intro columns
    apply Coupled.after
    intro groups
    exact hhavings.before _
  | counting =>
    apply Coupled.after
    intro groups
    exact hhavings.before _
  | conditionsOnly => exact .refl _

/-- Only the number of the members of a value matters. -/
theorem membership_blank (field : String) (test : Membership) (v : Value) (path : Path)
    (index : Nat) : Agree (ctx.membership scope field test v path index)
      (ctx.membership scope field test v.blankMembers path index) := by
  unfold membership
  rw [v.members?_blankMembers]
  cases v.members? with
  | none => exact .refl _
  | some members =>
    have hmarkers : Agree
        (members.zipIdx.mapM fun x => Resolve.bound ⟨.compared, path, index, some x.2⟩ x.1)
        ((members.map fun _ => Value.null).zipIdx.mapM fun x =>
          Resolve.bound ⟨.compared, path, index, some x.2⟩ x.1) := by
      rw [List.zipIdx_map]
      exact .mapM_eq fun x _ => Agree.bound _ x.1 _
    have hsome : ∀ found : List Value, ofOption (.nullMembership field test.text) (some found) =
        (pure found : Resolve (List Value)) := fun _ => rfl
    simp only [Option.map_some, hsome, pure_bind, List.isEmpty_map]
    split
    · exact .refl _
    · apply Coupled.after
      intro operand
      exact hmarkers.before _

/-- A condition without a query does not depend on its value. -/
theorem simpleCondition_blank (path : Path) (index : Nat) (field : String) (filter : Filter) :
    Agree (ctx.simpleCondition scope path index field filter)
      (ctx.simpleCondition scope path index field filter.blank) := by
  cases filter with
  | compare comparison v =>
    apply Coupled.after
    intro operand
    exact (Agree.bound _ v _).before _
  | compareDate comparison pattern v =>
    apply Coupled.after
    intro operand
    exact (Agree.bound _ v _).before _
  | guard guard v =>
    apply Coupled.after
    intro operand
    exact (Agree.bound _ v _).before _
  | like wildcards v =>
    rw [Filter.blank]
    simp only [simpleCondition, v.isNull_blankPattern]
    split
    · exact .refl _
    · apply Coupled.after
      intro operand
      exact (Agree.bound _ _ _).before _
  | member test v => exact membership_blank field test v path index
  | memberOf test query => exact .refl _
  | compareField comparison other => exact .refl _
  | isNull => exact .refl _
  | isNotNull => exact .refl _

mutual

/-- A `SELECT` and its blanked form are resolved alike. -/
theorem selectParts_blank : ∀ (q : Query) (table : String) (path : Path) (extent : Extent),
    Agree (ctx.selectParts table path extent q) (ctx.selectParts table path extent q.blank)
  | ⟨_, token, clauses, conditions, joins, _⟩, table, path, extent => by
    rw [Query.blank, selectParts, selectParts]
    apply Coupled.after
    intro scope
    apply (collect_blank clauses _ _ extent).bind
    rintro own _ rfl
    apply (joined_blank joins scope _ extent 0).bind
    rintro added _ rfl
    exact (groupTerms_blank conditions scope _).before _

/-- Branches and their blanked forms are resolved alike. -/
theorem unionBranches_blank : ∀ (branches : List UnionBranch) (table : String) (path : Path)
    (k : Nat), Agree (ctx.unionBranches table path k branches)
      (ctx.unionBranches table path k (blankBranches branches))
  | [], _, _, _ => by
    rw [blankBranches]
    exact .refl _
  | ⟨kind, ⟨own, token, clauses, conditions, joins, unions⟩⟩ :: rest, table, path, k => by
    have hparts := selectParts_blank ⟨own, token, clauses, conditions, joins, unions⟩
      (own.getD table) (path.childAt "un" k) .everything
    rw [Query.blank] at hparts
    rw [blankBranches, Query.blank, unionBranches, unionBranches]
    apply hparts.bind
    rintro parts _ rfl
    apply Coupled.after
    intro _
    exact (unionBranches_blank rest table path (k + 1)).before _

/-- A group and its blanked form are resolved alike. -/
theorem groupTerms_blank : ∀ (group : ConditionGroup) (scope : Scope) (path : Path),
    Agree (ctx.groupTerms scope path group) (ctx.groupTerms scope path group.blank)
  | ⟨conditions, groups⟩, scope, path => by
    rw [ConditionGroup.blank, groupTerms, groupTerms]
    apply (conditionTerms_blank conditions scope path 0).bind
    rintro leaves _ rfl
    exact (subgroupTerms_blank groups scope path 0).before _

/-- So are conditions and their blanked forms. -/
theorem conditionTerms_blank : ∀ (conditions : List Condition) (scope : Scope) (path : Path)
    (i : Nat), Agree (ctx.conditionTerms scope path i conditions)
      (ctx.conditionTerms scope path i (blankConditions conditions))
  | [], _, _, _ => by
    rw [blankConditions]
    exact .refl _
  | ⟨connector, field, filter⟩ :: rest, scope, path, i => by
    rw [blankConditions, conditionTerms, conditionTerms]
    apply (conditionText_blank filter scope path i field).bind
    rintro text _ rfl
    exact (conditionTerms_blank rest scope path (i + 1)).before _

/-- A condition that holds a query leaves the values of the query out, too. -/
theorem conditionText_blank : ∀ (filter : Filter) (scope : Scope) (path : Path) (i : Nat)
    (field : String), Agree (ctx.conditionText scope path i field filter)
      (ctx.conditionText scope path i field filter.blank)
  | .memberOf test ⟨some table, token, clauses, conditions, joins, unions⟩, scope, path, i, field =>
    by
    have hparts := selectParts_blank ⟨some table, token, clauses, conditions, joins, unions⟩
      table (path.childAt "s" i) .everything
    rw [Query.blank] at hparts
    rw [Filter.blank, Query.blank, conditionText, conditionText]
    apply Coupled.after
    intro operand
    apply hparts.bind
    rintro parts _ rfl
    apply Coupled.after
    intro _
    exact (unionBranches_blank unions table (path.childAt "s" i) 0).before _
  | .memberOf test ⟨none, _, _, _, _, _⟩, _, _, _, _ => by
    rw [Filter.blank, Query.blank]
    exact .refl _
  | .compare comparison v, _, path, i, field => by
    rw [Filter.blank]
    exact simpleCondition_blank path i field (.compare comparison v)
  | .compareField comparison other, _, path, i, field => by
    rw [Filter.blank]
    exact .refl _
  | .compareDate comparison pattern v, _, path, i, field => by
    rw [Filter.blank]
    exact simpleCondition_blank path i field (.compareDate comparison pattern v)
  | .like wildcards v, _, path, i, field => by
    rw [Filter.blank]
    exact simpleCondition_blank path i field (.like wildcards v)
  | .member test v, _, path, i, field => by
    rw [Filter.blank]
    exact simpleCondition_blank path i field (.member test v)
  | .guard guard v, _, path, i, field => by
    rw [Filter.blank]
    exact simpleCondition_blank path i field (.guard guard v)
  | .isNull, _, _, _, _ => by
    rw [Filter.blank]
    exact .refl _
  | .isNotNull, _, _, _, _ => by
    rw [Filter.blank]
    exact .refl _

/-- So are the groups in a group. -/
theorem subgroupTerms_blank : ∀ (groups : List Subgroup) (scope : Scope) (path : Path) (j : Nat),
    Agree (ctx.subgroupTerms scope path j groups)
      (ctx.subgroupTerms scope path j (blankSubgroups groups))
  | [], _, _, _ => by
    rw [blankSubgroups]
    exact .refl _
  | ⟨connector, group⟩ :: rest, scope, path, j => by
    rw [blankSubgroups, subgroupTerms, subgroupTerms]
    apply (groupTerms_blank group scope (path.childAt "ot" j)).bind
    rintro terms _ rfl
    exact (subgroupTerms_blank rest scope path (j + 1)).before _

/-- So are joins. -/
theorem joined_blank : ∀ (joins : List Join) (parent : Scope) (path : Path) (extent : Extent)
    (l : Nat), Agree (ctx.joined parent path extent l joins)
      (ctx.joined parent path extent l (blankJoins joins))
  | [], _, _, _, _ => by
    rw [blankJoins]
    exact .refl _
  | ⟨keys, ⟨some table, token, clauses, conditions, joins, _⟩, on⟩ :: rest, parent, path, extent,
    l => by
    rw [blankJoins, Query.blank, joined, joined, joinedQuery, joinedQuery]
    apply Coupled.bind
    · apply Coupled.after
      intro scope
      apply Coupled.after
      intro keyText
      apply (collect_blank clauses _ _ extent).bind
      rintro own _ rfl
      apply (groupTerms_blank on scope (path.childAt "ofl" l)).bind
      rintro extra _ rfl
      apply (groupTerms_blank conditions scope (path.childAt "fl" l)).bind
      rintro terms _ rfl
      exact (joined_blank joins scope (path.childAt "j" l) extent 0).before _
    · rintro first _ rfl
      exact (joined_blank rest parent path extent (l + 1)).before _
  | ⟨keys, ⟨none, _, _, _, _, _⟩, on⟩ :: rest, parent, path, extent, l => by
    rw [blankJoins, Query.blank, joined, joined, joinedQuery, joinedQuery]
    apply Coupled.after
    intro first
    exact (joined_blank rest parent path extent (l + 1)).before _

end

/-- A query that shows something and its blanked form are resolved alike. -/
theorem shownParts_blank (q : Query) (table : String) (path : Path) :
    Agree (ctx.shownParts table path q) (ctx.shownParts table path q.blank) :=
  (selectParts_blank q table path .everything).before _

/-- A query with its unions and its blanked form are resolved alike. -/
theorem compoundSelect_blank (q : Query) (table : String) (path : Path) :
    Agree (ctx.compoundSelect table path q) (ctx.compoundSelect table path q.blank) := by
  have hunions : q.blank.unions = blankBranches q.unions := by
    cases q
    rw [Query.blank]
  unfold compoundSelect
  rw [hunions]
  apply (shownParts_blank q table path).bind
  rintro parts _ rfl
  exact (unionBranches_blank q.unions table path 0).before _

end Context

end DynamicSql
