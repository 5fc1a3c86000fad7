import DynamicSql.Proofs.Resolve.Blank
import DynamicSql.Proofs.Resolve.Landmarks
import DynamicSql.Proofs.Value.Members

/-!
# Queries with their sets written as lists

A query is listed by writing the operand of every membership test in it, at any depth, as the list
of its members. Two queries that are the same when listed differ in the spellings of such operands
only. Listing a query changes neither what is left of it without its values nor its landmarks.
-/

namespace DynamicSql

mutual

/-- A query with its sets written as lists. -/
def Query.listed : Query → Query
  | ⟨own, token, clauses, conditions, joins, unions⟩ =>
    ⟨own, token, clauses, conditions.listed, listedJoins joins, listedBranches unions⟩

/-- Branches of a union with their sets written as lists. -/
def listedBranches : List UnionBranch → List UnionBranch
  | [] => []
  | ⟨kind, query⟩ :: rest => ⟨kind, query.listed⟩ :: listedBranches rest

/-- A group of conditions with its sets written as lists. -/
def ConditionGroup.listed : ConditionGroup → ConditionGroup
  | ⟨conditions, groups⟩ => ⟨listedConditions conditions, listedSubgroups groups⟩

/-- Conditions with their sets written as lists. -/
def listedConditions : List Condition → List Condition
  | [] => []
  | ⟨connector, field, filter⟩ :: rest =>
    ⟨connector, field, filter.listed⟩ :: listedConditions rest

/-- What a condition says of its field, with a set written as a list. -/
def Filter.listed : Filter → Filter
  | .member test v => .member test v.listed
  | .memberOf test query => .memberOf test query.listed
  | filter => filter

/-- Groups with their sets written as lists. -/
def listedSubgroups : List Subgroup → List Subgroup
  | [] => []
  | ⟨connector, group⟩ :: rest => ⟨connector, group.listed⟩ :: listedSubgroups rest

/-- Joins with their sets written as lists. -/
def listedJoins : List Join → List Join
  | [] => []
  | ⟨keys, query, on⟩ :: rest => ⟨keys, query.listed, on.listed⟩ :: listedJoins rest

end

/-- A list has as many members as the value that it was made from. -/
theorem Value.blankMembers_listed (v : Value) : v.listed.blankMembers = v.blankMembers := by
  rw [blankMembers, blankMembers, members?_listed]

mutual

/-- Without its values, a listed query is what the query itself is. -/
theorem Query.blank_listed : ∀ q : Query, q.listed.blank = q.blank
  | ⟨_, _, _, conditions, joins, unions⟩ => by
    rw [Query.listed, Query.blank, Query.blank, conditions.blank_listed, blankJoins_listed joins,
      blankBranches_listed unions]

/-- Listing the members of memberships does not show in blanked branches. -/
theorem blankBranches_listed : ∀ branches : List UnionBranch,
    blankBranches (listedBranches branches) = blankBranches branches
  | [] => by rw [listedBranches]
  | ⟨_, query⟩ :: rest => by
    rw [listedBranches, blankBranches, blankBranches, query.blank_listed, blankBranches_listed rest]

/-- Nor does it in a blanked group. -/
theorem ConditionGroup.blank_listed : ∀ g : ConditionGroup, g.listed.blank = g.blank
  | ⟨conditions, groups⟩ => by
    rw [ConditionGroup.listed, ConditionGroup.blank, ConditionGroup.blank,
      blankConditions_listed conditions, blankSubgroups_listed groups]

/-- Nor does it in blanked conditions. -/
theorem blankConditions_listed : ∀ conditions : List Condition,
    blankConditions (listedConditions conditions) = blankConditions conditions
  | [] => by rw [listedConditions]
  | ⟨_, _, filter⟩ :: rest => by
    rw [listedConditions, blankConditions, blankConditions, filter.blank_listed,
      blankConditions_listed rest]

/-- Nor does it in what a blanked condition says. -/
theorem Filter.blank_listed : ∀ filter : Filter, filter.listed.blank = filter.blank
  | .member _ v => by rw [Filter.listed, Filter.blank, Filter.blank, v.blankMembers_listed]
  | .memberOf _ query => by rw [Filter.listed, Filter.blank, Filter.blank, query.blank_listed]
  | .compare _ _ | .compareField _ _ | .compareDate _ _ _ | .like _ _ | .guard _ _ | .isNull
  | .isNotNull => by
    simp only [Filter.listed]

/-- Nor does it in the blanked groups of a group. -/
theorem blankSubgroups_listed : ∀ groups : List Subgroup,
    blankSubgroups (listedSubgroups groups) = blankSubgroups groups
  | [] => by rw [listedSubgroups]
  | ⟨_, group⟩ :: rest => by
    rw [listedSubgroups, blankSubgroups, blankSubgroups, group.blank_listed,
      blankSubgroups_listed rest]

/-- Nor does it in blanked joins. -/
theorem blankJoins_listed : ∀ joins : List Join, blankJoins (listedJoins joins) = blankJoins joins
  | [] => by rw [listedJoins]
  | ⟨_, query, on⟩ :: rest => by
    rw [listedJoins, blankJoins, blankJoins, query.blank_listed, on.blank_listed,
      blankJoins_listed rest]

end

mutual

/-- A listed query has the landmarks of the query itself. -/
theorem Query.landmarks_listed : ∀ (q : Query) (path : Path),
    q.listed.landmarks path = q.landmarks path
  | ⟨_, _, _, conditions, joins, _⟩, path => by
    rw [Query.listed, Query.landmarks, Query.landmarks, conditions.landmarks_listed,
      joinLandmarks_listed joins]

/-- Listing members leaves the landmarks of branches. -/
theorem branchLandmarks_listed : ∀ (branches : List UnionBranch) (path : Path) (k : Nat),
    branchLandmarks path k (listedBranches branches) = branchLandmarks path k branches
  | [], _, _ => by rw [listedBranches]
  | ⟨_, query⟩ :: rest, path, k => by
    rw [listedBranches, branchLandmarks, branchLandmarks, query.landmarks_listed,
      branchLandmarks_listed rest]

/-- It leaves those of a group. -/
theorem ConditionGroup.landmarks_listed : ∀ (g : ConditionGroup) (path : Path),
    g.listed.landmarks path = g.landmarks path
  | ⟨conditions, groups⟩, path => by
    rw [ConditionGroup.listed, ConditionGroup.landmarks, ConditionGroup.landmarks,
      conditionLandmarks_listed conditions, subgroupLandmarks_listed groups]

/-- It leaves those of conditions. -/
theorem conditionLandmarks_listed : ∀ (conditions : List Condition) (path : Path) (i : Nat),
    conditionLandmarks path i (listedConditions conditions) = conditionLandmarks path i conditions
  | [], _, _ => by rw [listedConditions]
  | ⟨_, _, filter⟩ :: rest, path, i => by
    rw [listedConditions, conditionLandmarks, conditionLandmarks, filter.landmarks_listed,
      conditionLandmarks_listed rest]

/-- It leaves those of a single condition. -/
theorem Filter.landmarks_listed : ∀ (filter : Filter) (path : Path) (i : Nat),
    filter.listed.landmarks path i = filter.landmarks path i
  | .member _ v, path, i => by
    rw [Filter.listed, Filter.landmarks, Filter.landmarks, v.members?_listed]
  | .memberOf _ ⟨own, token, clauses, conditions, joins, unions⟩, path, i => by
    have hquery := Query.landmarks_listed ⟨own, token, clauses, conditions, joins, unions⟩
      (path.childAt "s" i)
    rw [Query.listed] at hquery
    rw [Filter.listed, Query.listed, Filter.landmarks, Filter.landmarks, hquery,
      branchLandmarks_listed unions]
  | .compare _ _, _, _ | .compareField _ _, _, _ | .compareDate _ _ _, _, _ | .like _ _, _, _
  | .guard _ _, _, _ | .isNull, _, _ | .isNotNull, _, _ => by
    simp only [Filter.listed]

/-- It leaves those of the groups in a group. -/
theorem subgroupLandmarks_listed : ∀ (groups : List Subgroup) (path : Path) (j : Nat),
    subgroupLandmarks path j (listedSubgroups groups) = subgroupLandmarks path j groups
  | [], _, _ => by rw [listedSubgroups]
  | ⟨_, group⟩ :: rest, path, j => by
    rw [listedSubgroups, subgroupLandmarks, subgroupLandmarks, group.landmarks_listed,
      subgroupLandmarks_listed rest]

/-- It leaves those of joins. -/
theorem joinLandmarks_listed : ∀ (joins : List Join) (grouped : Bool) (path : Path) (l : Nat),
    joinLandmarks grouped path l (listedJoins joins) = joinLandmarks grouped path l joins
  | [], _, _, _ => by rw [listedJoins]
  | ⟨_, ⟨_, _, _, conditions, joins, _⟩, on⟩ :: rest, grouped, path, l => by
    rw [listedJoins, Query.listed, joinLandmarks, joinLandmarks, conditions.landmarks_listed,
      on.landmarks_listed, joinLandmarks_listed joins, joinLandmarks_listed rest]

end

/-- Listing a query changes nothing in its unions but their sets. -/
theorem Query.allLandmarks_listed (q : Query) (path : Path) :
    q.listed.allLandmarks path = q.allLandmarks path := by
  have hunions : q.listed.unions = listedBranches q.unions := by
    cases q
    rw [listed]
  rw [allLandmarks, allLandmarks, q.landmarks_listed, hunions, branchLandmarks_listed]

end DynamicSql
