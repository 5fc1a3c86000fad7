import DynamicSql.Proofs.Resolve.Landmarks

/-!
# Operands in the order of the text

The values of a query in the order in which its text asks for them, without any places: first the
`ON` conditions of its joins, then the conditions, then the conditions on groups, each with those of
the joined queries behind them. Joins are walked in pre-order: each join, then the joins inside it,
then those beside it. The main statement is `Query.operands_allLandmarks`: the landmarks of a query
carry these values in this order.
-/

namespace DynamicSql

mutual

/-- The operands of a query without its unions. -/
def Query.selectOperands : Query → List Value
  | ⟨_, _, clauses, conditions, joins, _⟩ =>
    onOperands joins ++ conditions.operands ++ joinedOperands joins ++
      clauses.havings.map (·.value) ++ groupedOperands joins

/-- The operands of the branches of a union. The unions of a branch play no part. -/
def branchOperands : List UnionBranch → List Value
  | [] => []
  | ⟨_, query⟩ :: rest => query.selectOperands ++ branchOperands rest

/-- The operands of a group: those of its conditions, then those of its groups. -/
def ConditionGroup.operands : ConditionGroup → List Value
  | ⟨conditions, groups⟩ => conditionOperands conditions ++ subgroupOperands groups

/-- The operands of conditions. -/
def conditionOperands : List Condition → List Value
  | [] => []
  | ⟨_, _, filter⟩ :: rest => filter.operands ++ conditionOperands rest

/-- The operands of a condition. A search is for a pattern made from the value, and a test for
membership is among all values that the operand stands for. -/
def Filter.operands : Filter → List Value
  | .compare _ v | .compareDate _ _ v | .guard _ v => [v]
  | .like wildcards v => [wildcards.pattern v]
  | .member _ v => v.members?.getD []
  | .memberOf _ ⟨own, token, clauses, conditions, joins, unions⟩ =>
    Query.selectOperands ⟨own, token, clauses, conditions, joins, unions⟩ ++ branchOperands unions
  | .compareField _ _ | .isNull | .isNotNull => []

/-- The operands of groups. -/
def subgroupOperands : List Subgroup → List Value
  | [] => []
  | ⟨_, group⟩ :: rest => group.operands ++ subgroupOperands rest

/-- The operands of the `ON` conditions of joins. -/
def onOperands : List Join → List Value
  | [] => []
  | ⟨_, ⟨_, _, _, _, joins, _⟩, on⟩ :: rest => on.operands ++ onOperands joins ++ onOperands rest

/-- The operands of the conditions of joined queries. -/
def joinedOperands : List Join → List Value
  | [] => []
  | ⟨_, ⟨_, _, _, conditions, joins, _⟩, _⟩ :: rest =>
    conditions.operands ++ joinedOperands joins ++ joinedOperands rest

/-- The operands of the conditions on groups of joined queries. -/
def groupedOperands : List Join → List Value
  | [] => []
  | ⟨_, ⟨_, _, clauses, _, joins, _⟩, _⟩ :: rest =>
    clauses.havings.map (·.value) ++ groupedOperands joins ++ groupedOperands rest

end

/-- The operands of a query with its unions. -/
def Query.operands (q : Query) : List Value := q.selectOperands ++ branchOperands q.unions

namespace Landmark

/-- The values among landmarks without their places. -/
def operands (ls : List Landmark) : List Value := (values ls).map (·.2)

/-- Landmarks have operands list by list. -/
@[simp] theorem operands_append (a b : List Landmark) :
    operands (a ++ b) = operands a ++ operands b := by
  rw [operands, values_append, List.map_append, operands, operands]

/-- Where there is no landmark, there is no operand. -/
@[simp] theorem operands_nil : operands [] = [] := rfl

/-- A table is no operand. -/
@[simp] theorem operands_table_cons (token : Token) (ls : List Landmark) :
    operands (.table token :: ls) = operands ls := rfl

/-- Numbering values does not change them. -/
theorem operands_numbered {α : Type} (slot : Nat → Slot) (value : α → Value) (xs : List α) :
    operands (xs.zipIdx.map fun x => .value (slot x.2) (value x.1)) = xs.map value := by
  unfold operands values
  have hfirst : xs.map value = xs.zipIdx.map (value ∘ Prod.fst) := by
    rw [← List.map_map, List.zipIdx_map_fst]
  rw [List.filterMap_map, List.map_filterMap, hfirst, ← List.filterMap_eq_map]
  rfl

end Landmark

open Landmark (operands)

/-- The operands of conditions on groups are their values. -/
theorem operands_havingLandmarks (path : Path) (havings : List HavingItem) :
    operands (havingLandmarks true path havings) = havings.map (·.value) :=
  Landmark.operands_numbered (fun i => ⟨.comparedGroup, path, i, none⟩) _ havings

mutual

/-- The landmarks of a `SELECT` show its operands in their order. -/
theorem Query.operands_landmarks : ∀ (q : Query) (path : Path),
    Landmark.operands (q.landmarks path) = q.selectOperands
  | ⟨_, token, clauses, conditions, joins, _⟩, path => by
    have hon := operands_source joins (path.child "cl") 0
    have hconditions := conditions.operands_landmarks (path.child "tl")
    have hjoined := operands_conditions joins (path.child "cl") 0
    have hgrouped := operands_havings joins (path.child "cl") 0
    simp only [Query.landmarks, Query.selectOperands, List.cons_append,
      Landmark.operands_table_cons, Landmark.operands_append, operands_havingLandmarks, hon,
      hconditions, hjoined, hgrouped]

/-- Those of branches do. -/
theorem operands_branchLandmarks : ∀ (branches : List UnionBranch) (path : Path) (k : Nat),
    Landmark.operands (branchLandmarks path k branches) = branchOperands branches
  | [], _, _ => by rw [branchLandmarks, branchOperands, Landmark.operands_nil]
  | ⟨_, q⟩ :: rest, path, k => by
    rw [branchLandmarks, branchOperands, Landmark.operands_append, q.operands_landmarks,
      operands_branchLandmarks rest]

/-- Those of a group do. -/
theorem ConditionGroup.operands_landmarks : ∀ (g : ConditionGroup) (path : Path),
    Landmark.operands (g.landmarks path) = g.operands
  | ⟨conditions, groups⟩, path => by
    rw [ConditionGroup.landmarks, ConditionGroup.operands, Landmark.operands_append,
      operands_conditionLandmarks conditions, operands_subgroupLandmarks groups]

/-- Those of conditions do. -/
theorem operands_conditionLandmarks : ∀ (conditions : List Condition) (path : Path) (i : Nat),
    Landmark.operands (conditionLandmarks path i conditions) = conditionOperands conditions
  | [], _, _ => by rw [conditionLandmarks, conditionOperands, Landmark.operands_nil]
  | ⟨_, _, filter⟩ :: rest, path, i => by
    rw [conditionLandmarks, conditionOperands, Landmark.operands_append, filter.operands_landmarks,
      operands_conditionLandmarks rest]

/-- Those of a single condition do. -/
theorem Filter.operands_landmarks : ∀ (filter : Filter) (path : Path) (i : Nat),
    Landmark.operands (filter.landmarks path i) = filter.operands
  | .compare _ _, _, _ | .compareDate _ _ _, _, _ | .guard _ _, _, _ | .like _ _, _, _ => by
    simp only [Filter.landmarks, Filter.operands]
    rfl
  | .member _ v, path, i => by
    have hmembers := Landmark.operands_numbered (fun n => ⟨.compared, path, i, some n⟩) id
      (v.members?.getD [])
    rw [List.map_id] at hmembers
    rw [Filter.landmarks, Filter.operands]
    exact hmembers
  | .memberOf _ ⟨own, token, clauses, conditions, joins, unions⟩, path, i => by
    have hquery := Query.operands_landmarks ⟨own, token, clauses, conditions, joins, unions⟩
      (path.childAt "s" i)
    rw [Filter.landmarks, Filter.operands, Landmark.operands_append, hquery,
      operands_branchLandmarks unions]
  | .compareField _ _, _, _ | .isNull, _, _ | .isNotNull, _, _ => by
    simp only [Filter.landmarks, Filter.operands]
    rfl

/-- Those of the groups in a group do. -/
theorem operands_subgroupLandmarks : ∀ (groups : List Subgroup) (path : Path) (j : Nat),
    Landmark.operands (subgroupLandmarks path j groups) = subgroupOperands groups
  | [], _, _ => by rw [subgroupLandmarks, subgroupOperands, Landmark.operands_nil]
  | ⟨_, group⟩ :: rest, path, j => by
    rw [subgroupLandmarks, subgroupOperands, Landmark.operands_append, group.operands_landmarks,
      operands_subgroupLandmarks rest]

/-- The `ON` conditions of joins, in pre-order. -/
theorem operands_source : ∀ (joins : List Join) (path : Path) (l : Nat),
    Landmark.operands (joinLandmarks true path l joins).source = onOperands joins
  | [], _, _ => by
    rw [joinLandmarks, onOperands]
    rfl
  | ⟨_, ⟨_, token, _, _, joins, _⟩, on⟩ :: rest, path, l => by
    rw [joinLandmarks, onOperands]
    change Landmark.operands (.table token :: on.landmarks (path.childAt "ofl" l) ++
      (joinLandmarks true (path.childAt "j" l) 0 joins).source ++
      (joinLandmarks true path (l + 1) rest).source) = _
    rw [Landmark.operands_append, Landmark.operands_append, Landmark.operands_table_cons,
      on.operands_landmarks, operands_source joins, operands_source rest]

/-- The conditions of joined queries, in pre-order. -/
theorem operands_conditions : ∀ (joins : List Join) (path : Path) (l : Nat),
    Landmark.operands (joinLandmarks true path l joins).conditions = joinedOperands joins
  | [], _, _ => by
    rw [joinLandmarks, joinedOperands]
    rfl
  | ⟨_, ⟨_, _, _, conditions, joins, _⟩, _⟩ :: rest, path, l => by
    rw [joinLandmarks, joinedOperands]
    change Landmark.operands (conditions.landmarks (path.childAt "fl" l) ++
      (joinLandmarks true (path.childAt "j" l) 0 joins).conditions ++
      (joinLandmarks true path (l + 1) rest).conditions) = _
    rw [Landmark.operands_append, Landmark.operands_append, conditions.operands_landmarks,
      operands_conditions joins, operands_conditions rest]

/-- The conditions on groups of joined queries, in pre-order. -/
theorem operands_havings : ∀ (joins : List Join) (path : Path) (l : Nat),
    Landmark.operands (joinLandmarks true path l joins).havings = groupedOperands joins
  | [], _, _ => by
    rw [joinLandmarks, groupedOperands]
    rfl
  | ⟨_, ⟨_, _, clauses, _, joins, _⟩, _⟩ :: rest, path, l => by
    rw [joinLandmarks, groupedOperands]
    change Landmark.operands (havingLandmarks true (path.childAt "gh" l) clauses.havings ++
      (joinLandmarks true (path.childAt "j" l) 0 joins).havings ++
      (joinLandmarks true path (l + 1) rest).havings) = _
    rw [Landmark.operands_append, Landmark.operands_append, operands_havingLandmarks,
      operands_havings joins, operands_havings rest]

end

/-- The landmarks of a query carry its operands in the order of the text. -/
theorem Query.operands_allLandmarks (q : Query) (path : Path) :
    Landmark.operands (q.allLandmarks path) = q.operands := by
  rw [allLandmarks, Landmark.operands_append, q.operands_landmarks, operands_branchLandmarks,
    Query.operands]

end DynamicSql
