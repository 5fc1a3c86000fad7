import DynamicSql.Query.Basic
import DynamicSql.Sql.Path
import DynamicSql.Value.Members
import Mathlib.Algebra.Order.Group.Multiset
import Mathlib.Tactic.Abel

/-!
# Landmarks of a statement

What the text of a statement shows of a description, apart from its words: the tables that are
brought in, and the values that are bound, each at its place. The landmarks of a query are listed
in the order of the text, which is not the order in which its parts are resolved: the `ON`
conditions of all joins come first, then all conditions behind `WHERE`, then all conditions on
groups.
-/

namespace DynamicSql

/-- A table that a statement brings in, or a value that it binds. -/
inductive Landmark where
  | table (token : Token)
  | value (slot : Slot) (v : Value)

namespace Landmark

/-- The token of a table. -/
def token? : Landmark → Option Token
  | table token => some token
  | value _ _ => none

/-- A value with its place. -/
def value? : Landmark → Option (Slot × Value)
  | table _ => none
  | value slot v => some (slot, v)

/-- What a text shows of a landmark: a table, or the place of a value. -/
def mark : Landmark → Token ⊕ Slot
  | table token => .inl token
  | value slot _ => .inr slot

/-- The tables among landmarks. -/
def tokens (ls : List Landmark) : List Token := ls.filterMap token?

/-- The values among landmarks. -/
def values (ls : List Landmark) : List (Slot × Value) := ls.filterMap value?

/-- The places of the values among landmarks. -/
def slots (ls : List Landmark) : List Slot := (values ls).map (·.1)

/-- Landmarks bring in tables list by list. -/
@[simp] theorem tokens_append (a b : List Landmark) : tokens (a ++ b) = tokens a ++ tokens b :=
  List.filterMap_append

/-- A table that is brought in comes in front of those behind it. -/
@[simp] theorem tokens_table_cons (token : Token) (ls : List Landmark) :
    tokens (.table token :: ls) = token :: tokens ls := rfl

/-- Landmarks bind values list by list. -/
@[simp] theorem values_append (a b : List Landmark) : values (a ++ b) = values a ++ values b :=
  List.filterMap_append

/-- Landmarks have places list by list. -/
@[simp] theorem slots_append (a b : List Landmark) : slots (a ++ b) = slots a ++ slots b := by
  rw [slots, values_append, List.map_append, slots, slots]

/-- The places of values are among the marks. -/
theorem slots_eq_marks (ls : List Landmark) : slots ls = (ls.map mark).filterMap Sum.getRight? := by
  unfold slots values
  rw [List.map_filterMap, List.filterMap_map]
  congr 1
  funext l
  cases l <;> rfl

/-- The tables are among the marks. -/
theorem tokens_eq_marks (ls : List Landmark) :
    tokens ls = (ls.map mark).filterMap Sum.getLeft? := by
  unfold tokens
  rw [List.filterMap_map]
  congr 1
  funext l
  cases l <;> rfl

end Landmark

/-- The landmarks of joins, by the part of the statement that they stand in. -/
structure JoinLandmarks where
  /-- The tables, each with its `ON` conditions. -/
  source : List Landmark
  conditions : List Landmark
  havings : List Landmark

namespace JoinLandmarks

/-- No joins. -/
def empty : JoinLandmarks := ⟨[], [], []⟩

/-- Landmarks of two joins, part by part. -/
def append (a b : JoinLandmarks) : JoinLandmarks :=
  ⟨a.source ++ b.source, a.conditions ++ b.conditions, a.havings ++ b.havings⟩

instance : Append JoinLandmarks := ⟨append⟩

/-- The landmarks of all parts. -/
def all (j : JoinLandmarks) : List Landmark := j.source ++ j.conditions ++ j.havings

/-- The landmarks of two joins may be sorted by part. -/
theorem all_append_perm (a b : JoinLandmarks) :
    (a.all ++ b.all).Perm (a ++ b).all := by
  change (a.all ++ b.all).Perm
    ((a.source ++ b.source) ++ (a.conditions ++ b.conditions) ++ (a.havings ++ b.havings))
  unfold all
  rw [← Multiset.coe_eq_coe]
  simp only [← Multiset.coe_add]
  abel

end JoinLandmarks

/-- The values of conditions on groups under a path, where these conditions are wanted. -/
def havingLandmarks (grouped : Bool) (path : Path) (havings : List HavingItem) : List Landmark :=
  if grouped then
    havings.zipIdx.map fun (item, i) => .value ⟨.comparedGroup, path, i, none⟩ item.value
  else []

mutual

/-- The landmarks of a query without its unions. -/
def Query.landmarks (path : Path) : Query → List Landmark
  | ⟨_, token, clauses, conditions, joins, _⟩ =>
    let added := joinLandmarks true (path.child "cl") 0 joins
    .table token :: added.source ++ conditions.landmarks (path.child "tl") ++ added.conditions ++
      havingLandmarks true (path.child "gh") clauses.havings ++ added.havings

/-- The landmarks of the branches of a union, the first of which has the given number. The unions
of a branch are not shown. -/
def branchLandmarks (path : Path) (k : Nat) : List UnionBranch → List Landmark
  | [] => []
  | ⟨_, q⟩ :: rest => q.landmarks (path.childAt "un" k) ++ branchLandmarks path (k + 1) rest

/-- The landmarks of a group: those of its conditions, then those of its groups. -/
def ConditionGroup.landmarks (path : Path) : ConditionGroup → List Landmark
  | ⟨conditions, groups⟩ => conditionLandmarks path 0 conditions ++ subgroupLandmarks path 0 groups

/-- The landmarks of conditions, the first of which has the given number. -/
def conditionLandmarks (path : Path) (i : Nat) : List Condition → List Landmark
  | [] => []
  | ⟨_, _, filter⟩ :: rest => filter.landmarks path i ++ conditionLandmarks path (i + 1) rest

/-- The landmarks of a condition: its value, or those of its query. -/
def Filter.landmarks (path : Path) (i : Nat) : Filter → List Landmark
  | .compare _ v | .compareDate _ _ v | .guard _ v => [.value ⟨.compared, path, i, none⟩ v]
  | .like wildcards v => [.value ⟨.compared, path, i, none⟩ (wildcards.pattern v)]
  | .member _ v => (v.members?.getD []).zipIdx.map fun (member, n) =>
      .value ⟨.compared, path, i, some n⟩ member
  | .memberOf _ ⟨own, token, clauses, conditions, joins, unions⟩ =>
    Query.landmarks (path.childAt "s" i) ⟨own, token, clauses, conditions, joins, unions⟩ ++
      branchLandmarks (path.childAt "s" i) 0 unions
  | .compareField _ _ | .isNull | .isNotNull => []

/-- The landmarks of groups, the first of which has the given number. -/
def subgroupLandmarks (path : Path) (j : Nat) : List Subgroup → List Landmark
  | [] => []
  | ⟨_, group⟩ :: rest =>
    group.landmarks (path.childAt "ot" j) ++ subgroupLandmarks path (j + 1) rest

/-- The landmarks of joins, the first of which has the given number: each join, then the joins
inside it, then those beside it. -/
def joinLandmarks (grouped : Bool) (path : Path) (l : Nat) : List Join → JoinLandmarks
  | [] => .empty
  | ⟨_, ⟨_, token, clauses, conditions, joins, _⟩, on⟩ :: rest =>
    ⟨.table token :: on.landmarks (path.childAt "ofl" l),
      conditions.landmarks (path.childAt "fl" l),
      havingLandmarks grouped (path.childAt "gh" l) clauses.havings⟩ ++
      joinLandmarks grouped (path.childAt "j" l) 0 joins ++ joinLandmarks grouped path (l + 1) rest

end

/-- The landmarks of a query may be sorted by the parts of the query. -/
theorem Query.landmarks_perm (own : Option String) (token : Token) (clauses : Clauses)
    (conditions : ConditionGroup) (joins : List Join) (unions : List UnionBranch) (path : Path) :
    (Query.landmarks path ⟨own, token, clauses, conditions, joins, unions⟩).Perm
      (.table token :: ((joinLandmarks true (path.child "cl") 0 joins).all ++
        conditions.landmarks (path.child "tl") ++
        havingLandmarks true (path.child "gh") clauses.havings)) := by
  simp only [landmarks, List.cons_append]
  refine .cons _ ?_
  rw [← Multiset.coe_eq_coe]
  simp only [JoinLandmarks.all, ← Multiset.coe_add]
  abel

/-- The landmarks of a query with its unions. -/
def Query.allLandmarks (path : Path) (q : Query) : List Landmark :=
  q.landmarks path ++ branchLandmarks path 0 q.unions

end DynamicSql
