import DynamicSql.Proofs.Resolve.Landmarks
import Mathlib.Data.List.Pairwise

/-!
# Membership tests with their places

The membership tests that a statement shows, at any depth, each with the place that it stands at.
The values that are bound under numbers of members are exactly the members of these tests
(`Query.allLandmarks_members`).
-/

namespace DynamicSql

open Landmark (slots values)

/-- A membership test with its place: the group, the number of the test in the group, and the
operand. -/
structure PlacedMembership where
  path : Path
  index : Nat
  operand : Value

namespace PlacedMembership

/-- The place of the member with a number. -/
def slot (m : PlacedMembership) (n : Nat) : Slot := ⟨.compared, m.path, m.index, some n⟩

/-- The members with their places, numbered from zero. -/
def bindings (m : PlacedMembership) : List (Slot × Value) :=
  (m.operand.members?.getD []).zipIdx.map fun (member, n) => (m.slot n, member)

/-- A member is bound at the place of its number. -/
theorem mem_bindings {m m' : PlacedMembership} {n : Nat} {v : Value} :
    (m.slot n, v) ∈ m'.bindings ↔ m.path = m'.path ∧ m.index = m'.index ∧
      (m'.operand.members?.getD [])[n]? = some v := by
  unfold bindings
  rw [List.mem_map]
  constructor
  · rintro ⟨⟨member, n'⟩, hmem, heq⟩
    obtain ⟨hslot, rfl⟩ := Prod.mk.inj heq
    simp only [slot, Slot.mk.injEq, Option.some.injEq] at hslot
    obtain ⟨-, hpath, hindex, rfl⟩ := hslot
    exact ⟨hpath.symm, hindex.symm, List.mk_mem_zipIdx_iff_getElem?.mp hmem⟩
  · rintro ⟨hpath, hindex, hget⟩
    exact ⟨(v, n), List.mk_mem_zipIdx_iff_getElem?.mpr hget, by simp [slot, hpath, hindex]⟩

/-- The first member stands at the first place. -/
theorem slot_zero_mem {m : PlacedMembership} (h : m.bindings ≠ []) :
    m.slot 0 ∈ m.bindings.map (·.1) := by
  unfold bindings at h ⊢
  cases hmembers : m.operand.members?.getD [] with
  | nil => simp [hmembers] at h
  | cons member rest => simp [List.zipIdx_cons]

end PlacedMembership

mutual

/-- The membership tests of a query without its unions. -/
def Query.memberships (path : Path) : Query → List PlacedMembership
  | ⟨_, _, _, conditions, joins, _⟩ =>
    conditions.memberships (path.child "tl") ++ joinMemberships (path.child "cl") 0 joins

/-- The membership tests of the branches of a union, the first of which has the given number. -/
def branchMemberships (path : Path) (k : Nat) : List UnionBranch → List PlacedMembership
  | [] => []
  | ⟨_, q⟩ :: rest => q.memberships (path.childAt "un" k) ++ branchMemberships path (k + 1) rest

/-- The membership tests of a group: those of its conditions, then those of its groups. -/
def ConditionGroup.memberships (path : Path) : ConditionGroup → List PlacedMembership
  | ⟨conditions, groups⟩ =>
    conditionMemberships path 0 conditions ++ subgroupMemberships path 0 groups

/-- The membership tests of conditions, the first of which has the given number. -/
def conditionMemberships (path : Path) (i : Nat) : List Condition → List PlacedMembership
  | [] => []
  | ⟨_, _, filter⟩ :: rest => filter.memberships path i ++ conditionMemberships path (i + 1) rest

/-- The membership test that a condition is, or those of its query. -/
def Filter.memberships (path : Path) (i : Nat) : Filter → List PlacedMembership
  | .member _ v => [⟨path, i, v⟩]
  | .memberOf _ ⟨own, token, clauses, conditions, joins, unions⟩ =>
    Query.memberships (path.childAt "s" i) ⟨own, token, clauses, conditions, joins, unions⟩ ++
      branchMemberships (path.childAt "s" i) 0 unions
  | _ => []

/-- The membership tests of groups, the first of which has the given number. -/
def subgroupMemberships (path : Path) (j : Nat) : List Subgroup → List PlacedMembership
  | [] => []
  | ⟨_, group⟩ :: rest =>
    group.memberships (path.childAt "ot" j) ++ subgroupMemberships path (j + 1) rest

/-- The membership tests of joins, the first of which has the given number: each join, then the
joins inside it, then those beside it. -/
def joinMemberships (path : Path) (l : Nat) : List Join → List PlacedMembership
  | [] => []
  | ⟨_, ⟨_, _, _, conditions, joins, _⟩, on⟩ :: rest =>
    on.memberships (path.childAt "ofl" l) ++ conditions.memberships (path.childAt "fl" l) ++
      joinMemberships (path.childAt "j" l) 0 joins ++ joinMemberships path (l + 1) rest

end

/-- The membership tests of a query with its unions. -/
def Query.allMemberships (path : Path) (q : Query) : List PlacedMembership :=
  q.memberships path ++ branchMemberships path 0 q.unions

namespace Landmark

/-- The values that are bound under numbers of members. -/
def items (ls : List Landmark) : List (Slot × Value) :=
  (values ls).filter fun bound => bound.1.item?.isSome

variable {a b : List Landmark}

/-- The places of members are listed landmark by landmark. -/
@[simp] theorem items_append (a b : List Landmark) : items (a ++ b) = items a ++ items b := by
  rw [items, values_append, List.filter_append, items, items]

/-- They stay the same, apart from their order, when landmarks change theirs. -/
theorem items_perm (h : a.Perm b) : (items a).Perm (items b) := (h.filterMap _).filter _

/-- Values that are bound one by one have no numbers of members. -/
theorem items_eq_nil (h : ∀ s ∈ slots a, s.item? = none) : items a = [] := by
  refine List.filter_eq_nil_iff.mpr fun bound hbound => ?_
  simp [h bound.1 (List.mem_map_of_mem hbound)]

/-- Values that are numbered where they stand have no numbers of members. -/
theorem items_map_zipIdx {α : Type} (slot : Nat → Slot) (value : α → Value) (xs : List α) (n : Nat)
    (h : ∀ i, (slot i).item? = none) :
    items ((xs.zipIdx n).map fun x => .value (slot x.2) (value x.1)) = [] := by
  refine items_eq_nil fun s hs => ?_
  obtain ⟨bound, hbound, rfl⟩ := List.mem_map.mp hs
  obtain ⟨l, hl, hvalue⟩ := List.mem_filterMap.mp hbound
  obtain ⟨x, -, rfl⟩ := List.mem_map.mp hl
  obtain rfl := Option.some.inj hvalue
  exact h x.2

end Landmark

open Landmark (items)

/-- The values that are bound under numbers of members are the members of membership tests. -/
abbrev BindsMembers (ls : List Landmark) (ms : List PlacedMembership) : Prop :=
  (items ls).Perm (ms.flatMap PlacedMembership.bindings)

namespace BindsMembers

variable {a b : List Landmark} {ms ns : List PlacedMembership}

/-- Landmarks bind the members of their memberships list by list. -/
theorem append (h : BindsMembers a ms) (k : BindsMembers b ns) :
    BindsMembers (a ++ b) (ms ++ ns) := by
  unfold BindsMembers
  rw [Landmark.items_append, List.flatMap_append]
  exact List.Perm.append h k

/-- The order of landmarks does not matter for the members that they bind. -/
theorem perm (h : BindsMembers a ms) (hab : a.Perm b) : BindsMembers b ms :=
  (Landmark.items_perm hab).symm.trans h

/-- What binds no member may stand behind. -/
theorem append_right (h : BindsMembers a ms) (hb : items b = []) : BindsMembers (a ++ b) ms := by
  unfold BindsMembers
  rwa [Landmark.items_append, hb, List.append_nil]

/-- The tests of two lists may be listed in either order. -/
theorem swap (h : BindsMembers a (ms ++ ns)) : BindsMembers a (ns ++ ms) :=
  h.trans (List.perm_append_comm.flatMap_right _)

/-- Landmarks that come from a list bind the members that its items have. -/
theorem flatMap {α : Type} {f : α → List Landmark} {g : α → List PlacedMembership} {xs : List α}
    (h : ∀ x ∈ xs, BindsMembers (f x) (g x)) : BindsMembers (xs.flatMap f) (xs.flatMap g) := by
  induction xs with
  | nil => exact .refl _
  | cons x rest ih =>
    rw [List.flatMap_cons, List.flatMap_cons]
    exact (h x List.mem_cons_self).append (ih fun y hy => h y (List.mem_cons_of_mem x hy))

/-- Where every place is used once, no two tests with members stand at one place. -/
theorem eq_of_place_eq (h : BindsMembers a ms) (hslots : (slots a).Nodup) {m m' : PlacedMembership}
    (hm : m ∈ ms) (hm' : m' ∈ ms) (hpath : m.path = m'.path) (hindex : m.index = m'.index)
    (hmembers : m.bindings ≠ []) (hmembers' : m'.bindings ≠ []) : m = m' := by
  have hplaces : ((ms.flatMap PlacedMembership.bindings).map (·.1)).Nodup :=
    (List.Perm.map _ h).nodup_iff.mp (hslots.sublist (List.filter_sublist.map _))
  rw [List.map_flatMap, List.nodup_flatMap] at hplaces
  have hsymm : Std.Symm
      (Function.onFun List.Disjoint fun m : PlacedMembership => m.bindings.map (·.1)) :=
    ⟨fun _ _ hdisjoint => hdisjoint.symm⟩
  by_contra hne
  -- Both tests bind a first member, at one place, which two tests of the list cannot share.
  refine hplaces.2.forall hm hm' hne (PlacedMembership.slot_zero_mem hmembers) ?_
  have hslot : m.slot 0 = m'.slot 0 := by rw [PlacedMembership.slot, hpath, hindex]; rfl
  exact hslot ▸ PlacedMembership.slot_zero_mem hmembers'

/-- Where every place is used once, the values bound for a test are its members. -/
theorem mem_values_iff (h : BindsMembers a ms) (hslots : (slots a).Nodup) {m : PlacedMembership}
    (hm : m ∈ ms) {members : List Value} (hmembers : m.operand.members? = some members)
    (hne : members ≠ []) {n : Nat} {v : Value} :
    (m.slot n, v) ∈ values a ↔ members[n]? = some v := by
  have hown : (m.slot n, v) ∈ m.bindings ↔ members[n]? = some v := by
    simp [PlacedMembership.mem_bindings, hmembers]
  have hitems : (m.slot n, v) ∈ values a ↔ ∃ m' ∈ ms, (m.slot n, v) ∈ m'.bindings := by
    rw [← List.mem_flatMap, ← List.Perm.mem_iff h]
    simp [items, PlacedMembership.slot]
  rw [hitems, ← hown]
  constructor
  · rintro ⟨m', hm', hbound⟩
    obtain ⟨hpath, hindex, -⟩ := PlacedMembership.mem_bindings.mp hbound
    have hbindings : m.bindings ≠ [] := by
      simpa [PlacedMembership.bindings, hmembers] using hne
    obtain rfl := h.eq_of_place_eq hslots hm hm' hpath hindex hbindings
      (List.ne_nil_of_mem hbound)
    exact hbound
  · exact fun hbound => ⟨m, hm, hbound⟩

end BindsMembers

/-- Conditions on groups bind no members. -/
theorem items_havingLandmarks (grouped : Bool) (path : Path) (havings : List HavingItem) :
    items (havingLandmarks grouped path havings) = [] := by
  unfold havingLandmarks
  split
  · exact Landmark.items_map_zipIdx (⟨.comparedGroup, path, ·, none⟩) HavingItem.value havings 0
      fun _ => rfl
  · rfl

/-- A test binds its members one after the other. -/
theorem items_bindings (m : PlacedMembership) :
    items (m.bindings.map fun bound => .value bound.1 bound.2) = m.bindings := by
  have hvalues : values (m.bindings.map fun bound => .value bound.1 bound.2) = m.bindings := by
    unfold Landmark.values
    rw [List.filterMap_map]
    exact List.filterMap_some
  rw [Landmark.items, hvalues, List.filter_eq_self]
  intro bound hbound
  obtain ⟨x, -, rfl⟩ := List.mem_map.mp hbound
  rfl

mutual

/-- A query binds the members of its tests. -/
theorem Query.landmarks_members : ∀ (q : Query) (path : Path),
    BindsMembers (q.landmarks path) (q.memberships path)
  | ⟨own, token, clauses, conditions, joins, unions⟩, path => by
    have hjoins := joinLandmarks_members joins true (path.child "cl") 0
    have hconditions := conditions.landmarks_members (path.child "tl")
    have hhavings := items_havingLandmarks true (path.child "gh") clauses.havings
    have hall : BindsMembers (.table token :: _) _ :=
      (hjoins.append hconditions).append_right hhavings
    have hparts := Query.landmarks_perm own token clauses conditions joins unions path
    rw [Query.memberships]
    exact (hall.perm hparts.symm).swap

/-- The landmarks of branches bind the members of the memberships in them. -/
theorem branchLandmarks_members : ∀ (branches : List UnionBranch) (path : Path) (k : Nat),
    BindsMembers (branchLandmarks path k branches) (branchMemberships path k branches)
  | [], _, _ => .refl _
  | ⟨_, q⟩ :: rest, path, k => by
    rw [branchLandmarks, branchMemberships]
    exact (q.landmarks_members _).append (branchLandmarks_members rest path (k + 1))

/-- Those of a group do. -/
theorem ConditionGroup.landmarks_members : ∀ (g : ConditionGroup) (path : Path),
    BindsMembers (g.landmarks path) (g.memberships path)
  | ⟨conditions, groups⟩, path => by
    rw [ConditionGroup.landmarks, ConditionGroup.memberships]
    exact (conditionLandmarks_members conditions path 0).append
      (subgroupLandmarks_members groups path 0)

/-- Those of conditions do. -/
theorem conditionLandmarks_members : ∀ (conditions : List Condition) (path : Path) (i : Nat),
    BindsMembers (conditionLandmarks path i conditions) (conditionMemberships path i conditions)
  | [], _, _ => .refl _
  | ⟨_, _, filter⟩ :: rest, path, i => by
    rw [conditionLandmarks, conditionMemberships]
    exact (filter.landmarks_members path i).append (conditionLandmarks_members rest path (i + 1))

/-- Those of a single condition do. -/
theorem Filter.landmarks_members : ∀ (filter : Filter) (path : Path) (i : Nat),
    BindsMembers (filter.landmarks path i) (filter.memberships path i)
  | .member _ v, path, i => by
    have hitems := items_bindings ⟨path, i, v⟩
    rw [PlacedMembership.bindings, List.map_map] at hitems
    rw [Filter.landmarks, Filter.memberships, BindsMembers, List.flatMap_singleton]
    exact .of_eq hitems
  | .memberOf _ ⟨own, token, clauses, conditions, joins, unions⟩, path, i => by
    rw [Filter.landmarks, Filter.memberships]
    exact (Query.landmarks_members ⟨own, token, clauses, conditions, joins, unions⟩ _).append
      (branchLandmarks_members unions _ 0)
  | .compare _ _, _, _ | .compareField _ _, _, _ | .compareDate _ _ _, _, _ | .like _ _, _, _
  | .guard _ _, _, _ | .isNull, _, _ | .isNotNull, _, _ => .refl _

/-- Those of the groups in a group do. -/
theorem subgroupLandmarks_members : ∀ (groups : List Subgroup) (path : Path) (j : Nat),
    BindsMembers (subgroupLandmarks path j groups) (subgroupMemberships path j groups)
  | [], _, _ => .refl _
  | ⟨_, group⟩ :: rest, path, j => by
    rw [subgroupLandmarks, subgroupMemberships]
    exact (group.landmarks_members _).append (subgroupLandmarks_members rest path (j + 1))

/-- The parts of a join are listed by part in the landmarks, and join by join in the tests. -/
theorem joinLandmarks_members : ∀ (joins : List Join) (grouped : Bool) (path : Path) (l : Nat),
    BindsMembers (joinLandmarks grouped path l joins).all (joinMemberships path l joins)
  | [], _, _, _ => .refl _
  | ⟨_, ⟨_, token, clauses, conditions, joins, _⟩, on⟩ :: rest, grouped, path, l => by
    have hon : BindsMembers (.table token :: _) _ := on.landmarks_members (path.childAt "ofl" l)
    have hconditions := conditions.landmarks_members (path.childAt "fl" l)
    have hhavings := items_havingLandmarks grouped (path.childAt "gh" l) clauses.havings
    have hinner := joinLandmarks_members joins grouped (path.childAt "j" l) 0
    have hrest := joinLandmarks_members rest grouped path (l + 1)
    have hall := (((hon.append hconditions).append_right hhavings).append hinner).append hrest
    rw [joinLandmarks, joinMemberships]
    exact hall.perm (((JoinLandmarks.all_append_perm ⟨_ :: _, _, _⟩ _).append_right _).trans
      (JoinLandmarks.all_append_perm _ _))

end

/-- A query with its unions binds the members of its tests. -/
theorem Query.allLandmarks_members (q : Query) (path : Path) :
    BindsMembers (q.allLandmarks path) (q.allMemberships path) :=
  (q.landmarks_members path).append (branchLandmarks_members q.unions path 0)

end DynamicSql
