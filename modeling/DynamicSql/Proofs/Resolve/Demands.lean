import DynamicSql.Proofs.Resolve.Atomic
import DynamicSql.Proofs.Resolve.Freshness
import DynamicSql.Proofs.Sql.Conjunction

/-!
# What conditions demand

For truth values of its conditions, a group has a value: that of its conditions and its groups, from
left to right and by precedence, where groups without conditions are passed over. Several groups
demand that all of them hold. The text of what they demand is read as a formula with their
conditions for leaves, and with the value that all of them have together
(`Context.combineWhere_means`).
-/

namespace DynamicSql

/-- The values of conditions behind their connectors, the first of which has the given number. -/
def conditionValues (ρ : Leaf → Bool) (place : Place) (i : Nat) :
    List Condition → List (Connector × Bool)
  | [] => []
  | ⟨connector, field, filter⟩ :: rest =>
    (connector, ρ ⟨place, i, field, filter⟩) :: conditionValues ρ place (i + 1) rest

mutual

/-- The value of a group at a place for truth values of its conditions. -/
def ConditionGroup.value (ρ : Leaf → Bool) (place : Place) : ConditionGroup → Bool
  | ⟨conditions, groups⟩ =>
    precedence (conditionValues ρ place 0 conditions ++ subgroupValues ρ place 0 groups)

/-- The values of groups behind their connectors, the first of which has the given number. Groups
without conditions are passed over. -/
def subgroupValues (ρ : Leaf → Bool) (place : Place) (j : Nat) :
    List Subgroup → List (Connector × Bool)
  | [] => []
  | ⟨connector, group⟩ :: rest =>
    if group.isLeafless then subgroupValues ρ place (j + 1) rest
    else (connector, group.value ρ (place.inner j)) :: subgroupValues ρ place (j + 1) rest

end

/-- Conditions with their places, the first of which has the given number. -/
def conditionLeaves (place : Place) (i : Nat) : List Condition → List Leaf
  | [] => []
  | ⟨_, field, filter⟩ :: rest => ⟨place, i, field, filter⟩ :: conditionLeaves place (i + 1) rest

mutual

/-- The conditions of a group at a place, followed by those of its groups. -/
def ConditionGroup.leaves (place : Place) : ConditionGroup → List Leaf
  | ⟨conditions, groups⟩ => conditionLeaves place 0 conditions ++ subgroupLeaves place 0 groups

/-- The conditions of groups, the first of which has the given number. -/
def subgroupLeaves (place : Place) (j : Nat) : List Subgroup → List Leaf
  | [] => []
  | ⟨_, group⟩ :: rest => group.leaves (place.inner j) ++ subgroupLeaves place (j + 1) rest

end

/-- The conditions of groups at their places. -/
def leavesOf (groups : List (Place × ConditionGroup)) : List Leaf :=
  groups.flatMap fun (place, g) => g.leaves place

/-- Whether all of several groups hold. -/
def holdAll (ρ : Leaf → Bool) (groups : List (Place × ConditionGroup)) : Bool :=
  groups.all fun (place, g) => g.value ρ place

/-- The groups that a query demands of its rows: its own, then those of its joins. -/
def demands (table : String) (token : Token) (own joined : Path) (conditions : ConditionGroup)
    (joins : List Join) : List (Place × ConditionGroup) :=
  (⟨table, some token, own⟩, conditions) :: joinedGroups joined 0 joins

section Formulas

variable (ρ : Leaf → Bool)

/-- The items of conditions have the values of the conditions. -/
theorem valuesOf_conditionItems (place : Place) (i : Nat) (conditions : List Condition) :
    Formula.valuesOf ρ (conditionItems place i conditions) =
      conditionValues ρ place i conditions := by
  induction conditions generalizing i with
  | nil => rfl
  | cons condition rest ih =>
    obtain ⟨connector, field, filter⟩ := condition
    rw [conditionItems, conditionValues, ← ih]
    rfl

mutual

/-- The value of a group is that of its parts by precedence. -/
theorem ConditionGroup.value_eq : ∀ (g : ConditionGroup) (place : Place),
    g.value ρ place = precedence (Formula.valuesOf ρ (g.items place))
  | ⟨conditions, groups⟩, place => by
    have hgroups := valuesOf_subgroupItems groups place 0
    have hconditions := valuesOf_conditionItems ρ place 0 conditions
    rw [ConditionGroup.value, ConditionGroup.items, ← hgroups, ← hconditions]
    simp only [Formula.valuesOf, List.map_append]

/-- The items of groups have the values of the groups that are not passed over. -/
theorem valuesOf_subgroupItems : ∀ (groups : List Subgroup) (place : Place) (j : Nat),
    Formula.valuesOf ρ (subgroupItems place j groups) = subgroupValues ρ place j groups
  | [], _, _ => rfl
  | ⟨connector, group⟩ :: rest, place, j => by
    have hgroup := group.value_eq (place.inner j)
    have hrest := valuesOf_subgroupItems rest place (j + 1)
    have hleafless := group.items_eq_nil_iff (place.inner j)
    rw [subgroupItems, subgroupValues]
    -- A group without conditions has no formula, and is left out of the values as well.
    cases hF : Formula.ofItems? (group.items (place.inner j)) with
    | none =>
      rw [if_pos (hleafless.mp (Formula.ofItems?_eq_none.mp hF))]
      exact hrest
    | some F =>
      have hne : ¬group.isLeafless = true := by
        intro h
        rw [hleafless.mpr h] at hF
        cases hF
      rw [if_neg hne, hgroup, ← Formula.value_of_ofItems? hF, ← hrest]
      rfl

end

/-- The items of conditions have the conditions for leaves. -/
theorem atoms_conditionItems (place : Place) (i : Nat) (conditions : List Condition) :
    (conditionItems place i conditions).flatMap (·.2.atoms) =
      conditionLeaves place i conditions := by
  induction conditions generalizing i with
  | nil => rfl
  | cons condition rest ih =>
    obtain ⟨connector, field, filter⟩ := condition
    rw [conditionItems, conditionLeaves, List.flatMap_cons, ih]
    rfl

mutual

/-- The leaves of a group stand in their order. -/
theorem ConditionGroup.atoms_items : ∀ (g : ConditionGroup) (place : Place),
    (g.items place).flatMap (·.2.atoms) = g.leaves place
  | ⟨conditions, groups⟩, place => by
    rw [ConditionGroup.items, ConditionGroup.leaves, List.flatMap_append, atoms_conditionItems,
      atoms_subgroupItems groups]

/-- The items of groups have the leaves of the groups, also where groups are passed over. -/
theorem atoms_subgroupItems : ∀ (groups : List Subgroup) (place : Place) (j : Nat),
    (subgroupItems place j groups).flatMap (·.2.atoms) = subgroupLeaves place j groups
  | [], _, _ => rfl
  | ⟨connector, group⟩ :: rest, place, j => by
    have hgroup := group.atoms_items (place.inner j)
    have hrest := atoms_subgroupItems rest place (j + 1)
    rw [subgroupItems, subgroupLeaves, ← hgroup, ← hrest]
    cases hF : Formula.ofItems? (group.items (place.inner j)) with
    | none => rw [Formula.ofItems?_eq_none.mp hF, List.flatMap_nil, List.nil_append]
    | some F => rw [List.flatMap_cons, ← Formula.atoms_of_ofItems? hF]

end

/-- A group without a formula holds, since it demands nothing. -/
theorem ConditionGroup.all_formula? (g : ConditionGroup) (place : Place) :
    (g.formula? place).toList.all (·.value ρ) = g.value ρ place := by
  rw [g.value_eq, formula?]
  cases hF : Formula.ofItems? (g.items place) with
  | none =>
    rw [Formula.ofItems?_eq_none.mp hF]
    rfl
  | some F =>
    rw [← Formula.value_of_ofItems? hF]
    exact Bool.and_true _

/-- The formula of a group, if there is one, has the leaves of the group. -/
theorem ConditionGroup.atoms_formula? (g : ConditionGroup) (place : Place) :
    (g.formula? place).toList.flatMap Formula.atoms = g.leaves place := by
  rw [← g.atoms_items, formula?]
  cases hF : Formula.ofItems? (g.items place) with
  | none =>
    rw [Formula.ofItems?_eq_none.mp hF]
    rfl
  | some F =>
    rw [← Formula.atoms_of_ofItems? hF]
    exact List.append_nil _

variable (groups : List (Place × ConditionGroup))

/-- The formulas of groups are those that their members have, one after the other. -/
theorem formulas_eq_flatMap :
    formulas groups = groups.flatMap fun (place, g) => (g.formula? place).toList :=
  List.filterMap_eq_flatMap_toList _ groups

/-- The formula of the first group stands in front. -/
theorem formulas_cons (place : Place) (g : ConditionGroup) :
    formulas ((place, g) :: groups) = (g.formula? place).toList ++ formulas groups := by
  rw [formulas_eq_flatMap, formulas_eq_flatMap, List.flatMap_cons]

/-- The formulas of groups hold together if and only if the groups do. -/
theorem formulas_all : (formulas groups).all (·.value ρ) = holdAll ρ groups := by
  rw [formulas_eq_flatMap, List.all_flatMap]
  simp only [ConditionGroup.all_formula?]
  rfl

/-- The formulas of groups have the leaves of the groups. -/
theorem formulas_atoms : (formulas groups).flatMap Formula.atoms = leavesOf groups := by
  rw [formulas_eq_flatMap, List.flatMap_assoc]
  simp only [ConditionGroup.atoms_formula?]
  rfl

/-- There are no formulas if and only if no group has a condition. -/
theorem formulas_eq_nil_iff : formulas groups = [] ↔ ∀ x ∈ groups, x.2.isLeafless = true := by
  rw [formulas, List.filterMap_eq_nil_iff]
  exact forall₂_congr fun x _ => x.2.formula?_eq_none_iff x.1

end Formulas

section Names

/-- The names and tables of a leaf are among given ones. -/
def Leaf.Within (names : List String) (references : List (Token × String)) (leaf : Leaf) : Prop :=
  leaf.field ∈ names ∧ leaf.filter.names ⊆ names ∧ leaf.filter.references ⊆ references

variable {names others : List String} {references tables : List (Token × String)}

/-- What a leaf names is among all that its names are among. -/
theorem Leaf.Within.mono {leaf : Leaf} (h : leaf.Within names references) (hnames : names ⊆ others)
    (hreferences : references ⊆ tables) : leaf.Within others tables :=
  ⟨hnames h.1, List.Subset.trans h.2.1 hnames, List.Subset.trans h.2.2 hreferences⟩

/-- The leaves of conditions name what the conditions name. -/
theorem conditionLeaves_within (place : Place) (i : Nat) (conditions : List Condition) :
    ∀ leaf ∈ conditionLeaves place i conditions,
      leaf.Within (conditionNames conditions) (conditionReferences conditions) := by
  induction conditions generalizing i with
  | nil => exact List.forall_mem_nil _
  | cons condition rest ih =>
    obtain ⟨connector, field, filter⟩ := condition
    rw [conditionLeaves, conditionNames, conditionReferences]
    refine List.forall_mem_cons.mpr ⟨⟨List.mem_cons_self, ?_, List.subset_append_left _ _⟩, ?_⟩
    · exact fun s hs => List.mem_cons_of_mem _ (List.mem_append_left _ hs)
    · exact fun leaf hleaf => (ih (i + 1) leaf hleaf).mono
        (fun s hs => List.mem_cons_of_mem _ (List.mem_append_right _ hs))
        (List.subset_append_right _ _)

mutual

/-- The conditions of a group have the names and tables of the group. -/
theorem ConditionGroup.leaves_within : ∀ (g : ConditionGroup) (place : Place),
    ∀ leaf ∈ g.leaves place, leaf.Within g.names g.references
  | ⟨conditions, groups⟩, place => by
    rw [ConditionGroup.leaves, ConditionGroup.names, ConditionGroup.references]
    refine List.forall_mem_append.mpr ⟨fun leaf hleaf => ?_, fun leaf hleaf => ?_⟩
    · exact (conditionLeaves_within place 0 conditions leaf hleaf).mono
        (List.subset_append_left _ _) (List.subset_append_left _ _)
    · exact (subgroupLeaves_within groups place 0 leaf hleaf).mono
        (List.subset_append_right _ _) (List.subset_append_right _ _)

/-- The leaves of groups name what the groups name. -/
theorem subgroupLeaves_within : ∀ (groups : List Subgroup) (place : Place) (j : Nat),
    ∀ leaf ∈ subgroupLeaves place j groups,
      leaf.Within (subgroupNames groups) (subgroupReferences groups)
  | [], _, _ => List.forall_mem_nil _
  | ⟨_, group⟩ :: rest, place, j => by
    rw [subgroupLeaves, subgroupNames, subgroupReferences]
    refine List.forall_mem_append.mpr ⟨fun leaf hleaf => ?_, fun leaf hleaf => ?_⟩
    · exact (group.leaves_within (place.inner j) leaf hleaf).mono
        (List.subset_append_left _ _) (List.subset_append_left _ _)
    · exact (subgroupLeaves_within rest place (j + 1) leaf hleaf).mono
        (List.subset_append_right _ _) (List.subset_append_right _ _)

end

/-- Groups have their leaves list by list. -/
theorem leavesOf_append (a b : List (Place × ConditionGroup)) :
    leavesOf (a ++ b) = leavesOf a ++ leavesOf b := List.flatMap_append

/-- The leaves of the first group stand in front. -/
theorem leavesOf_cons (place : Place) (g : ConditionGroup) (b : List (Place × ConditionGroup)) :
    leavesOf ((place, g) :: b) = g.leaves place ++ leavesOf b := List.flatMap_cons

/-- The conditions that joins hand over have the names and tables of the joins. -/
theorem joinedLeaves_within {ctx : Context} : ∀ (joins : List Join) {path : Path} {l : Nat}
    {parent : Scope} {extent : Extent} {added : Joined} {t : Trace},
    (ctx.joined parent path extent l joins).Yields added t →
    ∀ leaf ∈ leavesOf (joinedGroups path l joins),
      leaf.Within (joinNames joins) (joinReferences joins)
  | [], _, _, _, _, _, _, _ => List.forall_mem_nil _
  | ⟨keys, ⟨_, token, clauses, conditions, joins, unions⟩, on⟩ :: rest, path, l, _, _, _, _,
    h => by
    obtain ⟨table, d, keyText, t₁, lists, t₂, extra, t₃, terms, t₄, inner, t₅, others, t₆, rfl, -,
      -, -, -, -, hinner, hothers, -, -⟩ := Context.joined_cons_yields h
    have hinner := joinedLeaves_within joins hinner
    have hothers := joinedLeaves_within rest hothers
    rw [joinedGroups, Query.handedGroups, List.cons_append, leavesOf_cons, leavesOf_append,
      joinNames, joinReferences, Query.names, Query.ownReferences]
    refine List.forall_mem_append.mpr ⟨fun leaf hleaf => ?_,
      List.forall_mem_append.mpr ⟨fun leaf hleaf => ?_, fun leaf hleaf => ?_⟩⟩
    · refine (conditions.leaves_within _ leaf hleaf).mono (fun s hs => ?_) fun r hr => ?_
      · simp [hs]
      · simp [hr]
    · refine (hinner leaf hleaf).mono (fun s hs => ?_) fun r hr => ?_
      · simp [hs]
      · simp [hr]
    · exact (hothers leaf hleaf).mono (List.subset_append_right _ _) (List.subset_append_right _ _)

end Names

section Places

/-- The places of leaves as those of values. -/
def leafPlaces (leaves : List Leaf) : List Landmark :=
  leaves.map fun leaf => .value ⟨.compared, leaf.place.path, leaf.index, none⟩ .null

/-- Leaves have their places list by list. -/
theorem leafPlaces_append (a b : List Leaf) :
    leafPlaces (a ++ b) = leafPlaces a ++ leafPlaces b := List.map_append

/-- The slot of a leaf tells its place and its number. -/
theorem slots_leafPlaces (leaves : List Leaf) : Landmark.slots (leafPlaces leaves) =
    leaves.map fun leaf => ⟨.compared, leaf.place.path, leaf.index, none⟩ := by
  induction leaves with
  | nil => rfl
  | cons leaf leaves ih =>
    rw [List.map_cons, ← ih]
    rfl

/-- The conditions of a group have places of their own, told apart by their numbers. -/
theorem conditionLeaves_fresh (place : Place) (i : Nat) (conditions : List Condition) :
    Fresh place.path.way (Segment.From [""] i)
      (leafPlaces (conditionLeaves place i conditions)) := by
  induction conditions generalizing i with
  | nil => exact .of_slots_eq_nil rfl
  | cons condition rest ih =>
    obtain ⟨connector, field, filter⟩ := condition
    have hfirst : Fresh place.path.way (Segment.Nth [""] i)
        (leafPlaces [⟨place, i, field, filter⟩]) :=
      .single rfl Path.lettered_of_way (Segment.ofNumber_nth [] i)
    exact hfirst.appendFrom (ih (i + 1))

mutual

/-- The conditions of a group have places of their own. -/
theorem ConditionGroup.leaves_fresh : ∀ (g : ConditionGroup) (place : Place),
    Fresh place.path.way (Segment.Any ["", "ot"]) (leafPlaces (g.leaves place))
  | ⟨conditions, groups⟩, place => by
    have hconditions : Fresh place.path.way (Segment.Any [""]) _ :=
      (conditionLeaves_fresh place 0 conditions).mono fun _ hg => ⟨hg.1, trivial⟩
    have hgroups : Fresh place.path.way (Segment.Any ["ot"]) _ :=
      (subgroupLeaves_fresh groups place 0).mono fun _ hg => ⟨hg.1, trivial⟩
    rw [ConditionGroup.leaves, leafPlaces_append]
    exact hconditions.appendTags hgroups (by decide)

/-- The conditions of different groups in a group do, too, told apart by the numbers of the
groups. -/
theorem subgroupLeaves_fresh : ∀ (groups : List Subgroup) (place : Place) (j : Nat),
    Fresh place.path.way (Segment.From ["ot"] j) (leafPlaces (subgroupLeaves place j groups))
  | [], _, _ => .of_slots_eq_nil rfl
  | ⟨_, group⟩ :: rest, place, j => by
    have hfirst : Fresh (place.path.childAt "ot" j).way _ _ := group.leaves_fresh (place.inner j)
    rw [subgroupLeaves, leafPlaces_append]
    exact (hfirst.ofChildAt (by decide) (by decide)).appendFrom
      (subgroupLeaves_fresh rest place (j + 1))

end

mutual

/-- So do the conditions that joins hand over. -/
theorem joinedLeaves_fresh : ∀ (joins : List Join) (path : Path) (l : Nat),
    Fresh path.way (Segment.From ["fl", "j"] l) (leafPlaces (leavesOf (joinedGroups path l joins)))
  | [], _, _ => .of_slots_eq_nil rfl
  | ⟨_, query, _⟩ :: rest, path, l => by
    rw [joinedGroups, leavesOf_append, leafPlaces_append]
    exact (query.handedLeaves_fresh path l).appendFrom (joinedLeaves_fresh rest path (l + 1))

/-- The conditions that a joined query hands on have places of their own below the join. -/
theorem Query.handedLeaves_fresh : ∀ (q : Query) (path : Path) (l : Nat),
    Fresh path.way (Segment.Nth ["fl", "j"] l) (leafPlaces (leavesOf (q.handedGroups path l)))
  | ⟨own, token, _, conditions, joins, _⟩, path, l => by
    have hconditions : Fresh (path.childAt "fl" l).way _ _ :=
      conditions.leaves_fresh ⟨own.getD "", some token, path.childAt "fl" l⟩
    have hown : Fresh path.way (Segment.Nth ["fl"] l) _ :=
      hconditions.ofChildAt (by decide) (by decide)
    have hinner : Fresh path.way (Segment.Nth ["j"] l) _ :=
      (joinedLeaves_fresh joins (path.childAt "j" l) 0).ofChildAt (by decide) (by decide)
    rw [Query.handedGroups, leavesOf_cons, leafPlaces_append]
    exact hown.appendTags hinner (by decide)

end

/-- No two conditions that a query demands are the same leaf, so truth values may be given to them
independently of each other. -/
theorem leavesOf_demands_nodup (table : String) (token : Token) (path : Path) {tag : String}
    (hletters : tag.toList.all Char.isAlpha) (htag : tag ≠ "cl") (conditions : ConditionGroup)
    (joins : List Join) :
    (leavesOf (demands table token (path.child tag) (path.child "cl") conditions joins)).Nodup := by
  have hown : Fresh (path.child tag).way _ _ :=
    conditions.leaves_fresh ⟨table, some token, path.child tag⟩
  have hown : Fresh path.way (Segment.Any [tag]) _ := hown.ofChild List.mem_cons_self hletters
  have hjoined : Fresh path.way (Segment.Any ["cl"]) _ :=
    (joinedLeaves_fresh joins (path.child "cl") 0).ofChild (by decide) (by decide)
  have hall := hown.appendTags hjoined (by simpa using htag)
  have hnodup := hall.nodup.of_map
  rw [← leafPlaces_append, ← leavesOf_cons, ← demands, slots_leafPlaces] at hnodup
  exact hnodup.of_map

end Places

end DynamicSql
