import DynamicSql.Proofs.Resolve.Steps
import DynamicSql.Proofs.Sql.Chars
import DynamicSql.Proofs.Sql.Formula

/-!
# Resolved conditions as formulas

A group of conditions has a formula with its conditions for leaves, in their order and at any depth;
groups without conditions are left out. When the group is resolved, its text is the text of this
formula, with each leaf written the way it resolves by itself. The same holds of the conditions that
joins hand over to a statement.
-/

namespace DynamicSql

/-- Where a group of conditions stands: the table that its fields belong to, with the token of the
table, and the way to the group. -/
structure Place where
  table : String
  token? : Option Token
  path : Path

/-- The place of the group with a number inside a group. -/
def Place.inner (p : Place) (j : Nat) : Place := { p with path := p.path.childAt "ot" j }

/-- A condition with its place: the group, and its number in the group. -/
structure Leaf where
  place : Place
  index : Nat
  field : String
  filter : Filter

mutual

/-- Whether a group holds no condition at any depth. -/
def ConditionGroup.isLeafless : ConditionGroup → Bool
  | ⟨conditions, groups⟩ => conditions.isEmpty && areLeafless groups

/-- Whether none of several groups holds a condition at any depth. -/
def areLeafless : List Subgroup → Bool
  | [] => true
  | ⟨_, group⟩ :: rest => group.isLeafless && areLeafless rest

end

/-- Conditions behind their connectors, the first of which has the given number. -/
def conditionItems (place : Place) (i : Nat) : List Condition → List (Connector × Formula Leaf)
  | [] => []
  | ⟨connector, field, filter⟩ :: rest =>
    (connector, .atom ⟨place, i, field, filter⟩) :: conditionItems place (i + 1) rest

mutual

/-- The conditions of a group, followed by its groups, each behind its connector. -/
def ConditionGroup.items (place : Place) : ConditionGroup → List (Connector × Formula Leaf)
  | ⟨conditions, groups⟩ => conditionItems place 0 conditions ++ subgroupItems place 0 groups

/-- Groups behind their connectors, the first of which has the given number. Groups without
conditions are left out. -/
def subgroupItems (place : Place) (j : Nat) : List Subgroup → List (Connector × Formula Leaf)
  | [] => []
  | ⟨connector, group⟩ :: rest =>
    match Formula.ofItems? (group.items (place.inner j)) with
    | some F => (connector, F) :: subgroupItems place (j + 1) rest
    | none => subgroupItems place (j + 1) rest

end

/-- The formula of a group, if it holds a condition. -/
def ConditionGroup.formula? (place : Place) (g : ConditionGroup) : Option (Formula Leaf) :=
  Formula.ofItems? (g.items place)

mutual

/-- The groups that joins hand over to a statement, with their places. -/
def joinedGroups (path : Path) (l : Nat) : List Join → List (Place × ConditionGroup)
  | [] => []
  | ⟨_, query, _⟩ :: rest => query.handedGroups path l ++ joinedGroups path (l + 1) rest

/-- The groups that a joined query hands over: its own, then those of the joins inside it. -/
def Query.handedGroups (path : Path) (l : Nat) : Query → List (Place × ConditionGroup)
  | ⟨own, token, _, conditions, joins, _⟩ =>
    (⟨own.getD "", some token, path.childAt "fl" l⟩, conditions) ::
      joinedGroups (path.childAt "j" l) 0 joins

end

/-- The formulas of groups at their places, where they hold conditions. -/
def formulas (groups : List (Place × ConditionGroup)) : List (Formula Leaf) :=
  groups.filterMap fun (place, g) => g.formula? place

/-- There is no formula of no parts. -/
theorem Formula.ofItems?_eq_none {α : Type} {items : List (Connector × Formula α)} :
    ofItems? items = none ↔ items = [] := by
  cases items <;> simp [ofItems?]

mutual

/-- A group has no parts just if there is no condition in it. -/
theorem ConditionGroup.items_eq_nil_iff : ∀ (g : ConditionGroup) (place : Place),
    g.items place = [] ↔ g.isLeafless = true
  | ⟨conditions, groups⟩, place => by
    rw [ConditionGroup.items, ConditionGroup.isLeafless, List.append_eq_nil_iff,
      subgroupItems_eq_nil_iff groups, Bool.and_eq_true]
    cases conditions with
    | nil => simp [conditionItems]
    | cons condition rest =>
      obtain ⟨connector, field, filter⟩ := condition
      simp [conditionItems]

/-- Nor do several groups. -/
theorem subgroupItems_eq_nil_iff : ∀ (groups : List Subgroup) (place : Place) (j : Nat),
    subgroupItems place j groups = [] ↔ areLeafless groups = true
  | [], _, _ => by simp [subgroupItems, areLeafless]
  | ⟨connector, group⟩ :: rest, place, j => by
    rw [subgroupItems, areLeafless, Bool.and_eq_true, ← group.items_eq_nil_iff (place.inner j),
      ← subgroupItems_eq_nil_iff rest place (j + 1)]
    cases hitems : group.items (place.inner j) with
    | nil => simp [Formula.ofItems?]
    | cons item items => simp [Formula.ofItems?]

end

/-- A group has no formula if and only if it is leafless. -/
theorem ConditionGroup.formula?_eq_none_iff (g : ConditionGroup) (place : Place) :
    g.formula? place = none ↔ g.isLeafless = true := by
  rw [formula?, Formula.ofItems?_eq_none, g.items_eq_nil_iff]

namespace Term

/-- The text of terms behind another text is their own text behind a connector. -/
theorem tailText_cons (term : Term) (rest : List Term) :
    ∃ connector : Connector, tailText (term :: rest) =
      .text connector.text :: whereText (term :: rest) := by
  cases term with
  | leaf connector text => exact ⟨connector, rfl⟩
  | group connector terms => exact ⟨connector, rfl⟩

/-- Behind another text, terms stand one after the other. -/
theorem tailText_append (a b : List Term) : tailText (a ++ b) = tailText a ++ tailText b := by
  induction a with
  | nil => rfl
  | cons term a ih =>
    cases term with
    | leaf connector text => simp [tailText, ih]
    | group connector terms => simp [tailText, ih]

end Term

namespace Context

open Resolve

variable {ctx : Context}

/-- The scope of the fields of a group at a place. -/
def scopeAt (ctx : Context) (place : Place) : Scope :=
  ⟨place.table, place.token?, (ctx.schema.table place.table).toOption.getD ⟨[]⟩⟩

/-- The scope at a place is that of its table, if the schema has it. -/
theorem scopeAt_eq (place : Place) {d : Table} (h : ctx.schema.table place.table = .ok d) :
    ctx.scopeAt place = ⟨place.table, place.token?, d⟩ := by
  rw [scopeAt, h]
  rfl

/-- How a leaf resolves. -/
def resolveLeaf (ctx : Context) (leaf : Leaf) : Resolve Fragment :=
  ctx.conditionText (ctx.scopeAt leaf.place) leaf.place.path leaf.index leaf.field leaf.filter

/-- The text of a leaf, where it resolves. -/
def written (ctx : Context) (leaf : Leaf) : Fragment :=
  match (ctx.resolveLeaf leaf).run with
  | .ok (f, _) => f
  | .error _ => []

/-- A leaf resolves to its text. -/
def Writes (ctx : Context) (leaf : Leaf) : Prop :=
  ∃ t, (ctx.resolveLeaf leaf).Yields (ctx.written leaf) t

/-- A leaf is written as what it is resolved to. -/
theorem written_eq {leaf : Leaf} {f : Fragment} {t : Trace}
    (h : (ctx.resolveLeaf leaf).Yields f t) : ctx.written leaf = f := by
  rw [written, h]

/-- A leaf that is resolved to something is written as that. -/
theorem Writes.of_yields {leaf : Leaf} {f : Fragment} {t : Trace}
    (h : (ctx.resolveLeaf leaf).Yields f t) : ctx.Writes leaf :=
  ⟨t, (written_eq h).symm ▸ h⟩

/-- All leaves of a formula resolve to their texts. -/
def WritesAll (ctx : Context) (F : Formula Leaf) : Prop := ∀ leaf ∈ F.atoms, ctx.Writes leaf

/-- The text of a condition without a query is not blank. -/
theorem simpleCondition_inked {scope : Scope} {path : Path} {i : Nat} {field : String}
    {filter : Filter} :
    (ctx.simpleCondition scope path i field filter).Ensures Fragment.Inked := by
  have hcompared : ∀ (operand : Fragment) (comparison : Comparison) (marker : Piece),
      (comparedWith operand comparison marker).Inked := by
    intro operand comparison marker
    refine Fragment.inked_of_mem_text (s := " " ++ comparison.text ++ " ") ?_
      (by simp [comparedWith])
    cases comparison <;> decide
  cases filter with
  | compare comparison v =>
    exact .bind .trivially fun operand _ => .bind .trivially fun marker _ => .pure (hcompared _ _ _)
  | compareField comparison other =>
    refine .bind .trivially fun left _ => .bind .trivially fun right _ => .pure ?_
    refine Fragment.inked_of_mem_text (s := " " ++ comparison.text ++ " ") ?_ (by simp)
    cases comparison <;> decide
  | compareDate comparison pattern v =>
    exact .bind .trivially fun operand _ => .bind .trivially fun marker _ => .pure (hcompared _ _ _)
  | like wildcards v =>
    simp only [simpleCondition]
    split
    · exact .fail
    · refine .bind .trivially fun operand _ => .bind .trivially fun marker _ => .pure ?_
      exact Fragment.inked_of_mem_text (s := " like ") (by decide) (by simp)
  | member test v =>
    refine .bind .trivially fun members _ => ?_
    split
    · exact .fail
    · refine .bind .trivially fun operand _ => .bind .trivially fun markers _ => .pure ?_
      refine Fragment.inked_of_mem_text (s := " " ++ test.text ++ " ") ?_ (by simp)
      cases test <;> decide
  | memberOf test q => exact .fail
  | guard guard v =>
    refine .bind .trivially fun operand _ => .bind .trivially fun marker _ => .pure ?_
    refine Fragment.inked_of_mem_text (s := " " ++ guard.sign ++ " ") ?_ (by simp)
    cases guard <;> decide
  | isNull =>
    refine .bind .trivially fun operand _ => .pure ?_
    exact Fragment.inked_of_mem_text (s := " is null") (by decide) (by simp)
  | isNotNull =>
    refine .bind .trivially fun operand _ => .pure ?_
    exact Fragment.inked_of_mem_text (s := " is not null") (by decide) (by simp)

/-- Every condition leaves a text that is not blank. -/
theorem conditionText_inked {scope : Scope} {path : Path} {i : Nat} {field : String} :
    ∀ {filter : Filter}, (ctx.conditionText scope path i field filter).Ensures Fragment.Inked
  | .memberOf test ⟨some table, token, clauses, conditions, joins, unions⟩ => by
    intro f t h
    obtain ⟨operand, t₁, parts, t₂, branches, t₃, -, -, -, -, rfl, -⟩ :=
      conditionText_memberOf_yields h
    refine Fragment.inked_of_mem_text (s := " " ++ test.text ++ " ") ?_ (by simp)
    cases test <;> decide
  | .memberOf _ ⟨none, _, _, _, _, _⟩ => .fail
  | .compare _ _ | .compareField _ _ | .compareDate _ _ _ | .like _ _ | .member _ _ | .guard _ _
  | .isNull | .isNotNull => simpleCondition_inked

/-- The text of a leaf is not blank. -/
theorem Writes.inked {leaf : Leaf} (h : ctx.Writes leaf) : (ctx.written leaf).Inked := by
  obtain ⟨t, h⟩ := h
  exact conditionText_inked _ t h

/-- The text of a formula is visible, since it begins with a leaf or a parenthesis. -/
theorem WritesAll.visible {F : Formula Leaf} (h : ctx.WritesAll F) :
    (F.text ctx.written).Visible := by
  have hunit : ∀ F : Formula Leaf, ctx.WritesAll F → (F.unit ctx.written).Visible := by
    intro F hF
    cases F with
    | atom leaf => exact (hF leaf (List.mem_singleton_self leaf)).inked.visible
    | group first rest => exact Fragment.visible_parens _
  cases F with
  | atom leaf => exact (h leaf (List.mem_singleton_self leaf)).inked.visible
  | group first rest =>
    exact (hunit first fun leaf hleaf => h leaf (List.mem_append_left _ hleaf)).append_right _

/-- All leaves behind connectors resolve to their texts. -/
def WritesItems (ctx : Context) (items : List (Connector × Formula Leaf)) : Prop :=
  ∀ x ∈ items, ctx.WritesAll x.2

/-- A formula is written if its parts are. -/
theorem WritesItems.formula {items : List (Connector × Formula Leaf)} {F : Formula Leaf}
    (h : ctx.WritesItems items) (hF : Formula.ofItems? items = some F) : ctx.WritesAll F := by
  intro leaf hleaf
  rw [Formula.atoms_of_ofItems? hF, List.mem_flatMap] at hleaf
  obtain ⟨x, hx, hleaf⟩ := hleaf
  exact h x hx leaf hleaf

/-- Terms say the same as the parts of a formula: they have the same text behind connectors. -/
theorem whereText_eq {terms : List Term} {items : List (Connector × Formula Leaf)}
    (h : Term.tailText terms = Formula.restText ctx.written items) :
    terms = [] ∧ Formula.ofItems? items = none ∨
      terms ≠ [] ∧ ∃ F, Formula.ofItems? items = some F ∧
        Term.whereText terms = F.text ctx.written := by
  cases terms with
  | nil =>
    cases items with
    | nil => exact .inl ⟨rfl, rfl⟩
    | cons x items => cases h
  | cons term rest =>
    obtain ⟨connector, htail⟩ := Term.tailText_cons term rest
    cases hF : Formula.ofItems? items with
    | none =>
      rw [Formula.ofItems?_eq_none.mp hF, htail] at h
      cases h
    | some F =>
      obtain ⟨connector', htext⟩ := Formula.restText_eq_of_ofItems? ctx.written hF
      rw [htail, htext] at h
      exact .inr ⟨List.cons_ne_nil _ _, F, rfl, (List.cons.inj h).2⟩

/-- Resolved conditions are their leaves, one after the other. -/
theorem conditionTerms_written {place : Place} (conditions : List Condition) {i : Nat}
    {terms : List Term} {t : Trace}
    (h : (ctx.conditionTerms (ctx.scopeAt place) place.path i conditions).Yields terms t) :
    Term.tailText terms = Formula.restText ctx.written (conditionItems place i conditions) ∧
      ctx.WritesItems (conditionItems place i conditions) := by
  induction conditions generalizing i terms t with
  | nil =>
    obtain ⟨rfl, -⟩ := pure_yields.mp h
    exact ⟨rfl, List.forall_mem_nil _⟩
  | cons condition rest ih =>
    obtain ⟨connector, field, filter⟩ := condition
    obtain ⟨text, t₁, others, t₂, htext, hothers, rfl, -⟩ := conditionTerms_cons_yields h
    obtain ⟨hrest, hwrites⟩ := ih hothers
    have hleaf : (ctx.resolveLeaf ⟨place, i, field, filter⟩).Yields text t₁ := htext
    rw [conditionItems, Formula.restText, Formula.unit, written_eq hleaf, Term.tailText, hrest]
    refine ⟨rfl, List.forall_mem_cons.mpr ⟨?_, hwrites⟩⟩
    intro leaf hmem
    obtain rfl := List.mem_singleton.mp hmem
    exact .of_yields hleaf

mutual

/-- A resolved group is its leaves and its groups. -/
theorem groupTerms_written : ∀ (g : ConditionGroup) (place : Place) {terms : List Term}
    {t : Trace}, (ctx.groupTerms (ctx.scopeAt place) place.path g).Yields terms t →
    Term.tailText terms = Formula.restText ctx.written (g.items place) ∧
      ctx.WritesItems (g.items place)
  | ⟨conditions, groups⟩, _, _, _, h => by
    obtain ⟨leaves, t₁, others, t₂, hleaves, hothers, rfl, -⟩ := groupTerms_yields h
    obtain ⟨hconditions, hleaf⟩ := conditionTerms_written conditions hleaves
    obtain ⟨hgroups, hgroup⟩ := subgroupTerms_written groups hothers
    rw [ConditionGroup.items, Term.tailText_append, Formula.restText_append, hconditions, hgroups]
    exact ⟨rfl, List.forall_mem_append.mpr ⟨hleaf, hgroup⟩⟩

/-- A resolved group inside another one is in parentheses, unless it is leafless. -/
theorem subgroupTerms_written : ∀ (groups : List Subgroup) {place : Place} {j : Nat}
    {terms : List Term} {t : Trace},
    (ctx.subgroupTerms (ctx.scopeAt place) place.path j groups).Yields terms t →
    Term.tailText terms = Formula.restText ctx.written (subgroupItems place j groups) ∧
      ctx.WritesItems (subgroupItems place j groups)
  | [], _, _, _, _, h => by
    obtain ⟨rfl, -⟩ := pure_yields.mp h
    exact ⟨rfl, List.forall_mem_nil _⟩
  | ⟨connector, group⟩ :: rest, place, j, _, _, h => by
    obtain ⟨inner, t₁, others, t₂, hinner, hothers, rfl, -⟩ := subgroupTerms_cons_yields h
    obtain ⟨htext, hwrites⟩ :=
      groupTerms_written group (place.inner j) hinner
    obtain ⟨hrest, hothers⟩ := subgroupTerms_written rest hothers
    rw [subgroupItems]
    obtain ⟨rfl, hnone⟩ | ⟨hne, F, hF, hwhere⟩ := whereText_eq htext
    · rw [hnone]
      exact ⟨hrest, hothers⟩
    · rw [hF, if_neg (by simpa using hne), Term.tailText, Formula.restText, hwhere, hrest,
        Formula.unit_of_ofItems? hF]
      exact ⟨rfl, List.forall_mem_cons.mpr ⟨hwrites.formula hF, hothers⟩⟩

end

/-- A resolved group has terms if and only if it has a formula, and then they have the text of the
formula. -/
theorem groupTerms_formula {g : ConditionGroup} {place : Place} {terms : List Term} {t : Trace}
    (h : (ctx.groupTerms (ctx.scopeAt place) place.path g).Yields terms t) :
    terms = [] ∧ g.formula? place = none ∨
      terms ≠ [] ∧ ∃ F, g.formula? place = some F ∧ Term.whereText terms = F.text ctx.written ∧
        ctx.WritesAll F := by
  obtain ⟨htext, hwrites⟩ := groupTerms_written g place h
  obtain hnone | ⟨hne, F, hF, hwhere⟩ := whereText_eq htext
  · exact .inl hnone
  · exact .inr ⟨hne, F, hF, hwhere, hwrites.formula hF⟩

/-- What joins hand over to a statement are the texts of the formulas of their groups. -/
theorem joined_written : ∀ (joins : List Join) {parent : Scope} {path : Path} {extent : Extent}
    {l : Nat} {added : Joined} {t : Trace},
    (ctx.joined parent path extent l joins).Yields added t →
    added.conditions = (formulas (joinedGroups path l joins)).map (Formula.text ctx.written) ∧
      ∀ F ∈ formulas (joinedGroups path l joins), ctx.WritesAll F
  | [], _, _, _, _, _, _, h => by
    obtain ⟨rfl, -⟩ := pure_yields.mp h
    exact ⟨rfl, List.forall_mem_nil _⟩
  | ⟨keys, ⟨_, token, clauses, conditions, joins, unions⟩, on⟩ :: rest, _, path, _, l, _, _,
      h => by
    obtain ⟨table, d, keyText, t₁, lists, t₂, extra, t₃, terms, t₄, inner, t₅, others, t₆, rfl, hd,
      -, -, -, hterms, hinner, hothers, rfl, -⟩ := joined_cons_yields h
    obtain ⟨hinner, hinnerWrites⟩ := joined_written joins hinner
    obtain ⟨hothers, hothersWrite⟩ := joined_written rest hothers
    have hscope := scopeAt_eq ⟨table, some token, path.childAt "fl" l⟩ hd
    rw [← hscope] at hterms
    -- A join hands over its own conditions first, then those of its joins, then those behind it.
    have hsplit : formulas (joinedGroups path l
        (⟨keys, ⟨some table, token, clauses, conditions, joins, unions⟩, on⟩ :: rest)) =
        formulas [(⟨table, some token, path.childAt "fl" l⟩, conditions)] ++
          formulas (joinedGroups (path.childAt "j" l) 0 joins) ++
          formulas (joinedGroups path (l + 1) rest) := by
      rw [joinedGroups, Query.handedGroups, ← List.singleton_append]
      simp only [formulas, List.filterMap_append]
      rfl
    have hown : (ctx.attach table token keyText lists extra terms).conditions =
        (formulas [(⟨table, some token, path.childAt "fl" l⟩, conditions)]).map
          (Formula.text ctx.written) ∧
        ∀ F ∈ formulas [(⟨table, some token, path.childAt "fl" l⟩, conditions)],
          ctx.WritesAll F := by
      obtain ⟨rfl, hnone⟩ | ⟨-, F, hF, hwhere, hwrites⟩ := groupTerms_formula hterms
      · simp [attach, formulas, hnone, Term.whereText]
      · have hne : (F.text ctx.written).isEmpty = false :=
          List.isEmpty_eq_false_iff.mpr hwrites.visible.ne_nil
        simpa [attach, formulas, hF, hwhere, hne] using hwrites
    rw [hsplit, List.map_append, List.map_append, ← hown.1, ← hinner, ← hothers,
      List.forall_mem_append, List.forall_mem_append]
    exact ⟨rfl, ⟨hown.2, hinnerWrites⟩, hothersWrite⟩

end Context

end DynamicSql
