import DynamicSql.Proofs.Resolve.Landmarks
import DynamicSql.Proofs.Resolve.Steps
import DynamicSql.Resolve.References

/-!
# Shown tables are claimed

Tables are collected before anything is resolved, by a walk of its own. What is shown afterwards
stays within what was collected: no token brings in more tables than were collected with it. This
holds of queries that were resolved only, since a joined query without a table is passed over when
tables are collected and refused when it is resolved.
-/

namespace DynamicSql

open Landmark (tokens)

/-- No token brings in more tables among landmarks than were collected with it. -/
def Claimed (ls : List Landmark) (references : List (Token × String)) : Prop :=
  ∀ token, (tokens ls).count token ≤ (references.map (·.1)).count token

namespace Claimed

variable {a b : List Landmark} {r s : List (Token × String)}

/-- Values claim no table. -/
theorem of_tokens_eq_nil (h : tokens a = []) : Claimed a r := by
  intro token
  rw [h, List.count_nil]
  exact Nat.zero_le _

/-- Landmarks that are claimed by references may be put together. -/
theorem append (ha : Claimed a r) (hb : Claimed b s) : Claimed (a ++ b) (r ++ s) := by
  intro token
  have hleft := ha token
  have hright := hb token
  rw [Landmark.tokens_append, List.count_append, List.map_append, List.count_append]
  omega

/-- The order of landmarks does not matter for what claims them. -/
theorem perm (h : Claimed a r) (hab : a.Perm b) : Claimed b r := by
  intro token
  have hcount := (hab.filterMap Landmark.token?).count_eq token
  have hle := h token
  unfold tokens at hle ⊢
  omega

/-- More may be collected than is shown. -/
theorem append_right (h : Claimed a r) (s : List (Token × String)) : Claimed a (r ++ s) := by
  intro token
  have hle := h token
  rw [List.map_append, List.count_append]
  omega

/-- A table is claimed by its token. -/
theorem table_cons (token : Token) (table : String) (h : Claimed a r) :
    Claimed (.table token :: a) ((token, table) :: r) := by
  intro other
  have hle := h other
  change (token :: tokens a).count other ≤ (token :: r.map (·.1)).count other
  rw [List.count_cons, List.count_cons]
  omega

/-- Where every collected token is used once, so is every shown one. -/
theorem nodup (h : Claimed a r) (hr : (r.map (·.1)).Nodup) : (tokens a).Nodup := by
  rw [List.nodup_iff_count_le_one] at hr ⊢
  intro token
  have hle := h token
  have hone := hr token
  omega

end Claimed

/-- Values in a row bring in no table. -/
theorem tokens_map_value {α : Type} (slot : α → Slot) (value : α → Value) (xs : List α) :
    tokens (xs.map fun x => .value (slot x) (value x)) = [] := by
  induction xs with
  | nil => rfl
  | cons x xs ih =>
    rw [List.map_cons]
    exact ih

/-- Conditions on groups bring in no table. -/
theorem tokens_havingLandmarks (grouped : Bool) (path : Path) (havings : List HavingItem) :
    tokens (havingLandmarks grouped path havings) = [] := by
  unfold havingLandmarks
  split
  · exact tokens_map_value _ _ _
  · rfl

namespace Context

open Resolve

variable {ctx : Context}

mutual

/-- The tables of a resolved query are among those of its conditions and joins, and its own. -/
theorem selectParts_claimed : ∀ (q : Query) {table : String} {path : Path} {extent : Extent}
    {parts : SelectParts} {t : Trace}, (ctx.selectParts table path extent q).Yields parts t →
    Claimed (q.landmarks path)
      ((q.token, table) :: q.conditions.references ++ joinReferences q.joins)
  | ⟨_, token, clauses, conditions, joins, _⟩, table, path, _, _, _, h => by
    obtain ⟨d, lists, t₁, added, t₂, terms, t₃, -, -, hadded, hterms, rfl, rfl⟩ :=
      selectParts_yields h
    have hconditions := groupTerms_claimed conditions hterms
    have hjoins := joined_claimed joins true hadded
    have hhavings := tokens_havingLandmarks true (path.child "gh") clauses.havings
    intro other
    have hleft := hconditions other
    have hright := hjoins other
    simp only [Query.landmarks, JoinLandmarks.all, Landmark.tokens_append,
      Landmark.tokens_table_cons, hhavings, List.map_append, List.map_cons, List.count_append,
      List.count_cons, List.count_nil] at hright ⊢
    omega

/-- The tables of resolved branches are among those collected for the union. -/
theorem unionBranches_claimed : ∀ (branches : List UnionBranch) {table : String} {path : Path}
    {k : Nat} {f : Fragment} {t : Trace}, (ctx.unionBranches table path k branches).Yields f t →
    Claimed (branchLandmarks path k branches) (branchReferences table branches)
  | [], _, _, _, _, _, _ => .of_tokens_eq_nil rfl
  | ⟨_, q⟩ :: rest, table, path, k, _, _, h => by
    obtain ⟨parts, t₁, others, t₂, hparts, -, hothers, rfl, rfl⟩ := unionBranches_cons_yields h
    have hfirst := selectParts_claimed q hparts
    have hrest := unionBranches_claimed rest hothers
    obtain ⟨own, token, clauses, conditions, joins, unions⟩ := q
    rw [branchLandmarks, branchReferences, Query.branchReferences]
    exact (hfirst.append_right _).append hrest

/-- A group that is resolved brings in the tables of its references only. -/
theorem groupTerms_claimed : ∀ (group : ConditionGroup) {scope : Scope} {path : Path}
    {terms : List Term} {t : Trace}, (ctx.groupTerms scope path group).Yields terms t →
    Claimed (group.landmarks path) group.references
  | ⟨conditions, groups⟩, _, _, _, _, h => by
    obtain ⟨leaves, t₁, others, t₂, hleaves, hothers, rfl, rfl⟩ := groupTerms_yields h
    rw [ConditionGroup.landmarks, ConditionGroup.references]
    exact (conditionTerms_claimed conditions hleaves).append (subgroupTerms_claimed groups hothers)

/-- So do conditions. -/
theorem conditionTerms_claimed : ∀ (conditions : List Condition) {scope : Scope} {path : Path}
    {i : Nat} {terms : List Term} {t : Trace},
    (ctx.conditionTerms scope path i conditions).Yields terms t →
    Claimed (conditionLandmarks path i conditions) (conditionReferences conditions)
  | [], _, _, _, _, _, _ => .of_tokens_eq_nil rfl
  | ⟨_, _, filter⟩ :: rest, _, _, _, _, _, h => by
    obtain ⟨text, t₁, others, t₂, htext, hothers, rfl, rfl⟩ := conditionTerms_cons_yields h
    rw [conditionLandmarks, conditionReferences]
    exact (conditionText_claimed filter htext).append (conditionTerms_claimed rest hothers)

/-- A condition without a query shows no table, and one with a query shows those of the query. -/
theorem conditionText_claimed : ∀ (filter : Filter) {scope : Scope} {path : Path} {i : Nat}
    {field : String} {f : Fragment} {t : Trace},
    (ctx.conditionText scope path i field filter).Yields f t →
    Claimed (filter.landmarks path i) filter.references
  | .memberOf _ ⟨some table, token, clauses, conditions, joins, unions⟩, _, _, _, _, _, _, h => by
    obtain ⟨operand, t₁, parts, t₂, branches, t₃, -, hparts, -, hbranches, rfl, rfl⟩ :=
      conditionText_memberOf_yields h
    have hselect := selectParts_claimed ⟨some table, token, clauses, conditions, joins, unions⟩
      hparts
    rw [Filter.landmarks, Filter.references, Query.ownReferences]
    exact hselect.append (unionBranches_claimed unions hbranches)
  | .memberOf _ ⟨none, _, _, _, _, _⟩, _, _, _, _, _, _, h => absurd h fail_yields
  | .member _ v, _, _, _, _, _, _, _ => by
    rw [Filter.landmarks]
    exact .of_tokens_eq_nil (tokens_map_value _ _ _)
  | .compare _ _, _, _, _, _, _, _, _ | .compareField _ _, _, _, _, _, _, _, _
  | .compareDate _ _ _, _, _, _, _, _, _, _ | .like _ _, _, _, _, _, _, _, _
  | .guard _ _, _, _, _, _, _, _, _ | .isNull, _, _, _, _, _, _, _
  | .isNotNull, _, _, _, _, _, _, _ => .of_tokens_eq_nil rfl

/-- So do the groups in a group. -/
theorem subgroupTerms_claimed : ∀ (groups : List Subgroup) {scope : Scope} {path : Path} {j : Nat}
    {terms : List Term} {t : Trace}, (ctx.subgroupTerms scope path j groups).Yields terms t →
    Claimed (subgroupLandmarks path j groups) (subgroupReferences groups)
  | [], _, _, _, _, _, _ => .of_tokens_eq_nil rfl
  | ⟨_, group⟩ :: rest, _, _, _, _, _, h => by
    obtain ⟨inner, t₁, others, t₂, hinner, hothers, rfl, rfl⟩ := subgroupTerms_cons_yields h
    rw [subgroupLandmarks, subgroupReferences]
    exact (groupTerms_claimed group hinner).append (subgroupTerms_claimed rest hothers)

/-- Resolved joins have tables, and these are among those collected for the joins. -/
theorem joined_claimed : ∀ (joins : List Join) (grouped : Bool) {parent : Scope} {path : Path}
    {extent : Extent} {l : Nat} {added : Joined} {t : Trace},
    (ctx.joined parent path extent l joins).Yields added t →
    Claimed (joinLandmarks grouped path l joins).all (joinReferences joins)
  | [], _, _, _, _, _, _, _, _ => .of_tokens_eq_nil rfl
  | ⟨_, ⟨_, token, clauses, conditions, joins, _⟩, on⟩ :: rest, grouped, _, path, _, l, _, _,
    h => by
    obtain ⟨table, d, keyText, t₁, lists, t₂, extra, t₃, terms, t₄, inner, t₅, others, t₆, rfl, -,
      -, -, hextra, hterms, hinner, hothers, rfl, rfl⟩ := joined_cons_yields h
    have hon := groupTerms_claimed on hextra
    have hconditions := groupTerms_claimed conditions hterms
    have hjoins := joined_claimed joins grouped hinner
    have hrest := joined_claimed rest grouped hothers
    have hhavings := tokens_havingLandmarks grouped (path.childAt "gh" l) clauses.havings
    have hown : Claimed (JoinLandmarks.all ⟨.table token :: on.landmarks (path.childAt "ofl" l),
        conditions.landmarks (path.childAt "fl" l),
        havingLandmarks grouped (path.childAt "gh" l) clauses.havings⟩)
        ((token, table) :: on.references ++ conditions.references) := by
      rw [← List.append_nil ((token, table) :: on.references ++ conditions.references)]
      exact ((hon.table_cons token table).append hconditions).append (.of_tokens_eq_nil hhavings)
    -- Landmarks are listed clause by clause and tables join by join, so the parts agree up to their
    -- order.
    have hall := ((hown.append hjoins).append hrest).perm
      (((JoinLandmarks.all_append_perm _ _).append_right _).trans
        (JoinLandmarks.all_append_perm _ _))
    intro other
    have hle := hall other
    rw [joinLandmarks, joinReferences, Query.ownReferences]
    simp only [List.map_append, List.map_cons, List.count_append, List.count_cons] at hle ⊢
    omega

end

end Context

end DynamicSql
