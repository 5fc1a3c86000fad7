import DynamicSql.Proofs.Query.Calls
import DynamicSql.Proofs.Statement.Placeholders

/-!
# Bindings under further calls

The key of a value says where the value stands in the description, and every call leaves what is
there at its place. So what a description binds is still bound, to the same value under the same
key, when calls are added to the description (`calls_keep_bindings`).

The values of a description stand among those of every description that extends it, in the same
order, which is shown part by part.
-/

namespace DynamicSql

open Landmark (values slots)

section Landmarks

variable {path : Path}

/-- Further conditions put their landmarks behind. -/
theorem conditionLandmarks_append (a b : List Condition) (i : Nat) :
    conditionLandmarks path i (a ++ b) =
      conditionLandmarks path i a ++ conditionLandmarks path (i + a.length) b := by
  induction a generalizing i with
  | nil => rfl
  | cons condition rest ih =>
    obtain ⟨_, _, _⟩ := condition
    rw [List.cons_append, conditionLandmarks, conditionLandmarks, ih, List.append_assoc,
      List.length_cons, Nat.add_right_comm, Nat.add_assoc]

/-- Further groups put their landmarks behind. -/
theorem subgroupLandmarks_append (a b : List Subgroup) (j : Nat) :
    subgroupLandmarks path j (a ++ b) =
      subgroupLandmarks path j a ++ subgroupLandmarks path (j + a.length) b := by
  induction a generalizing j with
  | nil => rfl
  | cons subgroup rest ih =>
    obtain ⟨_, _⟩ := subgroup
    rw [List.cons_append, subgroupLandmarks, subgroupLandmarks, ih, List.append_assoc,
      List.length_cons, Nat.add_right_comm, Nat.add_assoc]

/-- Further branches put their landmarks behind. -/
theorem branchLandmarks_append (a b : List UnionBranch) (k : Nat) :
    branchLandmarks path k (a ++ b) =
      branchLandmarks path k a ++ branchLandmarks path (k + a.length) b := by
  induction a generalizing k with
  | nil => rfl
  | cons branch rest ih =>
    obtain ⟨_, _⟩ := branch
    rw [List.cons_append, branchLandmarks, branchLandmarks, ih, List.append_assoc,
      List.length_cons, Nat.add_right_comm, Nat.add_assoc]

/-- Further conditions on groups put their landmarks behind. -/
theorem havingLandmarks_append (grouped : Bool) (a b : List HavingItem) :
    havingLandmarks grouped path a <+: havingLandmarks grouped path (a ++ b) := by
  unfold havingLandmarks
  rw [List.zipIdx_append, List.map_append]
  cases grouped with
  | true => exact List.prefix_append _ _
  | false => exact List.prefix_rfl

/-- Further assignments put their landmarks behind. -/
theorem assignedLandmarks_append (a b : List Assignment) :
    assignedLandmarks path a <+: assignedLandmarks path (a ++ b) := by
  unfold assignedLandmarks
  rw [List.zipIdx_append, List.map_append]
  exact List.prefix_append _ _

/-- Landmarks of joins are put together in any grouping. -/
theorem JoinLandmarks.append_assoc (a b c : JoinLandmarks) : a ++ b ++ c = a ++ (b ++ c) := by
  change append (append a b) c = append a (append b c)
  simp only [append, List.append_assoc]

/-- Further joins put their landmarks behind. -/
theorem joinLandmarks_append (grouped : Bool) (a b : List Join) (l : Nat) :
    joinLandmarks grouped path l (a ++ b) =
      joinLandmarks grouped path l a ++ joinLandmarks grouped path (l + a.length) b := by
  induction a generalizing l with
  | nil => rfl
  | cons join rest ih =>
    obtain ⟨_, ⟨_, _, _, _, _, _⟩, _⟩ := join
    simp only [List.cons_append, joinLandmarks, ih, JoinLandmarks.append_assoc, List.length_cons,
      Nat.add_right_comm, Nat.add_assoc]

/-- The landmarks of joins, where joins were added behind. -/
theorem joinLandmarks_prefix (grouped : Bool) {a b : List Join} (h : a <+: b) (path : Path)
    (l : Nat) :
    (joinLandmarks grouped path l a).source <+: (joinLandmarks grouped path l b).source ∧
      (joinLandmarks grouped path l a).conditions <+: (joinLandmarks grouped path l b).conditions ∧
      (joinLandmarks grouped path l a).havings <+: (joinLandmarks grouped path l b).havings := by
  obtain ⟨more, rfl⟩ := h
  rw [joinLandmarks_append]
  exact ⟨List.prefix_append _ _, List.prefix_append _ _, List.prefix_append _ _⟩

end Landmarks

namespace Landmark

/-- Some of the landmarks bind some of the values. -/
theorem values_sublist {ls ls' : List Landmark} (h : ls.Sublist ls') :
    (values ls).Sublist (values ls') :=
  h.filterMap value?

/-- A table binds no value. -/
theorem values_table_cons (token : Token) (ls : List Landmark) :
    values (.table token :: ls) = values ls := rfl

end Landmark

/-- The landmarks of a group, where conditions and groups were added behind. -/
theorem ConditionGroup.Extends.landmarks {g g' : ConditionGroup} (h : g.Extends g')
    (path : Path) : (g.landmarks path).Sublist (g'.landmarks path) := by
  obtain ⟨conditions, groups⟩ := g
  obtain ⟨conditions', groups'⟩ := g'
  obtain ⟨⟨more, rfl⟩, ⟨moreGroups, rfl⟩⟩ := h
  simp only [ConditionGroup.landmarks, conditionLandmarks_append, subgroupLandmarks_append]
  exact (List.sublist_append_left _ _).append (List.sublist_append_left _ _)

/-- The values of a query stand among those of a query that extends it. -/
theorem Query.Extends.values {q q' : Query} (h : q.Extends q') (path : Path) :
    (values (q.allLandmarks path)).Sublist (values (q'.allLandmarks path)) := by
  obtain ⟨_, token, clauses, conditions, joins, unions⟩ := q
  obtain ⟨_, token', clauses', conditions', joins', unions'⟩ := q'
  obtain ⟨hconditions, ⟨moreHavings, hhavings⟩, hjoins, ⟨moreUnions, rfl⟩⟩ := h
  obtain ⟨hsource, hadded, haddedHavings⟩ :=
    joinLandmarks_prefix true hjoins (path.child "cl") 0
  have hown : (havingLandmarks true (path.child "gh") clauses.havings).Sublist
      (havingLandmarks true (path.child "gh") clauses'.havings) :=
    hhavings ▸ (havingLandmarks_append true _ _).sublist
  have hbranches : (branchLandmarks path 0 unions).Sublist
      (branchLandmarks path 0 (unions ++ moreUnions)) := by
    rw [branchLandmarks_append]
    exact List.sublist_append_left _ _
  simp only [allLandmarks, landmarks, List.cons_append, Landmark.values_table_cons]
  exact Landmark.values_sublist <| ((((hsource.sublist.append (hconditions.landmarks _)).append
    hadded.sublist).append hown).append haddedHavings.sublist).append hbranches

/-- The values of an update stand among those of an update that extends it. -/
theorem Update.Extends.values {u u' : Update} (h : u.Extends u') (path : Path) :
    (values (u.landmarks path)).Sublist (values (u'.landmarks path)) := by
  obtain ⟨⟨moreSets, hsets⟩, hjoins, hconditions⟩ := h
  obtain ⟨hsource, hadded, -⟩ := joinLandmarks_prefix false hjoins (path.child "cl") 0
  have hassigned : (assignedLandmarks (path.child "u") u.sets).Sublist
      (assignedLandmarks (path.child "u") u'.sets) :=
    hsets ▸ (assignedLandmarks_append _ _).sublist
  simp only [landmarks, List.cons_append, Landmark.values_table_cons]
  exact Landmark.values_sublist <| ((hsource.sublist.append hassigned).append
    (hconditions.landmarks _)).append hadded.sublist

namespace Params

/-- What some values bind, others bind as well: every key stands for the same value in the same
set. -/
def Within (p p' : Params) : Prop :=
  ∀ space key v, p.get? space key = some v → p'.get? space key = some v

/-- A value that is found was bound at a place with this key. -/
theorem mem_of_get?_ofBound {bound : List (Slot × Value)} {space : Namespace} {key : String}
    {v : Value} (h : (ofBound bound).get? space key = some v) :
    ∃ slot, (slot, v) ∈ bound ∧ slot.purpose.space = space ∧ slot.key = key := by
  -- The last value that was bound under a key is found.
  induction bound using List.reverseRecOn with
  | nil => cases space <;> simp [ofBound, empty, get?] at h
  | append_singleton bound last ih =>
    unfold ofBound at ih h
    rw [List.foldl_append, List.foldl_cons, List.foldl_nil, get?_insert] at h
    split at h
    case isTrue hlast =>
      obtain ⟨hspace, hkey⟩ := Prod.mk.inj hlast
      refine ⟨last.1, ?_, hspace.symm, hkey.symm⟩
      rw [← Option.some.inj h]
      exact List.mem_append_right _ (List.mem_singleton_self _)
    case isFalse =>
      obtain ⟨slot, hslot, hkey⟩ := ih h
      exact ⟨slot, List.mem_append_left _ hslot, hkey⟩

end Params

namespace Compiler

variable {c : Compiler} {table : String}

/-- Where the values of a description are among those of another one, the statement of the latter
binds whatever the statement of the former does. -/
theorem within_of_values {d e : Description} {s s' : Statement}
    (h : c.compile table d = .ok s.compiled) (h' : c.compile table e = .ok s'.compiled)
    (hvalues : values d.landmarks.flatten ⊆ values e.landmarks.flatten) :
    s.params.Within s'.params := by
  obtain ⟨scripts, hscripts, htexts, hparams⟩ := exists_scripts_of_compile h
  obtain ⟨scripts', hscripts', htexts', hparams'⟩ := exists_scripts_of_compile h'
  obtain ⟨x, rfl, -⟩ := List.map_eq_singleton_iff.mp htexts.symm
  obtain ⟨x', rfl, -⟩ := List.map_eq_singleton_iff.mp htexts'.symm
  have hx := List.mem_singleton_self x
  have hx' := List.mem_singleton_self x'
  obtain ⟨-, hbound⟩ := script_landmarks (scripts_show hscripts x hx)
  obtain ⟨-, hbound'⟩ := script_landmarks (scripts_show hscripts' x' hx')
  intro space key v hget
  have hparams : s.params = .ofBound (bound x) := hparams x hx
  have hparams' : s'.params = .ofBound (bound x') := hparams' x' hx'
  rw [hparams] at hget
  obtain ⟨slot, hslot, rfl, rfl⟩ := Params.mem_of_get?_ofBound hget
  rw [hparams']
  exact Params.get?_ofBound (bound_nodup hscripts' hx')
    (hbound'.mem_iff.mpr (hvalues (hbound.mem_iff.mp hslot)))

/-- A query binds whatever a query binds that it extends. -/
theorem select_within {q q' : Query} {s s' : Statement} (hextends : q.Extends q')
    (h : c.select q table = .ok s) (h' : c.select q' table = .ok s') :
    s.params.Within s'.params := by
  refine within_of_values (d := .select q) (e := .select q') (by rw [compile, h]; rfl)
    (by rw [compile, h']; rfl) ?_
  simp only [Description.landmarks, List.flatten_singleton]
  exact (hextends.values _).subset

/-- An update binds whatever an update binds that it extends. -/
theorem update_within {u u' : Update} {s s' : Statement} (hextends : u.Extends u')
    (h : c.update u table = .ok s) (h' : c.update u' table = .ok s') :
    s.params.Within s'.params := by
  refine within_of_values (d := .update u) (e := .update u') (by rw [compile, h]; rfl)
    (by rw [compile, h']; rfl) ?_
  simp only [Description.landmarks, List.flatten_singleton]
  exact (hextends.values _).subset

/-- A deletion binds whatever a deletion binds whose conditions it extends. -/
theorem delete_within {d d' : Delete} {s s' : Statement}
    (hextends : d.conditions.Extends d'.conditions) (h : c.delete d table = .ok s)
    (h' : c.delete d' table = .ok s') : s.params.Within s'.params := by
  refine within_of_values (d := .delete d) (e := .delete d') (by rw [compile, h]; rfl)
    (by rw [compile, h']; rfl) ?_
  simp only [Description.landmarks, List.flatten_singleton]
  exact (Landmark.values_sublist (hextends.landmarks _)).subset

/-- What a description binds is still bound, to the same value under the same key, after a call on
it. -/
theorem calls_keep_bindings (c : Compiler) (table : String) :
    (∀ (q : Query) (call : QueryCall) (s s' : Statement), c.select q table = .ok s →
      c.select (call.apply q) table = .ok s' → s.params.Within s'.params) ∧
    (∀ (u : Update) (call : UpdateCall) (s s' : Statement), c.update u table = .ok s →
      c.update (call.apply u) table = .ok s' → s.params.Within s'.params) ∧
    ∀ (d : Delete) (call : DeleteCall) (s s' : Statement), c.delete d table = .ok s →
      c.delete (call.apply d) table = .ok s' → s.params.Within s'.params := by
  refine ⟨?_, ?_, ?_⟩
  · intro q call s s' h h'
    exact select_within (call.apply_extends q) h h'
  · intro u call s s' h h'
    exact update_within (call.apply_extends u) h h'
  · intro d call s s' h h'
    exact delete_within (call.apply_extends d) h h'

/-- A change of an order. -/
def repricing : Update :=
  HasConditions.byId (.int 1) ((Update.new "a").assign .set "total" (.int 5))

/-- A deletion of an order. -/
def cancellation : Delete :=
  HasConditions.byId (.int 1) Delete.empty

/-- Further calls on a query with a join and a union, on an update and on a deletion. -/
theorem shop_calls_keep_bindings :
    (∃ s s', shop.select frequentCustomers "customer" = .ok s ∧
      shop.select ((QueryCall.condition (.dateUntil "id" (.int 9))).apply frequentCustomers)
        "customer" = .ok s' ∧ s.params.Within s'.params) ∧
    (∃ s s', shop.update repricing "orders" = .ok s ∧
      shop.update ((UpdateCall.assign .increment "id" (.int 2)).apply repricing) "orders" = .ok s' ∧
      s.params.Within s'.params) ∧
    ∃ s s', shop.delete cancellation "orders" = .ok s ∧
      shop.delete ((DeleteCall.limited 3).apply cancellation) "orders" = .ok s' ∧
      s.params.Within s'.params := by
  refine ⟨?_, ?_, ?_⟩
  · obtain ⟨s, hs⟩ : ∃ s, shop.select frequentCustomers "customer" = .ok s :=
      except_exists_ok (by decide +kernel)
    obtain ⟨s', hs'⟩ : ∃ s', shop.select
        ((QueryCall.condition (.dateUntil "id" (.int 9))).apply frequentCustomers) "customer" =
          .ok s' := except_exists_ok (by decide +kernel)
    exact ⟨s, s', hs, hs', (calls_keep_bindings shop "customer").1 _ _ s s' hs hs'⟩
  · obtain ⟨s, hs⟩ : ∃ s, shop.update repricing "orders" = .ok s :=
      except_exists_ok (by decide +kernel)
    obtain ⟨s', hs'⟩ : ∃ s', shop.update
        ((UpdateCall.assign .increment "id" (.int 2)).apply repricing) "orders" = .ok s' :=
      except_exists_ok (by decide +kernel)
    exact ⟨s, s', hs, hs', (calls_keep_bindings shop "orders").2.1 _ _ s s' hs hs'⟩
  · obtain ⟨s, hs⟩ : ∃ s, shop.delete cancellation "orders" = .ok s :=
      except_exists_ok (by decide +kernel)
    obtain ⟨s', hs'⟩ : ∃ s', shop.delete ((DeleteCall.limited 3).apply cancellation) "orders" =
        .ok s' := except_exists_ok (by decide +kernel)
    exact ⟨s, s', hs, hs', (calls_keep_bindings shop "orders").2.2 _ _ s s' hs hs'⟩

/-- A sequence of calls keeps what is bound as well, also where the descriptions between the calls
have no statement. -/
theorem call_sequences_keep_bindings (c : Compiler) (table : String) :
    (∀ (q : Query) (calls : List QueryCall) (s s' : Statement), c.select q table = .ok s →
      c.select (calls.foldl (fun q call => call.apply q) q) table = .ok s' →
      s.params.Within s'.params) ∧
    (∀ (u : Update) (calls : List UpdateCall) (s s' : Statement), c.update u table = .ok s →
      c.update (calls.foldl (fun u call => call.apply u) u) table = .ok s' →
      s.params.Within s'.params) ∧
    ∀ (d : Delete) (calls : List DeleteCall) (s s' : Statement), c.delete d table = .ok s →
      c.delete (calls.foldl (fun d call => call.apply d) d) table = .ok s' →
      s.params.Within s'.params := by
  refine ⟨?_, ?_, ?_⟩
  · intro q calls s s' h h'
    exact select_within (QueryCall.foldl_extends calls q) h h'
  · intro u calls s s' h h'
    exact update_within (UpdateCall.foldl_extends calls u) h h'
  · intro d calls s s' h h'
    exact delete_within (DeleteCall.foldl_extends calls d) h h'

end Compiler

end DynamicSql
