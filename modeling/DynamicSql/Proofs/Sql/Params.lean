import DynamicSql.Sql.Params
import Mathlib.Data.List.Induction
import Mathlib.Data.List.Nodup

/-!
# Looking up bound values

Binding values one after the other keeps all of them, as long as no key of a set is used twice.
Which keys are bound depends on the places alone.
-/

namespace DynamicSql

namespace KeyMap

variable {α β : Type} {key other : String} {value : α} {m : KeyMap α}

/-- The first binding is found under its key and hides nothing else. -/
theorem lookup_cons {k : String} {v : α} {rest : KeyMap α} :
    List.lookup other ((k, v) :: rest) = if other = k then some v else List.lookup other rest := by
  rw [List.lookup_cons]
  by_cases h : other = k
  · rw [if_pos h, beq_iff_eq.mpr h]
  · rw [if_neg h, beq_eq_false_iff_ne.mpr h]

/-- A value is found under its key, and nothing else changes. -/
theorem lookup_insert :
    (m.insert key value).lookup other = if other = key then some value else m.lookup other := by
  induction m with
  | nil => rw [insert, lookup_cons]
  | cons entry rest ih =>
    obtain ⟨k, v⟩ := entry
    unfold insert
    split
    · rw [lookup_cons]
    · split
      case isTrue heq =>
        subst heq
        simp only [lookup_cons]
        by_cases h : other = key <;> simp only [h, if_true, if_false]
      case isFalse hne =>
        rw [lookup_cons, ih, lookup_cons]
        by_cases h : other = key
        · subst h
          rw [if_neg hne, if_pos rfl, if_pos rfl]
        · rw [if_neg h, if_neg h]

/-- A key is added to those that are there. -/
theorem mem_keys_insert :
    other ∈ (m.insert key value).map (·.1) ↔ other = key ∨ other ∈ m.map (·.1) := by
  induction m with
  | nil => simp [insert]
  | cons entry rest ih =>
    obtain ⟨k, v⟩ := entry
    unfold insert
    split
    · simp
    · split
      case isTrue heq => simp [heq]
      case isFalse => simp [ih, or_left_comm]

/-- Which keys there are does not depend on the values. -/
theorem keys_insert_congr {w : β} {n : KeyMap β} (h : m.map (·.1) = n.map (·.1)) :
    (m.insert key value).map (·.1) = (n.insert key w).map (·.1) := by
  induction m generalizing n with
  | nil =>
    obtain rfl := List.map_eq_nil_iff.mp h.symm
    rfl
  | cons entry rest ih =>
    obtain ⟨k, v⟩ := entry
    cases n with
    | nil => simp at h
    | cons entry' rest' =>
      obtain ⟨k', v'⟩ := entry'
      obtain ⟨rfl, hrest⟩ := List.cons.inj h
      unfold insert
      split
      · simpa using hrest
      · split
        · simpa using hrest
        · simpa using ih hrest

/-- Values are put under different keys in either order. -/
theorem insert_comm (h : key ≠ other) (value value' : α) (m : KeyMap α) :
    (m.insert key value).insert other value' = (m.insert other value').insert key value := by
  induction m with
  | nil => grind [insert]
  | cons entry rest ih => grind [insert]

end KeyMap

namespace Params

variable {space space' : Namespace} {key key' : String} {v : Value}

/-- One set of bound values. -/
def set (p : Params) : Namespace → KeyMap Value
  | .field => p.field
  | .filter => p.filter

/-- The keys of one set. -/
def keys (p : Params) (space : Namespace) : List String := (p.set space).map (·.1)

/-- A value is looked up in the space that it belongs to. -/
theorem get?_eq (p : Params) : p.get? space key = (p.set space).lookup key := by
  cases space <;> rfl

/-- Binding a value changes the space that it belongs to and no other. -/
theorem set_insert (p : Params) :
    (p.insert space key v).set space' =
      if space' = space then (p.set space).insert key v else p.set space' := by
  cases space <;> cases space' <;> rfl

/-- A new value is found under its key, and the others are found as before. -/
theorem get?_insert (p : Params) :
    (p.insert space key v).get? space' key' =
      if (space', key') = (space, key) then some v else p.get? space' key' := by
  rw [get?_eq, get?_eq, set_insert]
  by_cases h : space' = space
  · subst h
    simp [KeyMap.lookup_insert]
  · simp [h]

/-- Binding a value adds its key to those of its space. -/
theorem mem_keys_insert (p : Params) :
    key' ∈ (p.insert space key v).keys space' ↔
      (space', key') = (space, key) ∨ key' ∈ p.keys space' := by
  unfold keys
  rw [set_insert]
  by_cases h : space' = space
  · subst h
    simp [KeyMap.mem_keys_insert]
  · simp [h]

/-- Where every key of a set is used once, each place keeps its value. -/
theorem get?_ofBound {bound : List (Slot × Value)} {slot : Slot}
    (hnodup : (bound.map fun b => (b.1.purpose.space, b.1.key)).Nodup) (hmem : (slot, v) ∈ bound) :
    (ofBound bound).get? slot.purpose.space slot.key = some v := by
  induction bound using List.reverseRecOn with
  | nil => simp at hmem
  | append_singleton bound last ih =>
    rw [List.map_append, List.nodup_append] at hnodup
    unfold ofBound at ih ⊢
    rw [List.foldl_append, List.foldl_cons, List.foldl_nil, get?_insert]
    rcases List.mem_append.mp hmem with hmem | hmem
    · have hother : (slot.purpose.space, slot.key) ≠ (last.1.purpose.space, last.1.key) :=
        hnodup.2.2 _ (List.mem_map_of_mem hmem) _ (List.mem_map_of_mem (List.mem_singleton_self _))
      rw [if_neg hother, ih hnodup.1 hmem]
    · obtain rfl := List.mem_singleton.mp hmem
      rw [if_pos rfl]

/-- The keys of a set are those of the places that values of the set were bound at. -/
theorem mem_keys_ofBound {bound : List (Slot × Value)} :
    key ∈ (ofBound bound).keys space ↔
      (space, key) ∈ bound.map fun b => (b.1.purpose.space, b.1.key) := by
  induction bound using List.reverseRecOn with
  | nil => cases space <;> simp [ofBound, empty, keys, set]
  | append_singleton bound last ih =>
    unfold ofBound at ih ⊢
    rw [List.foldl_append, List.foldl_cons, List.foldl_nil, mem_keys_insert, ih, List.map_append,
      List.mem_append, List.map_cons, List.map_nil, List.mem_singleton, or_comm]

/-- Which keys are bound depends on the places alone. -/
theorem keys_ofBound_congr {bound bound' : List (Slot × Value)}
    (h : bound.map (·.1) = bound'.map (·.1)) (space : Namespace) :
    (ofBound bound).keys space = (ofBound bound').keys space := by
  -- Values are bound from left to right, so the last one is looked at first.
  induction bound using List.reverseRecOn generalizing bound' with
  | nil =>
    obtain rfl := List.map_eq_nil_iff.mp h.symm
    rfl
  | append_singleton bound last ih =>
    induction bound' using List.reverseRecOn with
    | nil => simp at h
    | append_singleton bound' last' =>
      simp only [List.map_append, List.map_cons, List.map_nil] at h
      obtain ⟨hfront, hlast⟩ := List.append_inj' h rfl
      obtain ⟨slot, v⟩ := last
      obtain ⟨slot', v'⟩ := last'
      obtain rfl : slot = slot' := (List.cons.inj hlast).1
      have hkeys := ih hfront
      unfold ofBound keys at hkeys ⊢
      rw [List.foldl_append, List.foldl_cons, List.foldl_nil, List.foldl_append, List.foldl_cons,
        List.foldl_nil, set_insert, set_insert]
      by_cases hspace : space = slot.purpose.space
      · subst hspace
        rw [if_pos rfl, if_pos rfl]
        exact KeyMap.keys_insert_congr hkeys
      · rw [if_neg hspace, if_neg hspace]
        exact hkeys

/-- Values are bound to different keys in either order. -/
theorem insert_comm (h : (space, key) ≠ (space', key')) (v v' : Value) (p : Params) :
    (p.insert space key v).insert space' key' v' =
      (p.insert space' key' v').insert space key v := by
  have hkeys : space = space' → key ≠ key' := fun hspace hkey => h (Prod.ext hspace hkey)
  cases space <;> cases space' <;> simp only [insert]
  · rw [KeyMap.insert_comm (hkeys rfl)]
  · rw [KeyMap.insert_comm (hkeys rfl)]

/-- Where every key of a set is used once, values may be bound in any order. -/
theorem ofBound_perm {bound bound' : List (Slot × Value)} (h : bound.Perm bound')
    (hnodup : (bound.map fun b => (b.1.purpose.space, b.1.key)).Nodup) :
    ofBound bound = ofBound bound' := by
  refine h.foldl_eq' (fun x hx y hy p => ?_) _
  by_cases hxy : x = y
  · rw [hxy]
  · exact insert_comm (fun hkeys => hxy (List.inj_on_of_nodup_map hnodup hx hy hkeys)) _ _ p

end Params

end DynamicSql
