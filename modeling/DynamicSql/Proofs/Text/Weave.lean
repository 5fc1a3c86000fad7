import Mathlib.Data.List.Basic

/-!
# Lists woven from parts

A list that is cut into parts is woven together again from the parts and from what stood between
them. Parts are cut out between places of the list, which are left out themselves, or between all
members with a property; either way other separators can take the places of the former ones.
-/

namespace DynamicSql.Text

variable {α β : Type}

/-- Parts with a separator between each two of them. -/
def weave (parts separators : List (List α)) : List α :=
  (List.zipWith (· ++ ·) parts (separators ++ [[]])).flatten

/-- Without parts, nothing is woven. -/
@[simp] theorem weave_nil (separators : List (List α)) : weave [] separators = [] := by
  rw [weave, List.zipWith_nil_left, List.flatten_nil]

/-- A single part is woven to itself. -/
@[simp] theorem weave_singleton (part : List α) : weave [part] [] = part := by simp [weave]

/-- The first part and the first separator stand in front of what is woven from the others. -/
theorem weave_cons (part separator : List α) (parts separators : List (List α)) :
    weave (part :: parts) (separator :: separators) =
      part ++ (separator ++ weave parts separators) := by
  simp [weave]

/-- What is put in front of the first part stands in front of all. -/
theorem weave_modifyHead {parts : List (List α)} (hne : parts ≠ []) (c : α)
    (separators : List (List α)) :
    weave (parts.modifyHead (c :: ·)) separators = c :: weave parts separators := by
  obtain ⟨part, parts, rfl⟩ := List.exists_cons_of_ne_nil hne
  cases separators <;> simp [weave]

/-- What takes lists apart at every place takes a woven list apart. -/
theorem map_weave {f : List α → List β} (hnil : f [] = [])
    (happend : ∀ a b, f (a ++ b) = f a ++ f b) (parts separators : List (List α)) :
    f (weave parts separators) = weave (parts.map f) (separators.map f) := by
  induction parts generalizing separators with
  | nil => rw [weave_nil, hnil, List.map_nil, weave_nil]
  | cons part parts ih =>
    cases separators with
    | nil => simp [weave]
    | cons separator separators =>
      rw [weave_cons, happend, happend, ih, List.map_cons, List.map_cons, weave_cons]

/-- The separators are what is left of a woven list without its parts. -/
theorem filter_weave {p : α → Bool} {parts separators : List (List α)}
    (hlength : parts.length = separators.length + 1)
    (hparts : ∀ part ∈ parts, ∀ c ∈ part, p c = false)
    (hseparators : ∀ separator ∈ separators, ∀ c ∈ separator, p c = true) :
    (weave parts separators).filter p = separators.flatten := by
  induction separators generalizing parts with
  | nil =>
    obtain ⟨part, rfl⟩ := List.length_eq_one_iff.mp hlength
    rw [weave_singleton, List.flatten_nil, List.filter_eq_nil_iff]
    intro c hc
    simp [hparts part List.mem_cons_self c hc]
  | cons separator separators ih =>
    obtain ⟨part, parts, rfl⟩ := List.exists_cons_of_length_eq_add_one hlength
    obtain ⟨hpart, hparts⟩ := List.forall_mem_cons.mp hparts
    obtain ⟨hseparator, hseparators⟩ := List.forall_mem_cons.mp hseparators
    have hnone : part.filter p = [] := List.filter_eq_nil_iff.mpr fun c hc => by simp [hpart c hc]
    rw [weave_cons, List.filter_append, List.filter_append, hnone,
      List.filter_eq_self.mpr hseparator, ih (Nat.succ.inj hlength) hparts hseparators,
      List.nil_append, List.flatten_cons]

/-! ## Cutting at places -/

/-- The parts of a list between some of its places, which are left out. The first part begins at
`start`. -/
def partsBetween (cs : List α) (start : Nat) : List Nat → List (List α)
  | [] => [cs.drop start]
  | place :: places => (cs.take place).drop start :: partsBetween cs (place + 1) places

/-- There is one part more than there are places. -/
@[simp] theorem length_partsBetween (cs : List α) (start : Nat) (places : List Nat) :
    (partsBetween cs start places).length = places.length + 1 := by
  induction places generalizing start with
  | nil => rfl
  | cons place places ih => rw [partsBetween, List.length_cons, ih, List.length_cons]

/-- There is a part at least. -/
theorem partsBetween_ne_nil (cs : List α) (start : Nat) (places : List Nat) :
    partsBetween cs start places ≠ [] :=
  List.ne_nil_of_length_eq_add_one (length_partsBetween cs start places)

/-- A member in front of all parts changes none of them. -/
theorem partsBetween_cons_succ (c : α) (cs : List α) (start : Nat) (places : List Nat) :
    partsBetween (c :: cs) (start + 1) (places.map (· + 1)) = partsBetween cs start places := by
  induction places generalizing start with
  | nil => rfl
  | cons place places ih => rw [List.map_cons, partsBetween, partsBetween, ih]; rfl

/-- A member in front of the first place belongs to the first part. -/
theorem partsBetween_cons_zero (c : α) (cs : List α) (places : List Nat) :
    partsBetween (c :: cs) 0 (places.map (· + 1)) =
      (partsBetween cs 0 places).modifyHead (c :: ·) := by
  cases places with
  | nil => rfl
  | cons place places =>
    rw [List.map_cons, partsBetween, partsBetween, partsBetween_cons_succ]
    rfl

/-! ## Cutting at members -/

/-- A list is woven from the parts between the members with a property and from these members. -/
theorem weave_splitOnP (p : α → Bool) (cs : List α) :
    weave (cs.splitOnP p) ((cs.filter p).map ([·])) = cs :=
  List.splitOnP_spec cs

/-- A list is split into one part more than it has members with the property. -/
theorem length_splitOnP (p : α → Bool) (cs : List α) :
    (cs.splitOnP p).length = (cs.filter p).length + 1 := by
  induction cs with
  | nil => rfl
  | cons c cs ih =>
    rw [List.splitOnP_cons_eq_if_modifyHead, List.filter_cons]
    split
    · rw [List.length_cons, ih, List.length_cons]
    · rw [List.length_modifyHead, ih]

/-- No part holds a member with the property. -/
theorem eq_false_of_mem_splitOnP {p : α → Bool} {cs part : List α} (h : part ∈ cs.splitOnP p) :
    ∀ c ∈ part, p c = false := by
  induction cs generalizing part with
  | nil =>
    obtain rfl := List.mem_singleton.mp h
    exact List.forall_mem_nil _
  | cons c cs ih =>
    rw [List.splitOnP_cons_eq_if_modifyHead] at h
    split at h
    case isTrue =>
      obtain rfl | h := List.mem_cons.mp h
      · exact List.forall_mem_nil _
      · exact ih h
    case isFalse hc =>
      obtain ⟨first, others, hparts⟩ := List.exists_cons_of_ne_nil (List.splitOnP_ne_nil p cs)
      rw [hparts, List.modifyHead_cons] at h
      obtain rfl | h := List.mem_cons.mp h
      · exact List.forall_mem_cons.mpr
          ⟨Bool.eq_false_iff.mpr hc, ih (hparts ▸ List.mem_cons_self)⟩
      · exact ih (hparts ▸ List.mem_cons_of_mem first h)

end DynamicSql.Text
