import DynamicSql.Proofs.Sql.Formula

/-!
# Conditions behind keys

Behind `ON`, conditions follow the keys of a join, which stand behind `AND`. As `AND` binds tighter
than `OR`, the keys are demanded together with the conditions only up to the first `OR` between
these: where there is none, the whole holds if and only if the keys and the conditions do
(`value_keyed_of_and`), and behind an `OR` it holds without any key (`value_keyed_of_or`).
-/

namespace DynamicSql

section Chains

/-- What stands behind `AND`s has to hold together with what they join. -/
theorem chain_append (b : Bool) {xs : List (Connector × Bool)} (h : ∀ x ∈ xs, x.1 = .and)
    (ys : List (Connector × Bool)) : chain b (xs ++ ys) = chain (b && xs.all (·.2)) ys := by
  induction xs generalizing b with
  | nil => rw [List.nil_append, List.all_nil, Bool.and_true]
  | cons x xs ih =>
    obtain ⟨connector, c⟩ := x
    obtain ⟨rfl, hxs⟩ := List.forall_mem_cons.mp h
    rw [List.cons_append, chain, ih (b && c) hxs, List.all_cons, Bool.and_assoc]

/-- Values that all stand behind `AND` belong to the value behind them. -/
theorem precedence_append {xs : List (Connector × Bool)} (h : ∀ x ∈ xs, x.1 = .and) (b : Bool)
    (ys : List (Connector × Bool)) :
    precedence (xs ++ (.and, b) :: ys) = chain (xs.all (·.2) && b) ys := by
  cases xs with
  | nil => rfl
  | cons x xs =>
    rw [List.cons_append, precedence, chain_append x.2 (List.forall_mem_cons.mp h).2, chain,
      List.all_cons]

/-- Where everything holds, a chain does. -/
theorem chain_of_all {rest : List (Connector × Bool)} (h : ∀ x ∈ rest, x.2 = true) :
    chain true rest = true := by
  induction rest with
  | nil => rfl
  | cons x rest ih =>
    obtain ⟨connector, c⟩ := x
    obtain ⟨rfl, hrest⟩ := List.forall_mem_cons.mp h
    cases connector with
    | and => exact ih hrest
    | or => rfl

/-- Behind an `OR`, a chain holds whatever stands in front of it. -/
theorem chain_of_or (b : Bool) {rest : List (Connector × Bool)} (hor : ∃ x ∈ rest, x.1 = .or)
    (h : ∀ x ∈ rest, x.2 = true) : chain b rest = true := by
  induction rest generalizing b with
  | nil => exact absurd hor (by simp)
  | cons x rest ih =>
    obtain ⟨connector, c⟩ := x
    obtain ⟨rfl, hrest⟩ := List.forall_mem_cons.mp h
    cases connector with
    | and => exact ih (b && true) (by simpa using hor) hrest
    | or => rw [chain, chain_of_all hrest, Bool.or_true]

end Chains

namespace Formula

variable {α β : Type}

mutual

/-- A formula with replaced leaves has the value that the new leaves give it. -/
theorem value_map (f : α → β) (ρ : β → Bool) : ∀ F : Formula α,
    (F.map f).value ρ = F.value (ρ ∘ f)
  | .atom a => rfl
  | .group first rest => by
    rw [map, value, value, value_map f ρ first, restValues_map f ρ rest]

/-- So it is for parts behind connectors. -/
theorem restValues_map (f : α → β) (ρ : β → Bool) : ∀ rest : List (Connector × Formula α),
    restValues ρ (mapRest f rest) = restValues (ρ ∘ f) rest
  | [] => rfl
  | (connector, part) :: rest => by
    rw [mapRest, restValues, restValues, value_map f ρ part, restValues_map f ρ rest]

end

mutual

/-- A formula with replaced leaves is written as the new leaves are. -/
theorem unit_map (f : α → β) (write : β → Fragment) : ∀ F : Formula α,
    (F.map f).unit write = F.unit (write ∘ f)
  | .atom a => rfl
  | .group first rest => by
    rw [map, unit, unit, unit_map f write first, restText_map f write rest]

/-- So it is for parts behind connectors. -/
theorem restText_map (f : α → β) (write : β → Fragment) : ∀ rest : List (Connector × Formula α),
    restText write (mapRest f rest) = restText (write ∘ f) rest
  | [] => rfl
  | (connector, part) :: rest => by
    rw [mapRest, restText, restText, unit_map f write part, restText_map f write rest]

end

mutual

/-- Where all leaves hold, a formula does. -/
theorem value_of_all {ρ : α → Bool} (h : ∀ a, ρ a = true) : ∀ F : Formula α, F.value ρ = true
  | .atom a => h a
  | .group first rest => by
    rw [value, value_of_all h first]
    exact chain_of_all (restValues_of_all h rest)

/-- Where all leaves hold, all parts behind connectors hold. -/
theorem restValues_of_all {ρ : α → Bool} (h : ∀ a, ρ a = true) :
    ∀ rest : List (Connector × Formula α), ∀ x ∈ restValues ρ rest, x.2 = true
  | [] => List.forall_mem_nil _
  | (_, part) :: rest =>
    List.forall_mem_cons.mpr ⟨value_of_all h part, restValues_of_all h rest⟩

end

end Formula

/-- What stands behind `ON`: keys, the condition directly behind them, and further conditions. The
first condition is told apart, since its text loses the white space at its front. -/
inductive Keyed (κ α : Type) where
  | key (k : κ)
  | front (a : α)
  | further (a : α)

namespace Keyed

variable {κ α : Type}

/-- The truth value of a key or a condition. -/
def holds (agrees : κ → Bool) (ρ : α → Bool) : Keyed κ α → Bool
  | .key k => agrees k
  | .front a | .further a => ρ a

/-- Keys, each behind `AND`. -/
def keyItems (keys : List κ) : List (Connector × Formula (Keyed κ α)) :=
  keys.map fun k => (.and, .atom (.key k))

/-- Keys, each behind `AND`, and behind them a condition with the parts that follow it. -/
def items (keys : List κ) (first : α) (rest : List (Connector × Formula α)) :
    List (Connector × Formula (Keyed κ α)) :=
  keyItems keys ++ (.and, .atom (.front first)) :: Formula.mapRest .further rest

end Keyed

/-- Keys and conditions make a formula. -/
theorem exists_keyed {κ α : Type} (keys : List κ) (first : α)
    (rest : List (Connector × Formula α)) :
    ∃ G, Formula.ofItems? (Keyed.items keys first rest) = some G := by
  cases hitems : Keyed.items keys first rest with
  | nil => exact absurd hitems (List.append_ne_nil_of_right_ne_nil _ (List.cons_ne_nil _ _))
  | cons x others => exact ⟨_, rfl⟩

section Values

open Keyed

variable {κ α : Type} {keys : List κ} {first : α} {rest : List (Connector × Formula α)}
  {G : Formula (Keyed κ α)} (hG : Formula.ofItems? (items keys first rest) = some G)

include hG

/-- The leaves are the keys, and behind them the conditions. -/
theorem atoms_keyed : G.atoms =
    keys.map .key ++ .front first :: (Formula.restAtoms rest).map .further := by
  have hkeys : (keyItems keys : List (Connector × Formula (Keyed κ α))).flatMap (·.2.atoms) =
      keys.map .key := by
    rw [keyItems, List.flatMap_map]
    exact List.map_eq_flatMap.symm
  have hfurther : (Formula.mapRest .further rest).flatMap (·.2.atoms) =
      (Formula.restAtoms rest).map (.further : α → Keyed κ α) := by
    rw [← Formula.restAtoms_eq, Formula.restAtoms_map]
  rw [Formula.atoms_of_ofItems? hG, items, List.flatMap_append, List.flatMap_cons, hkeys, hfurther]
  rfl

/-- The keys have to agree together with the first condition. -/
theorem value_keyed (agrees : κ → Bool) (ρ : α → Bool) : G.value (holds agrees ρ) =
    chain (keys.all agrees && ρ first) (Formula.restValues ρ rest) := by
  have hkeys : Formula.valuesOf (holds agrees ρ) (keyItems keys) =
      keys.map fun k => (Connector.and, agrees k) := by
    rw [Formula.valuesOf, keyItems, List.map_map]
    rfl
  have hfurther : Formula.valuesOf (holds agrees ρ) (Formula.mapRest .further rest) =
      Formula.restValues ρ rest := by
    rw [Formula.valuesOf, ← Formula.restValues_eq, Formula.restValues_map]
    rfl
  have hsplit : Formula.valuesOf (holds agrees ρ) (items keys first rest) =
      (keys.map fun k => (Connector.and, agrees k)) ++
        (.and, ρ first) :: Formula.restValues ρ rest := by
    rw [← hkeys, ← hfurther, Formula.valuesOf, items, List.map_append, List.map_cons]
    rfl
  rw [Formula.value_of_ofItems? hG, hsplit, precedence_append (by simp), List.all_map]
  rfl

/-- Where only `AND` stands between the conditions, the whole holds if and only if all keys agree
and the conditions hold. -/
theorem value_keyed_of_and (h : ∀ x ∈ rest, x.1 = .and) (agrees : κ → Bool) (ρ : α → Bool) :
    G.value (holds agrees ρ) =
      (keys.all agrees && chain (ρ first) (Formula.restValues ρ rest)) := by
  have hand : ∀ x ∈ Formula.restValues ρ rest, x.1 = .and := by
    rw [Formula.restValues_eq]
    exact List.forall_mem_map.mpr h
  rw [value_keyed hG, chain_of_and _ hand, chain_of_and _ hand, Bool.and_assoc]

/-- Where `OR` stands between the conditions, the whole holds without any key. -/
theorem value_keyed_of_or (h : ∃ x ∈ rest, x.1 = .or) :
    G.value (holds (fun _ => false) fun _ => true) = true := by
  rw [value_keyed hG]
  refine chain_of_or _ ?_ (Formula.restValues_of_all (fun _ => rfl) rest)
  obtain ⟨x, hx, hor⟩ := h
  rw [Formula.restValues_eq]
  exact ⟨_, List.mem_map_of_mem hx, hor⟩

/-- The keys are demanded together with the conditions if and only if only `AND` stands between
these. -/
theorem value_keyed_iff (hkeys : keys ≠ []) :
    (∀ agrees ρ, G.value (holds agrees ρ) =
      (keys.all agrees && chain (ρ first) (Formula.restValues ρ rest))) ↔
    ∀ x ∈ rest, x.1 = .and := by
  refine ⟨fun hvalue x hx => ?_, value_keyed_of_and hG⟩
  cases hconnector : x.1 with
  | and => rfl
  | or =>
    obtain ⟨k, others, rfl⟩ := List.exists_cons_of_ne_nil hkeys
    have htrue := value_keyed_of_or hG ⟨x, hx, hconnector⟩
    rw [hvalue, List.all_cons, Bool.false_and, Bool.false_and] at htrue
    cases htrue

end Values

end DynamicSql
