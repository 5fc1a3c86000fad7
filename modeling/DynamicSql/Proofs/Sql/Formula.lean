import DynamicSql.Resolve.Clause

/-!
# Formulas

A condition apart from how its leaves are written: leaves and groups, joined by connectors. The same
formula has a value, once its leaves have truth values, and a text, once its leaves have texts.
-/

namespace DynamicSql

/-- Leaves and groups joined by connectors. A group is never empty, and nothing stands in front of
its first part. -/
inductive Formula (α : Type) where
  | atom (a : α)
  | group (first : Formula α) (rest : List (Connector × Formula α))

/-- The value of a truth value with further ones behind it. `AND` binds tighter than `OR`, so an
`OR` ends what the values in front of it have to satisfy together. -/
def chain (b : Bool) : List (Connector × Bool) → Bool
  | [] => b
  | (.and, c) :: rest => chain (b && c) rest
  | (.or, c) :: rest => b || chain c rest

/-- The value of truth values joined by connectors, the first of which is not read. Nothing at all
is true. -/
def precedence : List (Connector × Bool) → Bool
  | [] => true
  | (_, b) :: rest => chain b rest

/-- Where only `AND` stands, all has to hold. -/
theorem chain_of_and (b : Bool) {rest : List (Connector × Bool)} (h : ∀ x ∈ rest, x.1 = .and) :
    chain b rest = (b && rest.all (·.2)) := by
  induction rest generalizing b with
  | nil => exact (Bool.and_true b).symm
  | cons x rest ih =>
    obtain ⟨connector, c⟩ := x
    obtain ⟨rfl, hrest⟩ := List.forall_mem_cons.mp h
    rw [chain, ih (b && c) hrest, List.all_cons, Bool.and_assoc]

/-- Where only `AND` stands, the values have to hold one by one. -/
theorem precedence_of_and {items : List (Connector × Bool)} (h : ∀ x ∈ items, x.1 = .and) :
    precedence items = items.all (·.2) := by
  cases items with
  | nil => rfl
  | cons x rest =>
    rw [precedence, chain_of_and _ (List.forall_mem_cons.mp h).2]
    rfl

namespace Formula

variable {α β : Type}

/-- A formula of several parts, if there are any. The first connector is dropped. -/
def ofItems? : List (Connector × Formula α) → Option (Formula α)
  | [] => none
  | (_, first) :: rest => some (.group first rest)

mutual

/-- Replace the leaves of a formula. -/
def map (f : α → β) : Formula α → Formula β
  | .atom a => .atom (f a)
  | .group first rest => .group (first.map f) (mapRest f rest)

/-- Replace the leaves behind connectors. -/
def mapRest (f : α → β) : List (Connector × Formula α) → List (Connector × Formula β)
  | [] => []
  | (connector, part) :: rest => (connector, part.map f) :: mapRest f rest

end

mutual

/-- The leaves of a formula, from left to right. -/
def atoms : Formula α → List α
  | .atom a => [a]
  | .group first rest => first.atoms ++ restAtoms rest

/-- The leaves behind connectors. -/
def restAtoms : List (Connector × Formula α) → List α
  | [] => []
  | (_, part) :: rest => part.atoms ++ restAtoms rest

end

mutual

/-- The value of a formula for truth values of its leaves. -/
def value (ρ : α → Bool) : Formula α → Bool
  | .atom a => ρ a
  | .group first rest => chain (first.value ρ) (restValues ρ rest)

/-- The values behind connectors. -/
def restValues (ρ : α → Bool) : List (Connector × Formula α) → List (Connector × Bool)
  | [] => []
  | (connector, part) :: rest => (connector, part.value ρ) :: restValues ρ rest

end

/-- The values of parts behind their connectors. -/
def valuesOf (ρ : α → Bool) (items : List (Connector × Formula α)) : List (Connector × Bool) :=
  items.map fun x => (x.1, x.2.value ρ)

mutual

/-- The text of a formula as a part of another one: groups are in parentheses. -/
def unit (write : α → Fragment) : Formula α → Fragment
  | .atom a => write a
  | .group first rest => .parens (first.unit write ++ restText write rest)

/-- The text of parts behind their connectors. -/
def restText (write : α → Fragment) : List (Connector × Formula α) → Fragment
  | [] => []
  | (connector, part) :: rest => .text connector.text :: part.unit write ++ restText write rest

end

/-- The text of a formula that stands by itself. -/
def text (write : α → Fragment) : Formula α → Fragment
  | .atom a => write a
  | .group first rest => first.unit write ++ restText write rest

/-- Leaves behind connectors are replaced part by part. -/
@[simp] theorem mapRest_eq (f : α → β) (rest : List (Connector × Formula α)) :
    mapRest f rest = rest.map fun x => (x.1, x.2.map f) := by
  induction rest with
  | nil => rfl
  | cons x rest ih => rw [mapRest, ih, List.map_cons]

/-- The leaves behind connectors are those of the parts. -/
@[simp] theorem restAtoms_eq (rest : List (Connector × Formula α)) :
    restAtoms rest = rest.flatMap (·.2.atoms) := by
  induction rest with
  | nil => rfl
  | cons x rest ih => rw [restAtoms, ih, List.flatMap_cons]

/-- The values behind connectors are those of the parts. -/
@[simp] theorem restValues_eq (ρ : α → Bool) (rest : List (Connector × Formula α)) :
    restValues ρ rest = rest.map fun x => (x.1, x.2.value ρ) := by
  induction rest with
  | nil => rfl
  | cons x rest ih => rw [restValues, ih, List.map_cons]

/-- Parts have their text list by list. -/
@[simp] theorem restText_append (write : α → Fragment) (a b : List (Connector × Formula α)) :
    restText write (a ++ b) = restText write a ++ restText write b := by
  induction a with
  | nil => rfl
  | cons x a ih => rw [List.cons_append, restText, restText, ih, List.append_assoc]

/-- The text of several parts is that of their formula behind the first connector. -/
theorem restText_eq_of_ofItems? (write : α → Fragment) {items : List (Connector × Formula α)}
    {F : Formula α} (h : ofItems? items = some F) :
    ∃ connector : Connector, restText write items = .text connector.text :: F.text write := by
  cases items with
  | nil => cases h
  | cons x rest =>
    obtain rfl := Option.some.inj h
    exact ⟨x.1, rfl⟩

/-- Several parts are in parentheses inside another formula. -/
theorem unit_of_ofItems? {write : α → Fragment} {items : List (Connector × Formula α)}
    {F : Formula α} (h : ofItems? items = some F) : F.unit write = .parens (F.text write) := by
  cases items with
  | nil => cases h
  | cons x rest =>
    obtain rfl := Option.some.inj h
    rfl

/-- The value of the formula of several parts is that of the parts by precedence. -/
theorem value_of_ofItems? {ρ : α → Bool} {items : List (Connector × Formula α)} {F : Formula α}
    (h : ofItems? items = some F) :
    F.value ρ = precedence (valuesOf ρ items) := by
  cases items with
  | nil => cases h
  | cons x rest =>
    obtain rfl := Option.some.inj h
    rw [value, restValues_eq]
    rfl

/-- The formula of several parts has their leaves. -/
theorem atoms_of_ofItems? {items : List (Connector × Formula α)} {F : Formula α}
    (h : ofItems? items = some F) : F.atoms = items.flatMap (·.2.atoms) := by
  cases items with
  | nil => cases h
  | cons x rest =>
    obtain rfl := Option.some.inj h
    rw [atoms, restAtoms_eq]
    rfl

mutual

/-- Replacing the leaves of a formula replaces them in their order. -/
theorem atoms_map (f : α → β) : ∀ F : Formula α, (F.map f).atoms = F.atoms.map f
  | .atom a => rfl
  | .group first rest => by
    rw [map, atoms, atoms, atoms_map f first, restAtoms_map f rest, List.map_append]

/-- Replacing leaves behind connectors replaces them in the list of leaves. -/
theorem restAtoms_map (f : α → β) : ∀ rest : List (Connector × Formula α),
    restAtoms (mapRest f rest) = (restAtoms rest).map f
  | [] => rfl
  | (connector, part) :: rest => by
    rw [mapRest, restAtoms, restAtoms, atoms_map f part, restAtoms_map f rest, List.map_append]

end

section Pieces

variable {write : α → Fragment} {a : α} {piece : Piece}

mutual

/-- What a leaf is written as stands in the text of the formula. -/
theorem mem_unit : ∀ {F : Formula α}, a ∈ F.atoms → piece ∈ write a → piece ∈ F.unit write
  | .atom b, ha, hpiece => by
    obtain rfl := List.mem_singleton.mp ha
    exact hpiece
  | .group first rest, ha, hpiece => by
    refine List.mem_append_left _ (List.mem_cons_of_mem _ ?_)
    obtain ha | ha := List.mem_append.mp ha
    · exact List.mem_append_left _ (mem_unit ha hpiece)
    · exact List.mem_append_right _ (mem_restText ha hpiece)

/-- What a leaf behind a connector is written as stands in the text of the parts. -/
theorem mem_restText : ∀ {rest : List (Connector × Formula α)}, a ∈ restAtoms rest →
    piece ∈ write a → piece ∈ restText write rest
  | [], ha, _ => absurd ha List.not_mem_nil
  | (connector, part) :: rest, ha, hpiece => by
    obtain ha | ha := List.mem_append.mp ha
    · exact List.mem_append_left _ (List.mem_cons_of_mem _ (mem_unit ha hpiece))
    · exact List.mem_append_right _ (mem_restText ha hpiece)

end

/-- What a leaf is written as stands in the text of a formula that stands by itself. -/
theorem mem_text {F : Formula α} (ha : a ∈ F.atoms) (hpiece : piece ∈ write a) :
    piece ∈ F.text write := by
  cases F with
  | atom b =>
    obtain rfl := List.mem_singleton.mp ha
    exact hpiece
  | group first rest =>
    obtain ha | ha := List.mem_append.mp ha
    · exact List.mem_append_left _ (mem_unit ha hpiece)
    · exact List.mem_append_right _ (mem_restText ha hpiece)

end Pieces

end Formula

end DynamicSql
