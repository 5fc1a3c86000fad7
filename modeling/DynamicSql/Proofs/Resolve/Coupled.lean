import DynamicSql.Proofs.Resolve.Yields
import Mathlib.Data.List.Forall2

/-!
# Two runs side by side

Two results match when both are errors that go together, or both are values that go together. Two
runs of resolving are coupled when they end in matching results, with traces that go together. What
going together means is left open: a coupling says it for errors and traces, and a relation says it
for values. Steps that are coupled may be put in a row, so two long runs are coupled along the way
they are built. Where the second run may succeed alone, both notions have a one-sided form
(`MatchedOk`, `CoupledOk`).
-/

namespace DynamicSql

variable {α β γ δ : Type}

/-- Two results are errors that go together, or values that go together. -/
inductive Matched (E : Error → Error → Prop) (R : α → β → Prop) :
    Except Error α → Except Error β → Prop
  | error {e e'} (h : E e e') : Matched E R (.error e) (.error e')
  | ok {a b} (h : R a b) : Matched E R (.ok a) (.ok b)

namespace Matched

variable {E : Error → Error → Prop} {R R' : α → β → Prop} {S : γ → δ → Prop}
  {x : Except Error α} {y : Except Error β}

/-- Results that match do so under every wider relation. -/
theorem mono (h : Matched E R x y) (hR : ∀ a b, R a b → R' a b) : Matched E R' x y := by
  cases h with
  | error herrors => exact .error herrors
  | ok hab => exact .ok (hR _ _ hab)

/-- Results that match are worked on, and what becomes of them matches. -/
theorem bind {f : α → Except Error γ} {g : β → Except Error δ} (hxy : Matched E R x y)
    (hfg : ∀ a b, R a b → Matched E S (f a) (g b)) : Matched E S (x >>= f) (y >>= g) := by
  cases hxy with
  | error herrors => exact .error herrors
  | ok hab => exact hfg _ _ hab

/-- Results that match are turned into something else. -/
theorem map {f : α → γ} {g : β → δ} (hxy : Matched E R x y)
    (hfg : ∀ a b, R a b → S (f a) (g b)) :
    Matched E S (x >>= fun a => pure (f a)) (y >>= fun b => pure (g b)) :=
  hxy.bind fun a b hab => .ok (hfg a b hab)

/-- Two lists are worked off side by side where their members are. -/
theorem mapM {f : α → Except Error γ} {g : β → Except Error δ} {xs : List α} {ys : List β}
    (h : List.Forall₂ (fun a b => Matched E S (f a) (g b)) xs ys) :
    Matched E (List.Forall₂ S) (xs.mapM f) (ys.mapM g) := by
  induction h with
  | nil => exact .ok .nil
  | cons hxy _ ih =>
    rw [List.mapM_cons, List.mapM_cons]
    refine hxy.bind fun c d hcd => ?_
    exact ih.map fun cs ds hcds => .cons hcd hcds

/-- A result matches itself. -/
theorem refl {R : α → α → Prop} (hE : ∀ e, E e e) (x : Except Error α) (h : ∀ a, R a a) :
    Matched E R x x := by
  cases x with
  | error e => exact .error (hE e)
  | ok a => exact .ok (h a)

/-- A result matches itself, with equal errors. -/
theorem same {R : α → α → Prop} (x : Except Error α) (h : ∀ a, R a a) : Matched Eq R x x :=
  refl (fun _ => rfl) x h

/-- Results that match with equal errors are the same once their values are made the same. -/
theorem map_eq {f : α → γ} {g : β → γ} (hxy : Matched Eq R x y) (hfg : ∀ a b, R a b → f a = g b) :
    x.map f = y.map g := by
  cases hxy with
  | error herrors => exact congrArg Except.error herrors
  | ok hab => exact congrArg Except.ok (hfg _ _ hab)

/-- Where one result is a value, so is the other one. -/
theorem exists_ok {a : α} (hxy : Matched E R x y) (hx : x = .ok a) : ∃ b, y = .ok b ∧ R a b := by
  subst hx
  cases hxy with
  | ok hab => exact ⟨_, rfl, hab⟩

end Matched

/-- Where the first result is a value, the second one is a value that goes with it. -/
def MatchedOk (R : α → β → Prop) (x : Except Error α) (y : Except Error β) : Prop :=
  ∀ a, x = .ok a → ∃ b, y = .ok b ∧ R a b

/-- Results that match do so from the first one to the second one. -/
theorem Matched.matchedOk {E : Error → Error → Prop} {R : α → β → Prop} {x : Except Error α}
    {y : Except Error β} (h : Matched E R x y) : MatchedOk R x y :=
  fun _ => h.exists_ok

namespace MatchedOk

variable {R : α → β → Prop} {S : γ → δ → Prop} {x : Except Error α} {y : Except Error β}

/-- Where the first result is an error, nothing is demanded of the second one. -/
theorem error (e : Error) : MatchedOk R (.error e) y := fun _ h => nomatch h

/-- Values that go together match. -/
theorem ok {a : α} {b : β} (h : R a b) : MatchedOk R (.ok a) (.ok b) := by
  rintro _ ⟨⟩
  exact ⟨b, rfl, h⟩

/-- Where the first result is worked on to a value, so is the second one. -/
theorem bind {f : α → Except Error γ} {g : β → Except Error δ} (hxy : MatchedOk R x y)
    (hfg : ∀ a b, R a b → MatchedOk S (f a) (g b)) : MatchedOk S (x >>= f) (y >>= g) := by
  intro c h
  cases x with
  | error e => cases h
  | ok a =>
    obtain ⟨b, rfl, hab⟩ := hxy a rfl
    exact hfg a b hab c h

/-- Where a list is worked off to the end, so is the one beside it. -/
theorem mapM {f : α → Except Error γ} {g : β → Except Error δ} {xs : List α} {ys : List β}
    (h : List.Forall₂ (fun a b => MatchedOk S (f a) (g b)) xs ys) :
    MatchedOk (List.Forall₂ S) (xs.mapM f) (ys.mapM g) := by
  induction h with
  | nil => exact .ok .nil
  | cons hxy _ ih =>
    rw [List.mapM_cons, List.mapM_cons]
    refine hxy.bind fun c d hcd => ?_
    exact ih.bind fun cs ds hcds => .ok (.cons hcd hcds)

end MatchedOk

/-- What is demanded of the errors and of the traces of two runs. -/
structure Coupling where
  errors : Error → Error → Prop
  traces : Trace → Trace → Prop
  empty : traces .empty .empty
  append : ∀ {t t' u u'}, traces t t' → traces u u' → traces (t ++ u) (t' ++ u')

namespace Coupling

/-- Every error and every trace goes with itself. -/
class Reflexive (C : Coupling) : Prop where
  errors : ∀ e, C.errors e e
  traces : ∀ t, C.traces t t

/-- The same errors, and the same traces. -/
def equal : Coupling where
  errors := Eq
  traces := Eq
  empty := rfl
  append ht hu := ht ▸ hu ▸ rfl

instance : equal.Reflexive := ⟨fun _ => rfl, fun _ => rfl⟩

end Coupling

namespace Resolve

/-- Two runs end in errors that go together, or in results and traces that go together. -/
def Coupled (C : Coupling) (R : α → β → Prop) (x : Resolve α) (y : Resolve β) : Prop :=
  Matched C.errors (fun a b => R a.1 b.1 ∧ C.traces a.2 b.2) x.run y.run

namespace Coupled

variable {C : Coupling} {R R' : α → β → Prop} {S : γ → δ → Prop} {x : Resolve α} {y : Resolve β}

/-- Runs that are coupled are so under every wider relation. -/
theorem mono (h : Coupled C R x y) (hR : ∀ a b, R a b → R' a b) : Coupled C R' x y :=
  Matched.mono h fun a b hab => ⟨hR a.1 b.1 hab.1, hab.2⟩

/-- Steps that do nothing are coupled where their results go together. -/
theorem pure {a : α} {b : β} (h : R a b) :
    Coupled C R (Pure.pure a : Resolve α) (Pure.pure b : Resolve β) :=
  .ok ⟨h, C.empty⟩

/-- Failures are coupled where their errors go together. -/
theorem fail {e e' : Error} (h : C.errors e e') :
    Coupled C R (Resolve.fail e : Resolve α) (Resolve.fail e' : Resolve β) :=
  .error h

/-- Runs whose first steps are coupled, and which go on coupled from results that go together. -/
theorem bind {f : α → Resolve γ} {g : β → Resolve δ} (hxy : Coupled C R x y)
    (hfg : ∀ a b, R a b → Coupled C S (f a) (g b)) : Coupled C S (x >>= f) (y >>= g) := by
  unfold Coupled at hxy hfg ⊢
  rw [Resolve.run_bind, Resolve.run_bind]
  generalize x.run = p at hxy ⊢
  generalize y.run = q at hxy ⊢
  cases hxy with
  | error herrors => exact .error herrors
  | @ok a b hab =>
    have hbehind := hfg a.1 b.1 hab.1
    dsimp only
    generalize (f a.1).run = p at hbehind ⊢
    generalize (g b.1).run = q at hbehind ⊢
    cases hbehind with
    | error herrors => exact .error herrors
    | ok hcd => exact .ok ⟨hcd.1, C.append hab.2 hcd.2⟩

/-- Coupled steps whose results are turned into something else. -/
theorem map {f : α → γ} {g : β → δ} (hxy : Coupled C R x y)
    (hfg : ∀ a b, R a b → S (f a) (g b)) :
    Coupled C S (x >>= fun a => Pure.pure (f a)) (y >>= fun b => Pure.pure (g b)) :=
  hxy.bind fun a b hab => .pure (hfg a b hab)

/-- Two lists are worked off side by side where their members are. -/
theorem mapM {f : α → Resolve γ} {g : β → Resolve δ} {xs : List α} {ys : List β}
    (h : List.Forall₂ (fun a b => Coupled C S (f a) (g b)) xs ys) :
    Coupled C (List.Forall₂ S) (xs.mapM f) (ys.mapM g) := by
  induction h with
  | nil => exact .pure .nil
  | cons hxy _ ih =>
    rw [List.mapM_cons, List.mapM_cons]
    refine hxy.bind fun c d hcd => ?_
    exact ih.map fun cs ds hcds => .cons hcd hcds

/-- What is made of the results and the traces of coupled runs. -/
theorem run_bind {f : α × Trace → Except Error γ} {g : β × Trace → Except Error δ}
    (hxy : Coupled C R x y)
    (hfg : ∀ a t b u, R a b → C.traces t u → Matched C.errors S (f (a, t)) (g (b, u))) :
    Matched C.errors S (x.run >>= f) (y.run >>= g) :=
  Matched.bind hxy fun a b hab => hfg a.1 a.2 b.1 b.2 hab.1 hab.2

/-- Two lists are worked off alike where their members are. -/
theorem mapM_eq {f : α → Resolve γ} {g : β → Resolve γ} {r : α → β} {xs : List α}
    (h : ∀ x ∈ xs, Coupled C Eq (f x) (g (r x))) :
    Coupled C Eq (xs.mapM f) ((xs.map r).mapM g) := by
  have hmembers : List.Forall₂ (fun a b => Coupled C Eq (f a) (g b)) xs (xs.map r) := by
    rw [List.forall₂_map_right_iff]
    exact List.forall₂_same.mpr h
  refine (mapM hmembers).mono fun cs ds hcds => ?_
  rwa [List.forall₂_eq_eq_eq] at hcds

section Reflexive

variable [C.Reflexive]

/-- A run goes with itself. -/
theorem same {R : α → α → Prop} (x : Resolve α) (h : ∀ a, R a a) : Coupled C R x x :=
  Matched.refl Coupling.Reflexive.errors x.run fun a => ⟨h a.1, Coupling.Reflexive.traces a.2⟩

/-- Runs that begin with the same step. -/
theorem after {f : α → Resolve γ} {g : α → Resolve δ}
    (hfg : ∀ a, Coupled C S (f a) (g a)) : Coupled C S (x >>= f) (x >>= g) :=
  (same x fun _ => rfl).bind fun a _ hab => hab ▸ hfg a

/-- Runs that go on with the same steps. -/
theorem before {x y : Resolve α} (hxy : Coupled C Eq x y) (f : α → Resolve γ) :
    Coupled C Eq (x >>= f) (y >>= f) :=
  hxy.bind fun a _ hab => hab ▸ same (f a) fun _ => rfl

end Reflexive

end Coupled

/-- Where the first run ends in a result, the second one ends in a result that goes with it, with
the same trace. -/
def CoupledOk (R : α → β → Prop) (x : Resolve α) (y : Resolve β) : Prop :=
  MatchedOk (fun a b => R a.1 b.1 ∧ a.2 = b.2) x.run y.run

/-- Runs with equal errors and traces are coupled from the first one to the second one. -/
theorem Coupled.coupledOk {R : α → β → Prop} {x : Resolve α} {y : Resolve β}
    (h : Coupled .equal R x y) : CoupledOk R x y :=
  Matched.matchedOk h

namespace CoupledOk

variable {R : α → β → Prop} {S : γ → δ → Prop} {x : Resolve α} {y : Resolve β}

/-- Steps that do nothing end in results that go together. -/
theorem pure {a : α} {b : β} (h : R a b) :
    CoupledOk R (Pure.pure a : Resolve α) (Pure.pure b : Resolve β) :=
  MatchedOk.ok ⟨h, rfl⟩

/-- Where the first run fails, nothing is demanded of the second one. -/
theorem fail (e : Error) : CoupledOk R (Resolve.fail e : Resolve α) y := MatchedOk.error e

/-- Runs that go on from results that go together end in such results. -/
theorem bind {f : α → Resolve γ} {g : β → Resolve δ} (hxy : CoupledOk R x y)
    (hfg : ∀ a b, R a b → CoupledOk S (f a) (g b)) : CoupledOk S (x >>= f) (y >>= g) := by
  rintro ⟨c, t⟩ h
  obtain ⟨a, t₁, t₂, ha, hc, rfl⟩ := bind_yields.mp h
  obtain ⟨⟨b, _⟩, hb, hab, rfl⟩ := hxy (a, t₁) ha
  obtain ⟨⟨d, _⟩, hd, hcd, rfl⟩ := hfg a b hab (c, t₂) hc
  exact ⟨(d, t₁ ++ t₂), bind_yields.mpr ⟨b, t₁, t₂, hb, hd, rfl⟩, hcd, rfl⟩

/-- A run goes on from a step that both runs begin with. -/
theorem after {f : α → Resolve γ} {g : α → Resolve δ} (hfg : ∀ a, CoupledOk S (f a) (g a)) :
    CoupledOk S (x >>= f) (x >>= g) :=
  (Coupled.same x fun _ => rfl).coupledOk.bind fun a _ hab => hab ▸ hfg a

end CoupledOk

/-- Two coupled runs, where a function tells what the second one yields from what the first one
yields. -/
def Carried (C : Coupling) (φ : α → β) (x : Resolve α) (y : Resolve β) : Prop :=
  Coupled C (fun a b => b = φ a) x y

namespace Carried

variable {C : Coupling} {φ : α → β} {ψ : γ → δ} {x : Resolve α} {y : Resolve β}

/-- Steps that do nothing, the second one with what is carried over. -/
theorem pure {a : α} {b : β} (h : b = φ a) :
    Carried C φ (Pure.pure a : Resolve α) (Pure.pure b : Resolve β) :=
  Coupled.pure h

/-- Failures, with errors that go together. -/
theorem fail {e e' : Error} (h : C.errors e e') :
    Carried C φ (Resolve.fail e : Resolve α) (Resolve.fail e' : Resolve β) :=
  Coupled.fail h

/-- Runs that go on from what was carried over. -/
theorem bind {f : α → Resolve γ} {g : β → Resolve δ} (hxy : Carried C φ x y)
    (hfg : ∀ a, Carried C ψ (f a) (g (φ a))) : Carried C ψ (x >>= f) (y >>= g) := by
  refine Coupled.bind hxy fun a b hab => ?_
  subst hab
  exact hfg a

/-- The last step only puts the result together. -/
theorem map {f : α → γ} {g : β → δ} (hxy : Carried C φ x y) (hfg : ∀ a, g (φ a) = ψ (f a)) :
    Carried C ψ (x >>= fun a => Pure.pure (f a)) (y >>= fun b => Pure.pure (g b)) :=
  hxy.bind fun a => .pure (hfg a)

/-- Two lists are worked off side by side, where the second one is carried over, too. -/
theorem mapM {items : List α} {carry : α → β} {f : α → Resolve γ} {g : β → Resolve δ}
    (h : ∀ item ∈ items, Carried C ψ (f item) (g (carry item))) :
    Carried C (List.map ψ) (items.mapM f) ((items.map carry).mapM g) := by
  have hboth : List.Forall₂ (fun a b => Coupled C (fun c d => d = ψ c) (f a) (g b)) items
      (items.map carry) := by
    rw [List.forall₂_map_right_iff]
    exact List.forall₂_same.mpr h
  refine (Coupled.mapM hboth).mono fun cs ds hcds => ?_
  induction hcds with
  | nil => rfl
  | cons hcd _ ih => rw [hcd, ih, List.map_cons]

/-- A list is worked off in two ways. -/
theorem mapM_same {items : List α} {f : α → Resolve γ} {g : α → Resolve δ}
    (h : ∀ item ∈ items, Carried C ψ (f item) (g item)) :
    Carried C (List.map ψ) (items.mapM f) (items.mapM g) := by
  have hcarried : Carried C (List.map ψ) (items.mapM f) ((items.map id).mapM g) := .mapM h
  rwa [List.map_id] at hcarried

/-- A step that may find nothing, and then fails. -/
theorem ofOption {e e' : Error} (h : C.errors e e') (found : Option α) :
    Carried C φ (Resolve.ofOption e found) (Resolve.ofOption e' (found.map φ)) := by
  cases found with
  | none => exact .fail h
  | some a => exact .pure rfl

/-- A step that may have an error of its own. -/
theorem ofExcept (h : ∀ e, C.errors e e) (result : Except Error α) :
    Carried C id (Resolve.ofExcept result) (Resolve.ofExcept result) := by
  cases result with
  | error e => exact .fail (h e)
  | ok a => exact .pure rfl

end Carried

end Resolve

end DynamicSql
