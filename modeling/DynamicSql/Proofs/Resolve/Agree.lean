import DynamicSql.Proofs.Resolve.Coupled

/-!
# Two runs that agree

Two runs of resolving agree when they end in the same error, or in the same result after mentioning
the same tables and binding values at the same places. Which values are bound is left open. This is
a coupling, so steps that agree may be put in a row, and the agreement of long runs follows from
that of their steps.
-/

namespace DynamicSql

/-- What a trace shows apart from the bound values. -/
def Trace.outline (t : Trace) : List Token × List Slot := (t.mentioned, t.bound.map (·.1))

/-- Traces with the same outlines stay so when they go on with the same outlines. -/
theorem Trace.outline_append {t u t' u' : Trace} (ht : t.outline = t'.outline)
    (hu : u.outline = u'.outline) : (t ++ u).outline = (t' ++ u').outline := by
  obtain ⟨htables, hplaces⟩ := Prod.mk.inj ht
  obtain ⟨hmore, hbehind⟩ := Prod.mk.inj hu
  simp only [outline, mentioned_append, bound_append, List.map_append, htables, hplaces, hmore,
    hbehind]

/-- The same errors, and traces with the same outlines. -/
def Coupling.outlined : Coupling where
  errors := Eq
  traces t u := t.outline = u.outline
  empty := rfl
  append := Trace.outline_append

instance : Coupling.outlined.Reflexive := ⟨fun _ => rfl, fun _ => rfl⟩

namespace Resolve

variable {α : Type}

/-- Two runs agree in everything but the bound values. -/
abbrev Agree (x y : Resolve α) : Prop := Coupled .outlined Eq x y

namespace Agree

/-- A run agrees with itself. -/
theorem refl (x : Resolve α) : Agree x x := Coupled.same x fun _ => rfl

/-- The marker of a value does not depend on the value. -/
theorem bound (slot : Slot) (v w : Value) : Agree (Resolve.bound slot v) (Resolve.bound slot w) :=
  .ok ⟨rfl, rfl⟩

/-- Runs that agree end alike. -/
theorem run_map_eq {x y : Resolve α} (hxy : Agree x y) :
    (x.run.map fun result => (result.1, result.2.outline)) =
      y.run.map fun result => (result.1, result.2.outline) :=
  Matched.map_eq hxy fun _ _ hab => Prod.ext hab.1 hab.2

end Agree

end Resolve

end DynamicSql
