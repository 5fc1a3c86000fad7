import DynamicSql.Resolve.Basic

/-!
# Successful resolving

`Yields` says that resolving succeeds, with which result and with which trace. The laws below take
a run apart along the way it is built, so later modules never open the definition of a step.
-/

namespace DynamicSql

namespace Trace

/-- Nothing has happened before the first step. -/
@[simp] theorem empty_append (t : Trace) : empty ++ t = t := rfl

/-- Nothing more happens after the last step. -/
@[simp] theorem append_empty (t : Trace) : t ++ empty = t := by
  change Trace.mk (t.mentioned ++ []) (t.bound ++ []) = t
  rw [List.append_nil, List.append_nil]

/-- What happens in three steps does not depend on how the steps are grouped. -/
theorem append_assoc (a b c : Trace) : a ++ b ++ c = a ++ (b ++ c) := by
  change Trace.mk (a.mentioned ++ b.mentioned ++ c.mentioned) (a.bound ++ b.bound ++ c.bound) =
    Trace.mk (a.mentioned ++ (b.mentioned ++ c.mentioned)) (a.bound ++ (b.bound ++ c.bound))
  rw [List.append_assoc, List.append_assoc]

/-- The mentions of two steps follow each other. -/
@[simp] theorem mentioned_append (a b : Trace) :
    (a ++ b).mentioned = a.mentioned ++ b.mentioned := rfl

/-- So do the values that they bind. -/
@[simp] theorem bound_append (a b : Trace) : (a ++ b).bound = a.bound ++ b.bound := rfl

end Trace

namespace Resolve

variable {α β γ : Type}

/-- A step that does nothing has its result and an empty trace. -/
theorem run_pure (a : α) : (pure a : Resolve α).run = .ok (a, .empty) := rfl

/-- Two steps in a row: the first error decides, and the traces follow each other. -/
theorem run_bind (x : Resolve α) (f : α → Resolve β) :
    (x >>= f).run = match x.run with
      | .error e => .error e
      | .ok (a, trace) =>
        match (f a).run with
        | .error e => .error e
        | .ok (b, more) => .ok (b, trace ++ more) := rfl

/-- What is made of a result leaves the trace as it is. -/
theorem run_map (x : Resolve α) (g : α → β) :
    (x >>= fun a => pure (g a)).run = x.run.map fun y => (g y.1, y.2) := by
  rw [run_bind]
  rcases x.run with e | ⟨a, t⟩
  · rfl
  · exact congrArg (fun t => Except.ok (g a, t)) t.append_empty

/-- Resolving is determined by what it yields. -/
theorem eq_of_run_eq {x y : Resolve α} (h : x.run = y.run) : x = y := by
  cases x
  cases y
  exact congrArg Resolve.mk h

/-- A step that does nothing may be left out behind another one. -/
private theorem bind_pure_run (x : Resolve α) : (x >>= pure).run = x.run := by
  rw [run_bind]
  rcases x.run with e | ⟨a, t⟩
  · rfl
  · simp only [run_pure, Trace.append_empty]

/-- A step that does nothing may be left out in front of another one. -/
private theorem pure_bind_run (a : α) (f : α → Resolve β) : (pure a >>= f).run = (f a).run := by
  rw [run_bind, run_pure]
  rcases hf : (f a).run with e | ⟨b, t⟩ <;> simp only [hf, Trace.empty_append]

/-- Three steps in a row may be grouped either way. -/
private theorem bind_bind_run (x : Resolve α) (f : α → Resolve β) (g : β → Resolve γ) :
    (x >>= f >>= g).run = (x >>= fun a => f a >>= g).run := by
  simp only [run_bind]
  rcases x.run with e | ⟨a, t⟩
  · rfl
  · rcases hf : (f a).run with e | ⟨b, u⟩
    · simp only [hf]
    · rcases hg : (g b).run with e | ⟨c, v⟩ <;> simp only [hf, hg, Trace.append_assoc]

instance : LawfulMonad Resolve :=
  LawfulMonad.mk' Resolve (fun x => eq_of_run_eq (bind_pure_run x))
    (fun a f => eq_of_run_eq (pure_bind_run a f))
    (fun x f g => eq_of_run_eq (bind_bind_run x f g))

/-- Resolving succeeds with a result and a trace. -/
def Yields (x : Resolve α) (a : α) (t : Trace) : Prop := x.run = .ok (a, t)

/-- It yields this and nothing else. -/
@[simp] theorem pure_yields {a b : α} {t : Trace} :
    (pure a : Resolve α).Yields b t ↔ b = a ∧ t = .empty := by
  unfold Yields
  rw [run_pure, Except.ok.injEq, Prod.mk.injEq, eq_comm, @eq_comm _ Trace.empty]

/-- Two steps in a row succeed when each does. -/
@[simp] theorem bind_yields {x : Resolve α} {f : α → Resolve β} {b : β} {t : Trace} :
    (x >>= f).Yields b t ↔
      ∃ a t₁ t₂, x.Yields a t₁ ∧ (f a).Yields b t₂ ∧ t = t₁ ++ t₂ := by
  unfold Yields
  rw [run_bind]
  constructor
  · intro h
    rcases hx : x.run with e | ⟨a, t₁⟩
    · simp [hx] at h
    · rcases hf : (f a).run with e | ⟨c, t₂⟩
      · simp [hx, hf] at h
      · simp only [hx, hf, Except.ok.injEq, Prod.mk.injEq] at h
        obtain ⟨rfl, rfl⟩ := h
        exact ⟨a, t₁, t₂, rfl, hf, rfl⟩
  · rintro ⟨a, t₁, t₂, hx, hf, rfl⟩
    simp only [hx, hf]

/-- A failure yields nothing. -/
@[simp] theorem fail_yields {e : Error} {a : α} {t : Trace} : ¬(fail e : Resolve α).Yields a t := by
  intro h
  cases h

/-- A result from outside is yielded if it is no error. -/
@[simp] theorem ofExcept_yields {x : Except Error α} {a : α} {t : Trace} :
    (ofExcept x).Yields a t ↔ x = .ok a ∧ t = .empty := by
  cases x with
  | error e => simp [Yields, ofExcept]
  | ok b => simp [Yields, ofExcept, eq_comm]

/-- A value that may be missing is yielded if it is there. -/
@[simp] theorem ofOption_yields {e : Error} {x : Option α} {a : α} {t : Trace} :
    (ofOption e x).Yields a t ↔ x = some a ∧ t = .empty := by
  cases x with
  | none => simp [Yields, ofOption]
  | some b => simp [Yields, ofOption, eq_comm]

/-- A mention yields nothing and leaves its token in the trace. -/
@[simp] theorem mention_yields {token : Token} {a : Unit} {t : Trace} :
    (mention token).Yields a t ↔ t = ⟨[token], []⟩ := by
  simp [Yields, mention, eq_comm]

/-- Binding a value yields a marker and leaves the value in the trace. -/
@[simp] theorem bound_yields {slot : Slot} {v : Value} {piece : Piece} {t : Trace} :
    (bound slot v).Yields piece t ↔ piece = .marker slot ∧ t = ⟨[], [(slot, v)]⟩ := by
  simp [Yields, bound, eq_comm]

/-- No members yield nothing. -/
@[simp] theorem mapM_nil_yields {f : α → Resolve β} {ys : List β} {t : Trace} :
    (List.mapM f []).Yields ys t ↔ ys = [] ∧ t = .empty := by
  rw [List.mapM_nil, pure_yields]

/-- A list yields what its first member yields, and then what the others do. -/
@[simp] theorem mapM_cons_yields {f : α → Resolve β} {x : α} {xs : List α} {ys : List β}
    {t : Trace} :
    ((x :: xs).mapM f).Yields ys t ↔ ∃ y t₁ ys' t₂, (f x).Yields y t₁ ∧
      (xs.mapM f).Yields ys' t₂ ∧ ys = y :: ys' ∧ t = t₁ ++ t₂ := by
  rw [List.mapM_cons]
  simp only [bind_yields, pure_yields]
  constructor
  · rintro ⟨y, t₁, t₂, hy, ⟨ys', t₃, _, hys, ⟨rfl, rfl⟩, rfl⟩, rfl⟩
    exact ⟨y, t₁, ys', t₃, hy, hys, rfl, by rw [Trace.append_empty]⟩
  · rintro ⟨y, t₁, ys', t₂, hy, hys, rfl, rfl⟩
    exact ⟨y, t₁, t₂, hy, ⟨ys', t₂, .empty, hys, ⟨rfl, rfl⟩, (Trace.append_empty t₂).symm⟩, rfl⟩

/-- Each member of a list is resolved to one result. -/
theorem length_of_mapM_yields {f : α → Resolve β} {xs : List α} {ys : List β} {t : Trace}
    (h : (xs.mapM f).Yields ys t) : ys.length = xs.length := by
  induction xs generalizing ys t with
  | nil =>
    obtain ⟨rfl, -⟩ := mapM_nil_yields.mp h
    rfl
  | cons x xs ih =>
    obtain ⟨y, _, ys', _, -, hys, rfl, -⟩ := mapM_cons_yields.mp h
    rw [List.length_cons, List.length_cons, ih hys]

/-- Steps that always succeed and mention nothing bind their values in a row. -/
theorem mapM_yields_of_forall {f : α → Resolve β} {g : α → β} {bound : α → List (Slot × Value)}
    (h : ∀ x, (f x).Yields (g x) ⟨[], bound x⟩) (xs : List α) :
    (xs.mapM f).Yields (xs.map g) ⟨[], xs.flatMap bound⟩ := by
  induction xs with
  | nil => exact mapM_nil_yields.mpr ⟨rfl, rfl⟩
  | cons x xs ih => exact mapM_cons_yields.mpr ⟨g x, _, xs.map g, _, h x, ih, rfl, rfl⟩

/-- Whenever resolving succeeds, its result has a property. -/
def Ensures (x : Resolve α) (P : α → Prop) : Prop := ∀ a t, x.Yields a t → P a

namespace Ensures

variable {P Q : α → Prop} {R : β → Prop}

/-- What a run ensures, it ensures in every wider sense. -/
theorem mono {x : Resolve α} (h : x.Ensures P) (hPQ : ∀ a, P a → Q a) : x.Ensures Q :=
  fun a t ha => hPQ a (h a t ha)

/-- A step that does nothing ensures what holds of its result. -/
theorem pure {a : α} (h : P a) : (Pure.pure a : Resolve α).Ensures P := by
  intro b t hb
  obtain ⟨rfl, -⟩ := pure_yields.mp hb
  exact h

/-- What a step ensures is known to the next one. -/
theorem bind {x : Resolve α} {f : α → Resolve β} (hx : x.Ensures P)
    (hf : ∀ a, P a → (f a).Ensures R) : (x >>= f).Ensures R := by
  intro b t hb
  obtain ⟨a, t₁, t₂, ha, hb, -⟩ := bind_yields.mp hb
  exact hf a (hx a t₁ ha) b t₂ hb

/-- A failure ensures everything. -/
theorem fail {e : Error} : (Resolve.fail e : Resolve α).Ensures P :=
  fun _ _ h => absurd h fail_yields

/-- A result from outside ensures what holds of it where it is no error. -/
theorem ofExcept {x : Except Error α} (h : ∀ a, x = .ok a → P a) :
    (Resolve.ofExcept x).Ensures P :=
  fun a _ ha => h a (ofExcept_yields.mp ha).1

/-- A value that may be missing ensures what holds of it where it is there. -/
theorem ofOption {e : Error} {x : Option α} (h : ∀ a, x = some a → P a) :
    (Resolve.ofOption e x).Ensures P :=
  fun a _ ha => h a (ofOption_yields.mp ha).1

/-- A run ensures what always holds. -/
theorem trivially {x : Resolve α} : x.Ensures fun _ => True := fun _ _ _ => trivial

/-- Binding a value ensures what holds of its marker. -/
theorem bound {slot : Slot} {v : Value} {P : Piece → Prop} (h : P (.marker slot)) :
    (Resolve.bound slot v).Ensures P := by
  intro piece t hpiece
  obtain ⟨rfl, -⟩ := bound_yields.mp hpiece
  exact h

/-- Working off a list ensures of all results what it ensures of each. -/
theorem mapM {f : α → Resolve β} {xs : List α} (h : ∀ x ∈ xs, (f x).Ensures R) :
    (xs.mapM f).Ensures fun ys => ∀ y ∈ ys, R y := by
  induction xs with
  | nil =>
    rw [List.mapM_nil]
    exact pure fun _ hy => absurd hy List.not_mem_nil
  | cons x xs ih =>
    rw [List.mapM_cons]
    refine bind (h x List.mem_cons_self) fun y hy => ?_
    refine bind (ih fun x' hx' => h x' (List.mem_cons_of_mem x hx')) fun ys hys => ?_
    exact pure (List.forall_mem_cons.mpr ⟨hy, hys⟩)

end Ensures

/-- Whenever resolving succeeds, and only tokens with a property were mentioned on the way, its
result has a property. -/
def EnsuresWithin (x : Resolve α) (S : Token → Prop) (P : α → Prop) : Prop :=
  ∀ a t, x.Yields a t → (∀ token ∈ t.mentioned, S token) → P a

/-- What is ensured at all is ensured whatever is mentioned. -/
theorem Ensures.within {x : Resolve α} {P : α → Prop} (h : x.Ensures P) (S : Token → Prop) :
    x.EnsuresWithin S P :=
  fun a t ha _ => h a t ha

namespace EnsuresWithin

variable {S : Token → Prop} {P Q : α → Prop} {R : β → Prop}

/-- What is ensured whatever is mentioned is ensured at all. -/
theorem always {x : Resolve α} (h : x.EnsuresWithin (fun _ => True) P) : x.Ensures P :=
  fun a t ha => h a t ha fun _ _ => trivial

/-- The result has every wider property, too. -/
theorem mono {x : Resolve α} (h : x.EnsuresWithin S P) (hPQ : ∀ a, P a → Q a) :
    x.EnsuresWithin S Q :=
  fun a t ha ht => hPQ a (h a t ha ht)

/-- A step that does nothing ensures what holds of its result, whatever may be mentioned. -/
theorem pure {a : α} (h : P a) : (Pure.pure a : Resolve α).EnsuresWithin S P :=
  (Ensures.pure h).within S

/-- The tokens that a step mentions are among those of all steps. -/
theorem bind {x : Resolve α} {f : α → Resolve β} (hx : x.EnsuresWithin S P)
    (hf : ∀ a, P a → (f a).EnsuresWithin S R) : (x >>= f).EnsuresWithin S R := by
  intro b t hb ht
  obtain ⟨a, t₁, t₂, ha, hbehind, rfl⟩ := bind_yields.mp hb
  obtain ⟨ht₁, ht₂⟩ := List.forall_mem_append.mp ht
  exact hf a (hx a t₁ ha ht₁) b t₂ hbehind ht₂

/-- A failure has no result to ensure anything of. -/
theorem fail {e : Error} : (Resolve.fail e : Resolve α).EnsuresWithin S P := Ensures.fail.within S

/-- A result from outside mentions nothing, so the condition does not matter. -/
theorem ofExcept {x : Except Error α} (h : ∀ a, x = .ok a → P a) :
    (Resolve.ofExcept x).EnsuresWithin S P :=
  (Ensures.ofExcept h).within S

/-- What always holds is ensured under every condition on mentions. -/
theorem trivially {x : Resolve α} : x.EnsuresWithin S fun _ => True :=
  Ensures.trivially.within S

/-- A token that is mentioned is one of those that may be. -/
theorem mention {token : Token} : (Resolve.mention token).EnsuresWithin S fun _ => S token := by
  intro a t ha ht
  obtain rfl := mention_yields.mp ha
  exact ht token List.mem_cons_self

/-- A value that is bound mentions nothing, either. -/
theorem bound {slot : Slot} {v : Value} {P : Piece → Prop} (h : P (.marker slot)) :
    (Resolve.bound slot v).EnsuresWithin S P :=
  (Ensures.bound h).within S

/-- Under one condition for all, working off a list ensures what each member ensures. -/
theorem mapM {f : α → Resolve β} {xs : List α} (h : ∀ x ∈ xs, (f x).EnsuresWithin S R) :
    (xs.mapM f).EnsuresWithin S fun ys => ∀ y ∈ ys, R y := by
  induction xs with
  | nil =>
    rw [List.mapM_nil]
    exact pure fun _ hy => absurd hy List.not_mem_nil
  | cons x xs ih =>
    rw [List.mapM_cons]
    refine bind (h x List.mem_cons_self) fun y hy => ?_
    refine bind (ih fun x' hx' => h x' (List.mem_cons_of_mem x hx')) fun ys hys => ?_
    exact pure (List.forall_mem_cons.mpr ⟨hy, hys⟩)

end EnsuresWithin

end Resolve

end DynamicSql
