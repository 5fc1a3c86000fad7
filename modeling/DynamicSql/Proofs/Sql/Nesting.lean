import DynamicSql.Proofs.Sql.Chars

/-!
# Literals and parentheses

What stands inside a literal or inside parentheses is told by the characters in front of it. A text
is balanced when it closes all that it opens and nothing else; balanced texts may be put one behind
the other, and into parentheses.
-/

namespace DynamicSql

/-- Where a character stands: whether inside a literal, and how many parentheses are open. -/
structure Nesting where
  quoted : Bool
  depth : Nat
deriving DecidableEq

namespace Nesting

/-- Outside literals and parentheses. -/
def outer : Nesting := ⟨false, 0⟩

/-- Read on over a character. Parentheses inside a literal are characters like any other. There is
no reading on over a parenthesis that closes nothing. -/
def read (s : Nesting) (c : Char) : Option Nesting :=
  if c = '\'' then some ⟨!s.quoted, s.depth⟩
  else if s.quoted then some s
  else if c = '(' then some ⟨false, s.depth + 1⟩
  else if c = ')' then if s.depth = 0 then none else some ⟨false, s.depth - 1⟩
  else some s

/-- Read on over several characters. -/
def readAll (s : Nesting) (cs : List Char) : Option Nesting := cs.foldlM read s

/-- A text that is balanced where it stands. -/
def Keeps (s : Nesting) (cs : List Char) : Prop := s.readAll cs = some s

instance (s : Nesting) (cs : List Char) : Decidable (s.Keeps cs) :=
  inferInstanceAs (Decidable (_ = _))

variable {s t u : Nesting} {a b : List Char}

/-- No characters leave the reading where it is. -/
@[simp] theorem readAll_nil : s.readAll [] = some s := rfl

/-- The first character is read before the others. -/
theorem readAll_cons {c : Char} : s.readAll (c :: a) = (s.read c).bind (·.readAll a) :=
  List.foldlM_cons

/-- Texts are read one after the other. -/
theorem readAll_append : s.readAll (a ++ b) = (s.readAll a).bind (·.readAll b) :=
  List.foldlM_append

/-- No characters leave the nesting as it is. -/
theorem Keeps.nil : s.Keeps [] := rfl

/-- Texts that leave the nesting as it is do so together. -/
theorem Keeps.append (ha : s.Keeps a) (hb : s.Keeps b) : s.Keeps (a ++ b) := by
  rw [Keeps, readAll_append, ha]
  exact hb

/-- A character that opens and closes nothing. -/
def Inert (c : Char) : Prop := c ≠ '\'' ∧ c ≠ '(' ∧ c ≠ ')'

instance : DecidablePred Inert := fun _ => inferInstanceAs (Decidable (_ ∧ _))

/-- What opens and closes nothing leaves the nesting as it is. -/
theorem read_of_inert {c : Char} (h : Inert c) : s.read c = some s := by
  obtain ⟨hquote, hopen, hclose⟩ := h
  rw [read, if_neg hquote, if_neg hopen, if_neg hclose, ite_self]

/-- Characters that open and close nothing are balanced everywhere. -/
theorem keeps_of_inert (h : ∀ c ∈ a, Inert c) : s.Keeps a := by
  induction a with
  | nil => rfl
  | cons c a ih =>
    obtain ⟨hc, ha⟩ := List.forall_mem_cons.mp h
    rw [Keeps, readAll_cons, read_of_inert hc]
    exact ih ha

/-- Letters and digits open and close nothing. -/
theorem inert_of_isAlphanum {c : Char} (h : c.isAlphanum) : Inert c := by
  refine ⟨?_, ?_, ?_⟩ <;> rintro rfl <;> exact absurd h (by decide)

/-- A text without parentheses is read from everywhere. All that it can change is whether what
follows stands inside a literal. -/
theorem readAll_of_no_parens (h : ∀ c ∈ a, c ≠ '(' ∧ c ≠ ')') :
    ∃ flip, ∀ s : Nesting, s.readAll a = some ⟨s.quoted ^^ flip, s.depth⟩ := by
  induction a with
  | nil => exact ⟨false, fun s => by rw [Bool.xor_false]; rfl⟩
  | cons c a ih =>
    obtain ⟨⟨hopen, hclose⟩, ha⟩ := List.forall_mem_cons.mp h
    obtain ⟨flip, hflip⟩ := ih ha
    by_cases hquote : c = '\''
    · refine ⟨!flip, fun s => ?_⟩
      rw [readAll_cons, read, if_pos hquote, Option.bind_some, hflip, Bool.not_xor, Bool.xor_not]
    · refine ⟨flip, fun s => ?_⟩
      rw [readAll_cons, read_of_inert ⟨hquote, hopen, hclose⟩, Option.bind_some, hflip]

/-- Where more parentheses are open, a character that can be read is read the same way. -/
theorem read_deepen {c : Char} (k : Nat) (h : s.read c = some t) :
    (⟨s.quoted, s.depth + k⟩ : Nesting).read c = some ⟨t.quoted, t.depth + k⟩ := by
  -- The cases are those of reading one character.
  by_cases hquote : c = '\''
  · rw [read, if_pos hquote] at h ⊢
    obtain rfl := Option.some.inj h
    rfl
  rw [read, if_neg hquote] at h ⊢
  by_cases hquoted : s.quoted = true
  · rw [if_pos hquoted] at h ⊢
    obtain rfl := Option.some.inj h
    rfl
  rw [if_neg hquoted] at h ⊢
  by_cases hopen : c = '('
  · rw [if_pos hopen] at h ⊢
    obtain rfl := Option.some.inj h
    exact congrArg (fun d => some (Nesting.mk false d)) (Nat.add_right_comm s.depth k 1)
  rw [if_neg hopen] at h ⊢
  by_cases hclose : c = ')'
  · rw [if_pos hclose] at h ⊢
    by_cases hdepth : s.depth = 0
    · rw [if_pos hdepth] at h
      cases h
    · rw [if_neg hdepth] at h
      obtain rfl := Option.some.inj h
      rw [if_neg (by dsimp only; omega)]
      exact congrArg (fun d => some (Nesting.mk false d)) (by dsimp only; omega)
  · rw [if_neg hclose] at h ⊢
    obtain rfl := Option.some.inj h
    rfl

/-- Where more parentheses are open, a text that can be read is read the same way. -/
theorem readAll_deepen (k : Nat) (h : s.readAll a = some t) :
    (⟨s.quoted, s.depth + k⟩ : Nesting).readAll a = some ⟨t.quoted, t.depth + k⟩ := by
  induction a generalizing s with
  | nil =>
    obtain rfl := Option.some.inj h
    rfl
  | cons c a ih =>
    rw [readAll_cons, Option.bind_eq_some_iff] at h
    obtain ⟨u, hu, hrest⟩ := h
    rw [readAll_cons, read_deepen k hu]
    exact ih hrest

/-- What leaves the nesting as it is does so with more parentheses open, too. -/
theorem Keeps.deepen (k : Nat) (h : s.Keeps a) : Keeps ⟨s.quoted, s.depth + k⟩ a :=
  readAll_deepen k h

end Nesting

/-- A text that closes all that it opens and nothing else. -/
def Balanced (cs : List Char) : Prop := Nesting.outer.Keeps cs

namespace Balanced

open Nesting

instance : DecidablePred Balanced := fun cs => inferInstanceAs (Decidable (outer.Keeps cs))

variable {a b : List Char}

/-- An empty text is balanced. -/
theorem nil : Balanced [] := Keeps.nil

/-- Balanced texts are balanced together. -/
theorem append (ha : Balanced a) (hb : Balanced b) : Balanced (a ++ b) := Keeps.append ha hb

/-- Outside literals, a balanced text is balanced at any depth. -/
theorem keeps (h : Balanced a) (d : Nat) : Keeps ⟨false, d⟩ a := by
  simpa [outer] using Keeps.deepen d h

/-- Without parentheses, a balanced text is balanced inside literals, too. -/
theorem keeps_of_no_parens (h : Balanced a) (hparens : ∀ c ∈ a, c ≠ '(' ∧ c ≠ ')')
    (s : Nesting) : s.Keeps a := by
  obtain ⟨flip, hflip⟩ := readAll_of_no_parens hparens
  have hread := (hflip outer).symm.trans h
  obtain rfl : flip = false := by simpa [outer] using hread
  rw [Keeps, hflip, Bool.xor_false]

/-- What is balanced may be put into parentheses. -/
theorem parens (h : Balanced a) : Balanced ('(' :: a ++ [')']) := by
  have hopen : outer.read '(' = some ⟨false, 1⟩ := rfl
  rw [Balanced, Keeps, List.cons_append, readAll_cons, hopen]
  change Nesting.readAll ⟨false, 1⟩ (a ++ [')']) = _
  rw [readAll_append, h.keeps 1]
  rfl

/-- A text that opens and closes nothing is balanced. -/
theorem of_inert (h : ∀ c ∈ a, Inert c) : Balanced a := keeps_of_inert h

/-- What opens and closes nothing may be dropped at the front. -/
theorem of_inert_append (ha : ∀ c ∈ a, Inert c) (h : Balanced (a ++ b)) : Balanced b := by
  rw [Balanced, Keeps, readAll_append, keeps_of_inert ha] at h
  exact h

end Balanced

open Nesting in
/-- Doubled quotation marks do not end a literal. -/
theorem keeps_doubleQuotes (s : String) (d : Nat) :
    Keeps ⟨true, d⟩ (doubleQuotes s).toList := by
  rw [doubleQuotes, String.toList_ofList]
  induction s.toList with
  | nil => rfl
  | cons c cs ih =>
    have hc : Keeps ⟨true, d⟩ (if c = '\'' then ['\'', '\''] else [c]) := by
      split
      case isTrue => rfl
      case isFalse h => simp [Keeps, readAll_cons, Nesting.read, h]
    rw [List.flatMap_cons]
    exact hc.append ih

open Nesting in
/-- A pattern of dates stands inside its literal, whatever it is. -/
theorem balanced_literal (s : String) : Balanced (",'" ++ doubleQuotes s ++ "'").toList := by
  have hopen : outer.readAll [',', '\''] = some ⟨true, 0⟩ := rfl
  rw [String.toList_append, String.toList_append, Balanced, Keeps, readAll_append, readAll_append]
  change (((outer.readAll [',', '\'']).bind fun t => t.readAll _).bind _) = _
  rw [hopen, Option.bind_some, keeps_doubleQuotes s 0]
  rfl

end DynamicSql
