import DynamicSql.Proofs.Sql.Nesting

/-!
# The words of a condition

A condition is cut at the spaces that stand outside literals and parentheses. `AND` and `OR` are
connectors where they are words of their own, whatever the case of their letters; in names and
expressions from outside they may not occur, neither alone nor between signs.
-/

namespace DynamicSql

open Nesting

/-- Where the next character stands. A parenthesis that closes nothing changes nothing. -/
def Nesting.step (s : Nesting) (c : Char) : Nesting := (s.read c).getD s

/-- Cut a text at the spaces outside literals and parentheses. -/
def words (s : Nesting) : List Char → List (List Char)
  | [] => [[]]
  | c :: cs =>
    if c = ' ' ∧ s = outer then [] :: words s cs else (words (s.step c) cs).modifyHead (c :: ·)

/-- The connector that a word is, if it is one. -/
def connector? (w : List Char) : Option Connector :=
  if w.map Char.toUpper = ['A', 'N', 'D'] then some .and
  else if w.map Char.toUpper = ['O', 'R'] then some .or
  else none

/-- Characters that make up names without quotation marks around them. -/
def isWordChar (c : Char) : Bool := c.isAlphanum || c == '_' || c == '$' || 0x7F < c.toNat

/-- The longest runs of word characters in a text, and empty runs between other characters. -/
def runs (cs : List Char) : List (List Char) := cs.splitOnP (!isWordChar ·)

/-- A sign keeps runs apart. -/
theorem runs_sign {c : Char} (hc : isWordChar c = false) (a b : List Char) :
    runs (a ++ c :: b) = runs a ++ runs b :=
  List.splitOnP_append_cons a b (by rw [hc]; rfl)

/-- What is done to the first of several parts leaves further ones alone. -/
theorem modifyHead_append {α : Type} {xs : List α} (h : xs ≠ []) (f : α → α) (ys : List α) :
    (xs ++ ys).modifyHead f = xs.modifyHead f ++ ys := by
  cases xs with
  | nil => exact absurd rfl h
  | cons x xs => rfl

section Words

variable {s t : Nesting} {a b : List Char}

/-- A text has a word at least, be it empty. -/
theorem words_ne_nil (s : Nesting) (cs : List Char) : words s cs ≠ [] := by
  induction cs generalizing s with
  | nil => exact List.cons_ne_nil _ _
  | cons c cs ih =>
    rw [words]
    split
    · exact List.cons_ne_nil _ _
    · rw [ne_eq, List.modifyHead_eq_nil_iff]
      exact ih _

/-- Reading on follows the nesting step by step. -/
theorem Nesting.readAll_cons_eq_some {c : Char} (h : s.readAll (c :: a) = some t) :
    (s.step c).readAll a = some t := by
  rw [readAll_cons, Option.bind_eq_some_iff] at h
  obtain ⟨u, hu, hrest⟩ := h
  rw [step, hu]
  exact hrest

/-- A space outside literals and parentheses separates words. -/
theorem words_space (h : s.readAll a = some outer) :
    words s (a ++ ' ' :: b) = words s a ++ words outer b := by
  induction a generalizing s with
  | nil =>
    obtain rfl := Option.some.inj h
    rfl
  | cons c a ih =>
    have ih := ih (readAll_cons_eq_some h)
    rw [List.cons_append, words, words]
    split
    case isTrue hspace =>
      obtain ⟨rfl, rfl⟩ := hspace
      have hstep : outer.step ' ' = outer := rfl
      rw [hstep] at ih
      rw [ih, List.cons_append]
    case isFalse =>
      rw [ih, modifyHead_append (words_ne_nil _ _)]

/-- Inside parentheses, nothing is cut. -/
theorem words_inside (h : s.readAll a = some t) :
    words ⟨s.quoted, s.depth + 1⟩ (a ++ b) =
      (words ⟨t.quoted, t.depth + 1⟩ b).modifyHead (a ++ ·) := by
  induction a generalizing s with
  | nil =>
    obtain rfl := Option.some.inj h
    exact (congrFun List.modifyHead_id _).symm
  | cons c a ih =>
    rw [readAll_cons, Option.bind_eq_some_iff] at h
    obtain ⟨u, hu, hrest⟩ := h
    have hstep : (⟨s.quoted, s.depth + 1⟩ : Nesting).step c = ⟨u.quoted, u.depth + 1⟩ := by
      rw [step, read_deepen 1 hu]
      rfl
    -- Below a parenthesis no space is outside, so nothing is cut.
    have hinside : ¬(c = ' ' ∧ (⟨s.quoted, s.depth + 1⟩ : Nesting) = outer) := by
      rintro ⟨-, heq⟩
      exact absurd (congrArg depth heq) (Nat.succ_ne_zero _)
    rw [List.cons_append, words, if_neg hinside, hstep, ih hrest, List.modifyHead_modifyHead]
    rfl

/-- A text in parentheses is not cut. -/
theorem words_parens (h : Balanced a) :
    words outer ('(' :: a ++ ')' :: b) = (words outer b).modifyHead ('(' :: a ++ [')'] ++ ·) := by
  have hopen : outer.step '(' = ⟨false, 0 + 1⟩ := rfl
  have hclose : (⟨false, 0 + 1⟩ : Nesting).step ')' = outer := rfl
  rw [List.cons_append, words, if_neg (by decide), hopen]
  change (words ⟨outer.quoted, outer.depth + 1⟩ (a ++ ')' :: b)).modifyHead _ = _
  rw [words_inside h, words, if_neg (by decide)]
  change (List.modifyHead _ (List.modifyHead _ (words outer b))).modifyHead _ = _
  rw [List.modifyHead_modifyHead, List.modifyHead_modifyHead]
  congr 1
  funext w
  simp

/-- Characters that open and close nothing and are no spaces are not cut. -/
theorem words_solid (h : ∀ c ∈ a, Inert c ∧ c ≠ ' ') :
    words outer (a ++ b) = (words outer b).modifyHead (a ++ ·) := by
  induction a with
  | nil => exact (congrFun List.modifyHead_id _).symm
  | cons c a ih =>
    obtain ⟨⟨hinert, hspace⟩, ha⟩ := List.forall_mem_cons.mp h
    have hstep : outer.step c = outer := by
      rw [step, read_of_inert hinert]
      rfl
    rw [List.cons_append, words, if_neg (fun h => hspace h.1), hstep, ih ha,
      List.modifyHead_modifyHead]
    rfl

/-- The words with spaces between them are the text. -/
theorem intercalate_words (s : Nesting) (cs : List Char) :
    [' '].intercalate (words s cs) = cs := by
  have hcons : ∀ (w : List Char) (ws : List (List Char)), ws ≠ [] →
      [' '].intercalate (w :: ws) = w ++ ' ' :: [' '].intercalate ws := by
    intro w ws hws
    obtain ⟨v, vs, rfl⟩ := List.exists_cons_of_ne_nil hws
    rw [List.intercalate_cons_cons]
    simp
  induction cs generalizing s with
  | nil => rfl
  | cons c cs ih =>
    rw [words]
    split
    case isTrue hspace => rw [hcons _ _ (words_ne_nil _ _), ih, hspace.1, List.nil_append]
    case isFalse =>
      obtain ⟨w, ws, hws⟩ := List.exists_cons_of_ne_nil (words_ne_nil (s.step c) cs)
      have ih := ih (s.step c)
      rw [hws] at ih ⊢
      rw [List.modifyHead_cons]
      cases ws with
      | nil => simpa using congrArg (c :: ·) ih
      | cons v vs =>
        rw [hcons _ _ (List.cons_ne_nil v vs)] at ih ⊢
        rw [List.cons_append, ih]

/-- A word made up of word characters is a run. The first word is told apart from the others, since
it grows at its front while the text is read backwards. -/
theorem words_runs (s : Nesting) (cs : List Char) :
    ∃ w ws r rs, words s cs = w :: ws ∧ runs cs = r :: rs ∧
      ((∀ c ∈ w, isWordChar c) → w = r) ∧ ∀ v ∈ ws, (∀ c ∈ v, isWordChar c) → v ∈ rs := by
  -- Both cut at spaces. Runs are cut further, so the first word is a run only if it has no sign in
  -- it.
  induction cs generalizing s with
  | nil => exact ⟨[], [], [], [], rfl, rfl, fun _ => rfl, List.forall_mem_nil _⟩
  | cons c cs ih =>
    rw [words, runs, List.splitOnP_cons_eq_if_modifyHead]
    split
    case isTrue hspace =>
      obtain ⟨w, ws, r, rs, hwords, hruns, hhead, htail⟩ := ih s
      obtain ⟨rfl, rfl⟩ := hspace
      refine ⟨[], w :: ws, [], r :: rs, by rw [hwords], ?_, fun _ => rfl, ?_⟩
      · rw [if_pos (by decide)]
        exact congrArg _ hruns
      · refine List.forall_mem_cons.mpr ⟨fun hw => ?_, fun v hv hword => ?_⟩
        · exact hhead hw ▸ List.mem_cons_self
        · exact List.mem_cons_of_mem r (htail v hv hword)
    case isFalse =>
      obtain ⟨w, ws, r, rs, hwords, hruns, hhead, htail⟩ := ih (s.step c)
      rw [runs] at hruns
      rw [hwords, hruns, List.modifyHead_cons]
      by_cases hc : isWordChar c = true
      · refine ⟨c :: w, ws, c :: r, rs, rfl, by simp [hc], fun hw => ?_, htail⟩
        rw [hhead (List.forall_mem_cons.mp hw).2]
      · refine ⟨c :: w, ws, [], r :: rs, rfl, by simp [hc], fun hw => ?_, fun v hv hword => ?_⟩
        · exact absurd (List.forall_mem_cons.mp hw).1 hc
        · exact List.mem_cons_of_mem r (htail v hv hword)

/-- A word of word characters is a run of the text, too. -/
theorem mem_runs_of_mem_words {w cs : List Char} (h : w ∈ words s cs)
    (hw : ∀ c ∈ w, isWordChar c) : w ∈ runs cs := by
  obtain ⟨v, vs, r, rs, hwords, hruns, hhead, htail⟩ := words_runs s cs
  rw [hwords] at h
  rw [hruns]
  obtain rfl | h := List.mem_cons.mp h
  · exact hhead hw ▸ List.mem_cons_self
  · exact List.mem_cons_of_mem r (htail w h hw)

end Words

/-- The small letters and the capital letters have the same capital letters. -/
theorem isWordChar_of_toUpper {c : Char} (h : isWordChar c.toUpper) : isWordChar c := by
  by_cases hlower : c.isLower
  · have halpha : c.isAlphanum = (c.isUpper || c.isLower || c.isDigit) := rfl
    simp [isWordChar, halpha, hlower]
  · have hupper : c.toUpper = c := by
      unfold Char.toUpper
      exact dif_neg fun hrange => hlower (Bool.and_eq_true_iff.mpr
        ⟨decide_eq_true hrange.1, decide_eq_true hrange.2⟩)
    rwa [hupper] at h

/-- Connectors are made up of letters. -/
theorem isWordChar_of_connector? {w : List Char} {k : Connector} (h : connector? w = some k) :
    ∀ c ∈ w, isWordChar c := by
  have hletters : ∀ u : List Char, u = ['A', 'N', 'D'] ∨ u = ['O', 'R'] →
      u.all isWordChar := by
    rintro u (rfl | rfl) <;> rfl
  intro c hc
  refine isWordChar_of_toUpper
    (List.all_eq_true.mp (hletters (w.map Char.toUpper) ?_) _ (List.mem_map_of_mem hc))
  unfold connector? at h
  split at h
  case isTrue hand => exact .inl hand
  case isFalse =>
    split at h
    case isTrue hor => exact .inr hor
    case isFalse => cases h

/-- A word with a sign in it is no connector. -/
theorem connector?_eq_none {w : List Char} {c : Char} (hc : c ∈ w) (hsign : isWordChar c = false) :
    connector? w = none := by
  cases h : connector? w with
  | none => rfl
  | some k => exact absurd (isWordChar_of_connector? h c hc) (by simp [hsign])

/-- A text of its own accord: balanced, and without connectors among its runs. -/
def Plain (cs : List Char) : Prop := Balanced cs ∧ ∀ w ∈ runs cs, connector? w = none

instance : DecidablePred Plain := fun cs =>
  inferInstanceAs (Decidable (Balanced cs ∧ ∀ w ∈ runs cs, connector? w = none))

/-- A balanced text without connectors among its words. -/
def Quiet (cs : List Char) : Prop := Balanced cs ∧ ∀ w ∈ words outer cs, connector? w = none

instance : DecidablePred Quiet := fun cs =>
  inferInstanceAs (Decidable (Balanced cs ∧ ∀ w ∈ words outer cs, connector? w = none))

namespace Plain

variable {a b : List Char}

/-- A plain text is quiet. -/
theorem quiet (h : Plain a) : Quiet a := by
  refine ⟨h.1, fun w hw => ?_⟩
  cases hconnector : connector? w with
  | none => rfl
  | some k =>
    have hrun := mem_runs_of_mem_words hw (isWordChar_of_connector? hconnector)
    rw [h.2 w hrun] at hconnector
    cases hconnector

/-- A sign keeps plain texts apart. -/
theorem sign {c : Char} (ha : Plain a) (hb : Plain b) (hc : Inert c ∧ isWordChar c = false) :
    Plain (a ++ c :: b) := by
  refine ⟨ha.1.append (?_ : Balanced ([c] ++ b)), ?_⟩
  · exact (Balanced.of_inert (List.forall_mem_singleton.mpr hc.1)).append hb.1
  · rw [runs_sign hc.2]
    exact List.forall_mem_append.mpr ⟨ha.2, hb.2⟩

/-- The empty text is plain. -/
theorem nil : Plain [] := by decide

/-- A single run is plain unless it is a connector. -/
theorem of_word (h : ∀ c ∈ a, isWordChar c) (hinert : ∀ c ∈ a, Inert c)
    (hconnector : connector? a = none) : Plain a := by
  refine ⟨.of_inert hinert, ?_⟩
  rw [runs, List.splitOnP_eq_singleton (by simpa using h)]
  exact List.forall_mem_singleton.mpr hconnector

end Plain

namespace Quiet

variable {a b : List Char}

/-- Quiet texts with a space between them are quiet. -/
theorem space (ha : Quiet a) (hb : Quiet b) : Quiet (a ++ ' ' :: b) := by
  refine ⟨ha.1.append (?_ : Balanced ([' '] ++ b)), ?_⟩
  · exact (by decide : Balanced [' ']).append hb.1
  · rw [words_space ha.1]
    exact List.forall_mem_append.mpr ⟨ha.2, hb.2⟩

/-- A function applied to a balanced text is a single word. -/
theorem call (function : List Char) (hsolid : function.all fun c => decide (Inert c ∧ c ≠ ' '))
    (ha : Balanced a) : Quiet (function ++ '(' :: a ++ [')']) := by
  have hfunction : ∀ c ∈ function, Inert c ∧ c ≠ ' ' :=
    fun c hc => of_decide_eq_true (List.all_eq_true.mp hsolid c hc)
  refine ⟨?_, ?_⟩
  · rw [List.append_assoc]
    exact (Balanced.of_inert fun c hc => (hfunction c hc).1).append ha.parens
  · rw [List.append_assoc, words_solid hfunction, words_parens ha]
    refine List.forall_mem_singleton.mpr (connector?_eq_none (c := '(') ?_ (by decide))
    simp

/-- In parentheses, a balanced text is quiet. -/
theorem parens (ha : Balanced a) : Quiet ('(' :: a ++ [')']) := call [] rfl ha

end Quiet

/-- A text of several quiet words. -/
def Atomic (cs : List Char) : Prop := ∃ a b, cs = a ++ ' ' :: b ∧ Quiet a ∧ Quiet b

namespace Atomic

variable {cs : List Char}

/-- A text of several quiet words is quiet. -/
theorem quiet (h : Atomic cs) : Quiet cs := by
  obtain ⟨a, b, rfl, ha, hb⟩ := h
  exact ha.space hb

/-- A text of several words is no single word. -/
theorem ne_singleton (h : Atomic cs) (w : List Char) : words outer cs ≠ [w] := by
  obtain ⟨a, b, rfl, ha, -⟩ := h
  rw [words_space ha.1]
  intro heq
  have hlength := congrArg List.length heq
  have hleft := List.length_pos_iff.mpr (words_ne_nil outer a)
  have hright := List.length_pos_iff.mpr (words_ne_nil outer b)
  rw [List.length_append, List.length_singleton] at hlength
  omega

end Atomic

end DynamicSql
