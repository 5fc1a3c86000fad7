import DynamicSql.Proofs.Sql.Reading

/-!
# Several demands at once

Where several conditions are demanded together, those with an outer `OR` are put in parentheses.
Whether there is one is told by scanning the text; the scan finds exactly the connectors of the
formula itself, whatever its leaves hold (`hasOuterOr_line`). The text of several conditions is
therefore the text of one formula, whose value is that of all of them together.
-/

namespace DynamicSql

open Nesting

/-- The scan keeps track of literals and parentheses as reading does. -/
theorem hasOuterOr_cons {s t : Nesting} {c : Char} (h : s.read c = some t) (cs : List Char) :
    hasOuterOr s.quoted s.depth (c :: cs) =
      ((decide (c = ' ' ∧ s = outer) && startsWith "OR " cs) ||
        hasOuterOr t.quoted t.depth cs) := by
  obtain ⟨quoted, depth⟩ := s
  rw [hasOuterOr]
  -- The cases are those of `Nesting.read`: quotation marks, then literals, then parentheses.
  by_cases hquote : c = '\''
  · rw [Nesting.read, if_pos hquote] at h
    obtain rfl := Option.some.inj h
    simp [hquote]
  rw [Nesting.read, if_neg hquote] at h
  rw [if_neg hquote]
  by_cases hquoted : quoted = true
  · rw [if_pos hquoted] at h
    obtain rfl := Option.some.inj h
    simp [hquoted, outer]
  rw [if_neg hquoted] at h
  rw [if_neg hquoted]
  obtain rfl : quoted = false := by simpa using hquoted
  by_cases hopen : c = '('
  · rw [if_pos hopen] at h
    obtain rfl := Option.some.inj h
    simp [hopen]
  rw [if_neg hopen] at h
  rw [if_neg hopen]
  by_cases hclose : c = ')'
  · rw [if_pos hclose] at h
    by_cases hdepth : depth = 0
    · rw [if_pos hdepth] at h
      cases h
    · rw [if_neg hdepth] at h
      obtain rfl := Option.some.inj h
      have hcast : ((depth - 1 : Nat) : Int) = (depth : Int) - 1 := by omega
      simp [hclose, hcast]
  · rw [if_neg hclose] at h
    obtain rfl := Option.some.inj h
    rw [if_neg hclose]
    by_cases hspace : c = ' ' <;> by_cases hdepth : depth = 0 <;> simp [hspace, hdepth, outer]

/-- What the scan finds is a word behind a space. -/
theorem mem_words_of_hasOuterOr {s t : Nesting} {cs : List Char} (hread : s.readAll cs = some t)
    (h : hasOuterOr s.quoted s.depth cs = true) : Connector.or.word ∈ (words s cs).tail := by
  -- The first word is left out, since the scan asks for a space in front.
  induction cs generalizing s with
  | nil => cases h
  | cons c cs ih =>
    rw [readAll_cons, Option.bind_eq_some_iff] at hread
    obtain ⟨u, hu, hrest⟩ := hread
    have hstep : s.step c = u := by rw [step, hu]; rfl
    rw [hasOuterOr_cons hu, Bool.or_eq_true, Bool.and_eq_true, decide_eq_true_eq] at h
    rw [words]
    split
    case isTrue hspace =>
      obtain ⟨rfl, rfl⟩ := hspace
      obtain rfl : outer = u := hstep
      rw [List.tail_cons]
      obtain ⟨-, hstarts⟩ | h := h
      · obtain ⟨rest, rfl⟩ := List.isPrefixOf_iff_prefix.mp hstarts
        have hwords := words_space (b := rest) Connector.or.balanced_word
        rw [Connector.words_word] at hwords
        change _ ∈ words outer (Connector.or.word ++ ' ' :: rest)
        rw [hwords]
        exact List.mem_cons_self
      · exact List.mem_of_mem_tail (ih hrest h)
    case isFalse hspace =>
      obtain ⟨hfalse, -⟩ | h := h
      · exact absurd hfalse hspace
      · rw [List.tail_modifyHead, hstep]
        exact ih hrest h

/-- What the scan finds behind a text it finds in the whole. -/
theorem hasOuterOr_append {s t : Nesting} {a b : List Char} (hread : s.readAll a = some t)
    (h : hasOuterOr t.quoted t.depth b = true) : hasOuterOr s.quoted s.depth (a ++ b) = true := by
  induction a generalizing s with
  | nil =>
    obtain rfl := Option.some.inj hread
    exact h
  | cons c a ih =>
    rw [readAll_cons, Option.bind_eq_some_iff] at hread
    obtain ⟨u, hu, hrest⟩ := hread
    rw [List.cons_append, hasOuterOr_cons hu, ih hrest, Bool.or_true]

namespace Formula

/-- Parts stand behind their connectors list by list. -/
theorem restLine_append (a b : List (Connector × Formula (List Char))) :
    restLine (a ++ b) = restLine a ++ restLine b := by
  induction a with
  | nil => rfl
  | cons x a ih => simp only [List.cons_append, restLine, ih, List.append_assoc]

/-- The scan finds the connectors of a formula, and none inside its parts. -/
theorem hasOuterOr_line {first : Formula (List Char)}
    {rest : List (Connector × Formula (List Char))}
    (h : ∀ a ∈ (group first rest).atoms, Atomic a) :
    hasOuterOr false 0 (first.line ++ restLine rest) = rest.any (·.1 = .or) := by
  rw [atoms, List.forall_mem_append] at h
  have hfirst := (readPart_line first h.1).1
  have hrest := (readParts_line rest h.2).1
  rw [Bool.eq_iff_iff, List.any_eq_true]
  constructor
  · intro hscan
    -- What the scan finds is a word, and no word of a part is a connector.
    obtain ⟨hbalanced, hwords⟩ := words_restLine hfirst.1 hrest
    have hword := List.mem_of_mem_tail (mem_words_of_hasOuterOr hbalanced hscan)
    have hfound : ∀ {ws : List (List Char)}, (∀ w ∈ ws, connector? w = none) →
        Connector.or.word ∉ ws := fun hws hmem => by
      have hnone := hws _ hmem
      cases hnone
    rw [hwords, List.mem_append, List.mem_flatMap] at hword
    obtain hword | ⟨x, hx, hword⟩ := hword
    · exact absurd hword (hfound hfirst.2)
    · obtain heq | hword := List.mem_cons.mp hword
      · refine ⟨x, hx, ?_⟩
        have hsome := congrArg connector? heq
        rw [connector?_word, connector?_word] at hsome
        simpa using (Option.some.inj hsome).symm
      · exact absurd hword (hfound (hrest x hx).2)
  · rintro ⟨⟨k, part⟩, hx, hor⟩
    obtain rfl : k = .or := of_decide_eq_true hor
    -- In front of this connector the text is balanced, so the scan arrives outside.
    obtain ⟨front, back, rfl⟩ := List.append_of_mem hx
    have hfront := (words_restLine hfirst.1 fun x hx => hrest x (List.mem_append_left _ hx)).1
    rw [restLine_append, ← List.append_assoc, restLine]
    refine hasOuterOr_append (s := outer) hfront ?_
    have hspace : outer.read ' ' = some outer := rfl
    change hasOuterOr outer.quoted outer.depth
      (' ' :: ('O' :: 'R' :: ' ' :: (part.line ++ restLine back))) = true
    rw [hasOuterOr_cons hspace, Bool.or_eq_true]
    refine .inl ?_
    rw [Bool.and_eq_true]
    refine ⟨by decide, ?_⟩
    exact List.isPrefixOf_iff_prefix.mpr ⟨part.line ++ restLine back, rfl⟩

variable {α : Type}

/-- The parts of a formula, the first of them behind `AND`. -/
def items : Formula α → List (Connector × Formula α)
  | .atom a => [(.and, .atom a)]
  | .group first rest => (.and, first) :: rest

/-- The parts that a formula is in a conjunction: its own, unless there is an `OR` between them. -/
def spread (F : Formula α) : List (Connector × Formula α) :=
  if F.items.any (·.1 = .or) then [(.and, F)] else F.items

/-- The parts of several formulas that are demanded together. A single one keeps its parts. -/
def conjunction : List (Formula α) → List (Connector × Formula α)
  | [F] => F.items
  | Fs => Fs.flatMap spread

section Meaning

variable (ρ : α → Bool) (F : Formula α)

/-- The parts of a formula have its value by precedence. -/
theorem precedence_items : precedence (valuesOf ρ F.items) = F.value ρ := by
  cases F with
  | atom a => rfl
  | group first rest =>
    rw [value, restValues_eq]
    rfl

/-- The parts that a formula is in a conjunction stand behind `AND`. -/
theorem spread_and : ∀ x ∈ F.spread, x.1 = .and := by
  unfold spread
  split
  case isTrue => exact List.forall_mem_singleton.mpr rfl
  case isFalse h =>
    intro x hx
    cases hconnector : x.1 with
    | and => rfl
    | or => exact absurd (List.any_eq_true.mpr ⟨x, hx, by simp [hconnector]⟩) h

/-- They hold together just if the formula does. -/
theorem all_spread : (valuesOf ρ F.spread).all (·.2) = F.value ρ := by
  by_cases h : F.items.any (·.1 = .or) = true
  · rw [spread, if_pos h]
    exact Bool.and_true _
  · have hspread : F.spread = F.items := if_neg h
    have hand := spread_and F
    rw [hspread] at hand ⊢
    rw [← precedence_items ρ F, precedence_of_and]
    exact List.forall_mem_map.mpr hand

/-- Formulas that are demanded together hold together. -/
theorem precedence_conjunction (Fs : List (Formula α)) :
    precedence (valuesOf ρ (conjunction Fs)) = Fs.all (·.value ρ) := by
  have hspread : precedence (valuesOf ρ (Fs.flatMap spread)) = Fs.all (·.value ρ) := by
    rw [precedence_of_and]
    · induction Fs with
      | nil => rfl
      | cons F Fs ih =>
        rw [List.flatMap_cons, List.all_cons, ← all_spread ρ F, ← ih]
        simp only [valuesOf, List.map_append, List.all_append]
    · refine List.forall_mem_map.mpr fun x hx => ?_
      obtain ⟨F, -, hx⟩ := List.mem_flatMap.mp hx
      exact spread_and F x hx
  unfold conjunction
  split
  case h_1 F => rw [precedence_items, List.all_cons, List.all_nil, Bool.and_true]
  case h_2 => exact hspread

/-- The parts of a formula have its leaves. -/
theorem atoms_items : F.items.flatMap (·.2.atoms) = F.atoms := by
  cases F with
  | atom a => rfl
  | group first rest =>
    rw [atoms, restAtoms_eq]
    rfl

/-- So do the parts that it is in a conjunction. -/
theorem atoms_spread : F.spread.flatMap (·.2.atoms) = F.atoms := by
  unfold spread
  split
  · exact List.append_nil _
  · exact F.atoms_items

/-- The leaves of formulas that are demanded together stand in their order. -/
theorem atoms_conjunction (Fs : List (Formula α)) :
    (conjunction Fs).flatMap (·.2.atoms) = Fs.flatMap atoms := by
  unfold conjunction
  split
  case h_1 F => rw [atoms_items, List.flatMap_singleton]
  case h_2 =>
    rw [List.flatMap_assoc]
    exact congrArg (Fs.flatMap ·) (funext atoms_spread)

end Meaning

section Text

variable {root : String} (write : α → Fragment)

/-- The text of the parts is that of the formula, behind `AND`. -/
theorem restText_items (F : Formula α) :
    restText write F.items = .text Connector.and.text :: F.text write := by
  cases F with
  | atom a => exact congrArg _ (List.append_nil _)
  | group first rest => rfl

/-- The scan of the text of a formula finds the connectors between its parts. -/
theorem hasOuterOr_text {F : Formula α}
    (h : ∀ a ∈ F.atoms, Atomic ((write a).outline root)) :
    hasOuterOr false 0 ((F.text write).outline root) = F.items.any (·.1 = .or) := by
  have hline : ∀ (first : Formula α) (rest : List (Connector × Formula α)),
      (∀ a ∈ (group first rest).atoms, Atomic ((write a).outline root)) →
      hasOuterOr false 0 ((first.unit write ++ restText write rest).outline root) =
        rest.any (·.1 = .or) := by
    intro first rest h
    rw [Fragment.outline, Fragment.chars_append, chars_unit, chars_restText, hasOuterOr_line]
    · rw [mapRest_eq, List.any_map]
      rfl
    · rw [← map, atoms_map]
      exact List.forall_mem_map.mpr h
  cases F with
  | atom a =>
    have hatom := hline (.atom a) [] (by rwa [atoms, restAtoms, List.append_nil])
    rw [restText, List.append_nil] at hatom
    exact hatom
  | group first rest => exact hline first rest h

/-- A condition with an `OR` between its parts is put in parentheses, and any other one is not. -/
theorem restText_spread {F : Formula α} (h : ∀ a ∈ F.atoms, Atomic ((write a).outline root)) :
    restText write F.spread = .text Connector.and.text :: guardOr root (F.text write) := by
  rw [guardOr, hasOuterOr_text write h, spread]
  split
  case isTrue hor =>
    cases F with
    | atom a => cases hor
    | group first rest =>
      rw [restText, restText, unit, List.append_nil]
      rfl
  case isFalse => exact restText_items write F

/-- Several conditions that are demanded together have the text of the conjunction. -/
theorem restText_conjunction {Fs : List (Formula α)} (hne : Fs ≠ [])
    (hvisible : ∀ F ∈ Fs, F.text write ≠ [])
    (h : ∀ F ∈ Fs, ∀ a ∈ F.atoms, Atomic ((write a).outline root)) :
    restText write (conjunction Fs) =
      .text Connector.and.text :: combineWhere root (Fs.map (text write)) := by
  have hspread : ∀ Fs : List (Formula α),
      (∀ F ∈ Fs, ∀ a ∈ F.atoms, Atomic ((write a).outline root)) →
      restText write (Fs.flatMap spread) =
        (Fs.map (text write)).flatMap fun f => .text " AND " :: guardOr root f := by
    intro Fs h
    induction Fs with
    | nil => rfl
    | cons F Fs ih =>
      obtain ⟨hF, hFs⟩ := List.forall_mem_cons.mp h
      rw [List.flatMap_cons, restText_append, restText_spread write hF, ih hFs]
      rfl
  -- A single condition stands without parentheses around it, several ones each in their own.
  cases Fs with
  | nil => exact absurd rfl hne
  | cons F Fs =>
    obtain ⟨hF, hFs⟩ := List.forall_mem_cons.mp hvisible
    rw [List.map_cons, combineWhere_cons hF (List.forall_mem_map.mpr hFs)]
    cases Fs with
    | nil => exact restText_items write F
    | cons G Fs =>
      rw [List.map_cons, if_neg (List.cons_ne_nil _ _), ← List.map_cons]
      exact hspread (F :: G :: Fs) h

/-- Conditions that are demanded together are one formula: with their texts put together for a text,
with their leaves, and with the value that all of them have. -/
theorem exists_conjunction {Fs : List (Formula α)} (hne : Fs ≠ [])
    (hvisible : ∀ F ∈ Fs, F.text write ≠ [])
    (h : ∀ F ∈ Fs, ∀ a ∈ F.atoms, Atomic ((write a).outline root)) :
    ∃ F, ofItems? (conjunction Fs) = some F ∧
      F.text write = combineWhere root (Fs.map (text write)) ∧ F.atoms = Fs.flatMap atoms ∧
      ∀ ρ, F.value ρ = Fs.all (·.value ρ) := by
  have htext := restText_conjunction write hne hvisible h
  obtain ⟨F, hF⟩ : ∃ F, ofItems? (conjunction Fs) = some F := by
    cases hitems : conjunction Fs with
    | nil =>
      rw [hitems] at htext
      cases htext
    | cons x rest => exact ⟨_, rfl⟩
  obtain ⟨connector, hwhole⟩ := restText_eq_of_ofItems? write hF
  refine ⟨F, hF, (List.cons.inj (hwhole.symm.trans htext)).2, ?_, fun ρ => ?_⟩
  · rw [atoms_of_ofItems? hF, atoms_conjunction]
  · rw [value_of_ofItems? hF, precedence_conjunction]

end Text

end Formula

end DynamicSql
