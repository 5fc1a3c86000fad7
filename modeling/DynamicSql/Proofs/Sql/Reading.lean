import DynamicSql.Proofs.Sql.Formula
import DynamicSql.Proofs.Sql.Words

/-!
# Reading conditions

A condition is read the way SQL reads it: the words between connectors are its parts, a part that
is a single word in parentheses is read in turn, and every other part is an atom. A formula whose
atoms are texts of several quiet words is read back from its text (`readCondition_line`).
-/

namespace DynamicSql

open Nesting

/-- Cut words at connectors. -/
def cutAtConnectors : List (List Char) → List (List Char) × List (Connector × List (List Char))
  | [] => ([], [])
  | w :: ws =>
    match connector? w with
    | some k => ([], (k, (cutAtConnectors ws).1) :: (cutAtConnectors ws).2)
    | none => (w :: (cutAtConnectors ws).1, (cutAtConnectors ws).2)

/-- What stands between the parentheses, if a part is a single word in parentheses. -/
def inner? : List (List Char) → Option (List Char)
  | ['(' :: rest] =>
    if rest.getLast? = some ')' ∧ Balanced rest.dropLast then some rest.dropLast else none
  | _ => none

/-- The number of characters in words. -/
def charCount (ws : List (List Char)) : Nat := ws.flatten.length

/-- The characters of the first word count along with the others. -/
@[simp] theorem charCount_cons (w : List Char) (ws : List (List Char)) :
    charCount (w :: ws) = w.length + charCount ws := by
  rw [charCount, List.flatten_cons, List.length_append, charCount]

/-- Cutting a text into words adds no characters. -/
theorem charCount_words (s : Nesting) (cs : List Char) : charCount (words s cs) ≤ cs.length := by
  induction cs generalizing s with
  | nil => exact Nat.le_refl _
  | cons c cs ih =>
    have ih' := ih (s.step c)
    rw [words, List.length_cons]
    split
    · rw [charCount_cons, List.length_nil]
      have ih := ih s
      omega
    · obtain ⟨w, ws, hws⟩ := List.exists_cons_of_ne_nil (words_ne_nil (s.step c) cs)
      rw [hws] at ih' ⊢
      rw [List.modifyHead_cons, charCount_cons, List.length_cons]
      rw [charCount_cons] at ih'
      omega

/-- Parts between connectors have no more characters than all words together. -/
theorem charCount_cut (ws : List (List Char)) :
    charCount (cutAtConnectors ws).1 ≤ charCount ws ∧
      ∀ x ∈ (cutAtConnectors ws).2, charCount x.2 ≤ charCount ws := by
  induction ws with
  | nil => exact ⟨Nat.le_refl _, List.forall_mem_nil _⟩
  | cons w ws ih =>
    obtain ⟨hfirst, hrest⟩ := ih
    rw [cutAtConnectors, charCount_cons]
    split
    · refine ⟨Nat.zero_le _, List.forall_mem_cons.mpr ⟨?_, fun x hx => ?_⟩⟩
      · exact Nat.le_trans hfirst (Nat.le_add_left _ _)
      · exact Nat.le_trans (hrest x hx) (Nat.le_add_left _ _)
    · refine ⟨?_, fun x hx => Nat.le_trans (hrest x hx) (Nat.le_add_left _ _)⟩
      rw [charCount_cons]
      omega

/-- What is read in parentheses is a single word with parentheses around it. -/
theorem inner?_eq_some {ws : List (List Char)} {inner : List Char} (h : inner? ws = some inner) :
    ws = ['(' :: inner ++ [')']] := by
  unfold inner? at h
  split at h
  case h_1 rest =>
    split at h
    case isTrue hrest =>
      obtain rfl := Option.some.inj h
      have hne : rest ≠ [] := by
        rintro rfl
        cases hrest.1
      have hlast := List.getLast?_eq_some_getLast hne ▸ hrest.1
      rw [List.cons_append, ← Option.some.inj hlast, List.dropLast_concat_getLast]
    case isFalse => cases h
  case h_2 => cases h

mutual

/-- Read a condition. -/
def readCondition (cs : List Char) : Formula (List Char) :=
  .group (readPart (cutAtConnectors (words outer cs)).1)
    ((cutAtConnectors (words outer cs)).2.attach.map fun x => (x.1.1, readPart x.1.2))
termination_by (cs.length, 1)
decreasing_by
  · have hcount := Nat.le_trans (charCount_cut (words outer cs)).1 (charCount_words outer cs)
    rw [Prod.lex_def]
    omega
  · have hcut := (charCount_cut (words outer cs)).2 _ x.2
    have hcount := Nat.le_trans hcut (charCount_words outer cs)
    rw [Prod.lex_def]
    omega

/-- Read what stands between connectors. -/
def readPart (ws : List (List Char)) : Formula (List Char) :=
  match _ : inner? ws with
  | some inner => readCondition inner
  | none => .atom ([' '].intercalate ws)
termination_by (charCount ws, 0)
decreasing_by
  rename_i h
  have hcount : charCount ws = inner.length + 2 := by
    rw [inner?_eq_some h]
    simp [charCount]
  rw [Prod.lex_def]
  omega

end

/-- A condition is read part by part. -/
theorem readCondition_eq (cs : List Char) :
    readCondition cs = .group (readPart (cutAtConnectors (words outer cs)).1)
      ((cutAtConnectors (words outer cs)).2.map fun x => (x.1, readPart x.2)) := by
  rw [readCondition]
  congr 1
  exact List.attach_map_val (f := fun x : Connector × List (List Char) => (x.1, readPart x.2))

/-- A part that is no single word in parentheses is an atom. -/
theorem readPart_of_inner? {ws : List (List Char)} (h : inner? ws = none) :
    readPart ws = .atom ([' '].intercalate ws) := by
  rw [readPart]
  split
  case h_1 hsome =>
    rw [h] at hsome
    cases hsome
  case h_2 => rfl

/-- The word that a connector is. -/
def Connector.word : Connector → List Char
  | and => ['A', 'N', 'D']
  | or => ['O', 'R']

/-- A connector is written between spaces. -/
theorem Connector.text_toList (k : Connector) : k.text.toList = ' ' :: k.word ++ [' '] := by
  cases k <;> rfl

/-- The word of a connector is read as this connector. -/
@[simp] theorem connector?_word (k : Connector) : connector? k.word = some k := by
  cases k <;> rfl

/-- The words of connectors are balanced. -/
theorem Connector.balanced_word (k : Connector) : Balanced k.word := by cases k <;> decide

/-- The word of a connector is a single word. -/
theorem Connector.words_word (k : Connector) : words outer k.word = [k.word] := by
  cases k <;> decide

/-- Words that are no connectors are not cut. -/
theorem cutAtConnectors_append {ws : List (List Char)} (h : ∀ w ∈ ws, connector? w = none)
    (vs : List (List Char)) :
    cutAtConnectors (ws ++ vs) = (ws ++ (cutAtConnectors vs).1, (cutAtConnectors vs).2) := by
  induction ws with
  | nil => rfl
  | cons w ws ih =>
    obtain ⟨hw, hws⟩ := List.forall_mem_cons.mp h
    rw [List.cons_append, cutAtConnectors, hw, ih hws]
    rfl

/-- Parts without connectors, joined by connectors, are cut apart again. -/
theorem cutAtConnectors_flatMap {α : Type} {ws : List (List Char)}
    (hws : ∀ w ∈ ws, connector? w = none) (parts : α → List (List Char))
    {rest : List (Connector × α)} (hrest : ∀ x ∈ rest, ∀ w ∈ parts x.2, connector? w = none) :
    cutAtConnectors (ws ++ rest.flatMap fun x => x.1.word :: parts x.2) =
      (ws, rest.map fun x => (x.1, parts x.2)) := by
  induction rest generalizing ws with
  | nil =>
    rw [List.flatMap_nil, cutAtConnectors_append hws]
    exact congrArg (·, []) (List.append_nil ws)
  | cons x rest ih =>
    obtain ⟨hx, hrest⟩ := List.forall_mem_cons.mp hrest
    rw [List.flatMap_cons, cutAtConnectors_append hws, List.cons_append, cutAtConnectors,
      connector?_word, ih hx hrest]
    exact congrArg (·, _) (List.append_nil ws)

namespace Formula

mutual

/-- The text of a formula as a part of another one, where its atoms are texts. -/
def line : Formula (List Char) → List Char
  | .atom a => a
  | .group first rest => '(' :: (first.line ++ restLine rest) ++ [')']

/-- The text of parts behind their connectors. -/
def restLine : List (Connector × Formula (List Char)) → List Char
  | [] => []
  | (k, part) :: rest => k.text.toList ++ part.line ++ restLine rest

end

/-- Behind a balanced text, quiet parts and their connectors are words of their own. -/
theorem words_restLine {a : List Char} (ha : Balanced a)
    {rest : List (Connector × Formula (List Char))} (hrest : ∀ x ∈ rest, Quiet x.2.line) :
    Balanced (a ++ restLine rest) ∧ words outer (a ++ restLine rest) =
      words outer a ++ rest.flatMap fun x => x.1.word :: words outer x.2.line := by
  -- What stands in front grows by a connector and a part, and stays balanced.
  induction rest generalizing a with
  | nil =>
    rw [restLine, List.flatMap_nil, List.append_nil, List.append_nil]
    exact ⟨ha, rfl⟩
  | cons x rest ih =>
    obtain ⟨k, part⟩ := x
    obtain ⟨hpart, hrest⟩ := List.forall_mem_cons.mp hrest
    obtain ⟨hbalanced, hwords⟩ := ih hpart.1 hrest
    have hline : a ++ restLine ((k, part) :: rest) =
        a ++ ' ' :: (k.word ++ ' ' :: (part.line ++ restLine rest)) := by
      rw [restLine, Connector.text_toList]
      simp
    have hspace : Balanced [' '] := by decide
    rw [hline]
    constructor
    · exact ha.append (hspace.append (k.balanced_word.append (hspace.append hbalanced)))
    · rw [words_space ha, words_space k.balanced_word, k.words_word, hwords, List.flatMap_cons]
      rfl

/-- A condition is read as the formula of its parts. -/
theorem readCondition_parts {first : Formula (List Char)}
    {rest : List (Connector × Formula (List Char))} (hfirst : Quiet first.line)
    (hread : readPart (words outer first.line) = first) (hrest : ∀ x ∈ rest, Quiet x.2.line)
    (hreads : (rest.map fun x => (x.1, readPart (words outer x.2.line))) = rest) :
    readCondition (first.line ++ restLine rest) = .group first rest := by
  rw [readCondition_eq, (words_restLine hfirst.1 hrest).2,
    cutAtConnectors_flatMap hfirst.2 (fun F => words outer F.line) fun x hx => (hrest x hx).2,
    hread, List.map_map]
  exact congrArg _ hreads

mutual

/-- A formula whose atoms have several quiet words is read back from its words. -/
theorem readPart_line : ∀ F : Formula (List Char), (∀ a ∈ F.atoms, Atomic a) →
    Quiet F.line ∧ readPart (words outer F.line) = F
  | .atom a, h => by
    have ha : Atomic a := h a (List.mem_singleton_self a)
    refine ⟨ha.quiet, ?_⟩
    have hnone : inner? (words outer a) = none := by
      cases hinner : inner? (words outer a) with
      | none => rfl
      | some inner => exact absurd (inner?_eq_some hinner) (ha.ne_singleton _)
    rw [line, readPart_of_inner? hnone, intercalate_words]
  | .group first rest, h => by
    rw [atoms, List.forall_mem_append] at h
    obtain ⟨hfirst, hread⟩ := readPart_line first h.1
    obtain ⟨hrest, hreads⟩ := readParts_line rest h.2
    have hbalanced := (words_restLine hfirst.1 hrest).1
    have hinner : inner? (words outer (line (.group first rest))) =
        some (first.line ++ restLine rest) := by
      have hline : words outer (line (.group first rest)) = [line (.group first rest)] := by
        rw [line, words_parens hbalanced, words, List.modifyHead_cons, List.append_nil]
      rw [hline, line, List.cons_append, inner?, List.getLast?_concat, List.dropLast_concat,
        if_pos ⟨rfl, hbalanced⟩]
    refine ⟨Quiet.parens hbalanced, ?_⟩
    rw [readPart]
    split
    case h_1 inner hsome =>
      obtain rfl := Option.some.inj (hinner.symm.trans hsome)
      exact readCondition_parts hfirst hread hrest hreads
    case h_2 hnone =>
      rw [hinner] at hnone
      cases hnone

/-- So are parts behind their connectors. -/
theorem readParts_line : ∀ rest : List (Connector × Formula (List Char)),
    (∀ a ∈ restAtoms rest, Atomic a) → (∀ x ∈ rest, Quiet x.2.line) ∧
      (rest.map fun x => (x.1, readPart (words outer x.2.line))) = rest
  | [], _ => ⟨List.forall_mem_nil _, rfl⟩
  | (k, part) :: rest, h => by
    rw [restAtoms, List.forall_mem_append] at h
    obtain ⟨hpart, hread⟩ := readPart_line part h.1
    obtain ⟨hrest, hreads⟩ := readParts_line rest h.2
    refine ⟨List.forall_mem_cons.mpr ⟨hpart, hrest⟩, ?_⟩
    rw [List.map_cons, hread, hreads]

end

/-- A formula whose atoms have several quiet words is read back from its text. -/
theorem readCondition_line {first : Formula (List Char)}
    {rest : List (Connector × Formula (List Char))}
    (h : ∀ a ∈ (group first rest).atoms, Atomic a) :
    readCondition (first.line ++ restLine rest) = .group first rest := by
  rw [atoms, List.forall_mem_append] at h
  obtain ⟨hfirst, hread⟩ := readPart_line first h.1
  obtain ⟨hrest, hreads⟩ := readParts_line rest h.2
  exact readCondition_parts hfirst hread hrest hreads

section Fragment

variable {α : Type} {root : String} {aliasOf : Token → String} (write : α → Fragment)

mutual

/-- The characters of a formula's text, from those of its leaves. -/
theorem chars_unit : ∀ F : Formula α, (F.unit write).chars root aliasOf =
    (F.map fun a => (write a).chars root aliasOf).line
  | .atom a => rfl
  | .group first rest => by
    rw [unit, map, line, Fragment.parens, Fragment.wrap]
    simp only [Fragment.chars_cons, Fragment.chars_append, Fragment.chars_nil, chars_unit first,
      chars_restText rest, Fragment.pieceChars]
    rfl

/-- The same for parts behind their connectors. -/
theorem chars_restText : ∀ rest : List (Connector × Formula α),
    (restText write rest).chars root aliasOf =
      restLine (mapRest (fun a => (write a).chars root aliasOf) rest)
  | [] => rfl
  | (k, part) :: rest => by
    rw [restText, mapRest, restLine, Fragment.chars_append, Fragment.chars_cons, chars_unit part,
      chars_restText rest]
    rfl

end

/-- A formula is read back from its text, with the texts of its leaves for atoms. -/
theorem readCondition_text {first : Formula α} {rest : List (Connector × Formula α)}
    (h : ∀ a ∈ (group first rest).atoms, Atomic ((write a).chars root aliasOf)) :
    readCondition (((group first rest).text write).chars root aliasOf) =
      (group first rest).map fun a => (write a).chars root aliasOf := by
  rw [text, Fragment.chars_append, chars_unit, chars_restText, map]
  apply readCondition_line
  rw [← map, atoms_map]
  exact List.forall_mem_map.mpr h

/-- So is the formula of several parts. -/
theorem readCondition_of_ofItems? {items : List (Connector × Formula α)} {F : Formula α}
    (hF : ofItems? items = some F) (h : ∀ a ∈ F.atoms, Atomic ((write a).chars root aliasOf)) :
    readCondition ((F.text write).chars root aliasOf) =
      F.map fun a => (write a).chars root aliasOf := by
  cases items with
  | nil => cases hF
  | cons x rest =>
    obtain rfl := Option.some.inj hF
    exact readCondition_text write h

end Fragment

end Formula

end DynamicSql
