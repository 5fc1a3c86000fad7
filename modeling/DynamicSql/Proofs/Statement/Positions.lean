import DynamicSql.Proofs.Sql.Placeholders
import DynamicSql.Proofs.Text.Weave
import DynamicSql.Statement.Template

/-!
# Question marks of statements written by hand

A question mark is open when an even number of quotation marks stands in front of it. The text of a
statement written by hand is cut at its open question marks, and numbered markers take their places
(`markPositions_eq_fillMarks`). As long as the text itself holds no opening of a marker, the markers
are found again from left to right (`restoreMarks_markPositions`).
-/

namespace DynamicSql

open Text

/-- The places of the open question marks of a text, where a number of quotation marks stands in
front of the text. -/
def openMarks (quotes : Nat) (cs : List Char) : List Nat :=
  (List.range cs.length).filter fun i =>
    cs[i]? = some '?' ∧ (quotes + (cs.take i).count '\'') % 2 = 0

/-- The parts of a text between its open question marks. -/
def openParts (quotes : Nat) (cs : List Char) : List (List Char) :=
  partsBetween cs 0 (openMarks quotes cs)

/-- A text with other texts in place of its open question marks, which are numbered in a row. -/
def fillMarks (filling : Nat → List Char) (quotes next : Nat) (cs : List Char) : List Char :=
  weave (openParts quotes cs) ((List.range' next (openMarks quotes cs).length).map filling)

/-- The marker of the value at a position. -/
def positionMarker (root : String) (position : Nat) : List Char :=
  ("#\x7b" ++ root ++ "[" ++ toString position ++ "]\x7d").toList

/-- Put question marks in place of numbered markers, from left to right. -/
def restoreMarks (root : String) (next : Nat) (cs : List Char) : List Char :=
  match h : (positionMarker root next).isPrefixOf? cs with
  | some rest => '?' :: restoreMarks root (next + 1) rest
  | none =>
    match cs with
    | [] => []
    | c :: rest => c :: restoreMarks root next rest
termination_by cs.length
decreasing_by
  · rw [← List.append_eq_of_isPrefixOf?_eq_some h, List.length_append]
    simp [positionMarker]
  · simp

/-! ## Open question marks -/

/-- An open question mark has an even number of quotation marks in front. -/
theorem mem_openMarks {quotes i : Nat} {cs : List Char} : i ∈ openMarks quotes cs ↔
    cs[i]? = some '?' ∧ (quotes + (cs.take i).count '\'') % 2 = 0 := by
  rw [openMarks, List.mem_filter, List.mem_range, decide_eq_true_iff]
  refine ⟨And.right, fun h => ⟨?_, h⟩⟩
  exact (List.getElem?_eq_some_iff.mp h.1).1

/-- Open question marks are listed from left to right. -/
theorem openMarks_sorted (quotes : Nat) (cs : List Char) :
    (openMarks quotes cs).Pairwise (· < ·) :=
  List.pairwise_lt_range.filter _

/-- The first character is an open question mark or none, and counts with the quotation marks in
front of the others. -/
theorem openMarks_cons (quotes : Nat) (c : Char) (cs : List Char) : openMarks quotes (c :: cs) =
    (if c = '?' ∧ quotes % 2 = 0 then [0] else []) ++
      (openMarks (quotes + if c = '\'' then 1 else 0) cs).map (· + 1) := by
  have hbehind : ∀ i, quotes + ((c :: cs).take (i + 1)).count '\'' =
      quotes + (if c = '\'' then 1 else 0) + (cs.take i).count '\'' := by
    intro i
    simp only [List.take_succ_cons, List.count_cons, beq_iff_eq]
    omega
  have hfirst : (decide ((c :: cs)[0]? = some '?' ∧
      (quotes + ((c :: cs).take 0).count '\'') % 2 = 0)) = decide (c = '?' ∧ quotes % 2 = 0) := by
    simp
  rw [openMarks, List.length_cons, List.range_succ_eq_map, List.filter_cons, List.filter_map,
    hfirst, openMarks]
  simp only [Function.comp_def, List.getElem?_cons_succ, hbehind]
  split <;> simp_all

variable {quotes : Nat} {c : Char} {cs : List Char}

/-- A question mark behind an even number of quotation marks is open. -/
theorem openMarks_question (heven : quotes % 2 = 0) :
    openMarks quotes ('?' :: cs) = 0 :: (openMarks quotes cs).map (· + 1) := by
  rw [openMarks_cons, if_pos ⟨rfl, heven⟩, if_neg (by decide)]
  rfl

/-- Any other character is no open question mark. -/
theorem openMarks_other (h : ¬(c = '?' ∧ quotes % 2 = 0)) : openMarks quotes (c :: cs) =
    (openMarks (quotes + if c = '\'' then 1 else 0) cs).map (· + 1) := by
  rw [openMarks_cons, if_neg h, List.nil_append]

/-- An open question mark ends the part in front of it. -/
theorem fillMarks_question (heven : quotes % 2 = 0) (filling : Nat → List Char) (next : Nat) :
    fillMarks filling quotes next ('?' :: cs) =
      filling next ++ fillMarks filling quotes (next + 1) cs := by
  rw [fillMarks, openParts, openMarks_question heven, partsBetween, partsBetween_cons_succ,
    List.length_cons, List.length_map, List.range'_succ, List.map_cons, weave_cons]
  rfl

/-- Every other character is kept. -/
theorem fillMarks_other (h : ¬(c = '?' ∧ quotes % 2 = 0)) (filling : Nat → List Char) (next : Nat) :
    fillMarks filling quotes next (c :: cs) =
      c :: fillMarks filling (quotes + if c = '\'' then 1 else 0) next cs := by
  rw [fillMarks, openParts, openMarks_other h, partsBetween_cons_zero,
    weave_modifyHead (partsBetween_ne_nil _ _ _), List.length_map]
  rfl

/-- With question marks in the places of question marks, the text is as it was. -/
theorem fillMarks_self (quotes next : Nat) (cs : List Char) :
    fillMarks (fun _ => ['?']) quotes next cs = cs := by
  induction cs generalizing quotes next with
  | nil => rfl
  | cons c cs ih =>
    by_cases h : c = '?' ∧ quotes % 2 = 0
    · obtain ⟨rfl, heven⟩ := h
      rw [fillMarks_question heven, ih]
      rfl
    · rw [fillMarks_other h, ih]

/-- Replacing the question marks outside literals puts markers in the places of the open ones: the
reader is inside a literal when it has passed an odd number of quotation marks. -/
theorem markPositions_eq_fillMarks (root : String) (quotes next : Nat) (cs : List Char) :
    markPositions root (quotes % 2 = 1) next cs =
      fillMarks (positionMarker root) quotes next cs := by
  -- Being inside quotation marks is an odd number of them.
  induction cs generalizing quotes next with
  | nil => rfl
  | cons c cs ih =>
    rw [markPositions]
    by_cases hquote : c = '\''
    · have hother : ¬(c = '?' ∧ quotes % 2 = 0) :=
        fun h => absurd (hquote.symm.trans h.1) (by decide)
      have hnext : (!decide (quotes % 2 = 1)) = decide ((quotes + 1) % 2 = 1) := by
        rw [← decide_not, decide_eq_decide]
        omega
      rw [if_pos hquote, hnext, ih, fillMarks_other hother, if_pos hquote]
    · rw [if_neg hquote]
      by_cases hmark : c = '?' ∧ quotes % 2 = 0
      · obtain ⟨rfl, heven⟩ := hmark
        rw [if_pos (by simp [heven]), ih, fillMarks_question heven]
        rfl
      · rw [if_neg (by simpa using hmark), ih, fillMarks_other hmark, if_neg hquote]
        rfl

/-! ## Question marks put back -/

section Restoring

variable {root : String} {next : Nat} {rest : List Char}

/-- In place of the next marker, a question mark is put. -/
theorem restoreMarks_marker : restoreMarks root next (positionMarker root next ++ rest) =
    '?' :: restoreMarks root (next + 1) rest := by
  have hfound : (positionMarker root next).isPrefixOf? (positionMarker root next ++ rest) =
      some rest :=
    List.isPrefixOf?_eq_some_iff_append_eq.mpr rfl
  rw [restoreMarks]
  split
  case h_1 found h => rw [Option.some.inj (h.symm.trans hfound)]
  case h_2 h => exact absurd (h.symm.trans hfound) nofun

/-- In an empty text, there is nothing to restore. -/
@[simp] theorem restoreMarks_nil (root : String) (next : Nat) : restoreMarks root next [] = [] := by
  rw [restoreMarks]
  split
  case h_1 found h =>
    have happend := List.append_eq_of_isPrefixOf?_eq_some h
    simp [positionMarker] at happend
  case h_2 => rfl

/-- A character that no marker begins with is kept. -/
theorem restoreMarks_char (h : c ≠ '#' ∨ Closed rest) :
    restoreMarks root next (c :: rest) = c :: restoreMarks root next rest := by
  rw [restoreMarks]
  split
  case h_1 found hfound =>
    have happend := List.append_eq_of_isPrefixOf?_eq_some hfound
    have hopening : positionMarker root next = '#' :: '\x7b' :: (root.toList ++
        ("[" ++ toString next ++ "]\x7d").toList) := by
      simp [positionMarker]
    rw [hopening, List.cons_append, List.cons_append, List.cons.injEq] at happend
    obtain ⟨hc, hrest⟩ := happend
    exact absurd (hrest ▸ rfl) (h.resolve_left (not_not.mpr hc.symm))
  case h_2 => rfl

/-- Markers do not begin with an opening brace, so no text gets one at its front. -/
theorem Closed.markPositions (h : Closed cs) (root : String) (quoted : Bool) (next : Nat) :
    Closed (markPositions root quoted next cs) := by
  cases cs with
  | nil => exact h
  | cons c cs =>
    rw [DynamicSql.markPositions]
    split
    · exact h
    · split
      · simp [Closed]
      · exact h

/-- The markers in a text are found again, if the text was without the opening of a marker. -/
theorem restoreMarks_markPositions (hfree : ¬['#', '\x7b'] <:+: cs) (root : String)
    (quoted : Bool) (next : Nat) :
    restoreMarks root next (markPositions root quoted next cs) = cs := by
  -- No character that is kept can open a marker, neither with kept ones nor with a new marker.
  induction cs generalizing quoted next with
  | nil => exact restoreMarks_nil root next
  | cons c cs ih =>
    have hrest : ¬['#', '\x7b'] <:+: cs := fun h => hfree (h.trans (List.suffix_cons c cs).isInfix)
    have hchar : c ≠ '#' ∨ Closed cs := by
      refine or_iff_not_imp_left.mpr fun hc hbrace => hfree ?_
      obtain ⟨rest, rfl⟩ := List.head?_eq_some_iff.mp hbrace
      rw [not_not.mp hc]
      exact (List.prefix_append ['#', '\x7b'] rest).isInfix
    have hkept : ∀ quoted, c ≠ '#' ∨ Closed (markPositions root quoted next cs) :=
      fun quoted => hchar.imp_right fun h => h.markPositions root quoted next
    rw [markPositions]
    split
    · rw [restoreMarks_char (hkept _), ih hrest]
    · split
      case isTrue hmark =>
        have hmarker : restoreMarks root next
            (positionMarker root next ++ markPositions root quoted (next + 1) cs) = _ :=
          restoreMarks_marker
        rw [positionMarker] at hmarker
        rw [hmarker, ih hrest, hmark.1]
      case isFalse => rw [restoreMarks_char (hkept _), ih hrest]

end Restoring

/-! ## Statements written by hand -/

namespace Template

/-- The text of a statement written by hand is cut at its open question marks, which are those with
an even number of quotation marks in front of them; the marker with the next number takes the place
of each, and all else is kept. A text without the opening of a marker is read back by putting
question marks in place of the markers. The values are bound by position, in the order given. -/
theorem numbered_eq_weave (root : String) (t : Template) :
    let cs := t.sql.toList
    let places := openMarks 0 cs
    let parts := partsBetween cs 0 places
    (∀ i, i ∈ places ↔ cs[i]? = some '?' ∧ (cs.take i).count '\'' % 2 = 0) ∧
    places.Pairwise (· < ·) ∧
    parts.length = places.length + 1 ∧
    weave parts (List.replicate places.length ['?']) = cs ∧
    (numbered root t.sql).toList =
      weave parts ((List.range places.length).map (positionMarker root)) ∧
    (¬['#', '\x7b'] <:+: cs → restoreMarks root 0 (numbered root t.sql).toList = cs) ∧
    statement root t = ⟨numbered root t.sql, ⟨[], [], t.values⟩⟩ := by
  intro cs places parts
  have hnumbered : (numbered root t.sql).toList = markPositions root false 0 cs :=
    String.toList_ofList
  refine ⟨fun i => ?_, openMarks_sorted 0 cs, length_partsBetween cs 0 places, ?_, ?_,
    fun hfree => ?_, rfl⟩
  · rw [mem_openMarks, Nat.zero_add]
  · have hself := fillMarks_self 0 0 cs
    rw [fillMarks, List.map_const', List.length_range'] at hself
    exact hself
  · rw [hnumbered, List.range_eq_range']
    exact markPositions_eq_fillMarks root 0 0 cs
  · rw [hnumbered, restoreMarks_markPositions hfree]

/-- Question marks in a literal, between doubled quotation marks and behind a quotation mark that is
never closed are no markers. -/
theorem literals_numbered :
    let sql := "a = ? AND b = 'it''s ?' AND c = ?''? AND d = 'é?"
    openMarks 0 sql.toList = [4, 32, 35] ∧
    numbered "r" sql =
      "a = #\x7br[0]\x7d AND b = 'it''s ?' AND c = #\x7br[1]\x7d''#\x7br[2]\x7d AND d = 'é?" ∧
    restoreMarks "r" 0 (numbered "r" sql).toList = sql.toList := by
  intro sql
  obtain ⟨-, -, -, -, -, hrestored, -⟩ := numbered_eq_weave "r" ⟨sql, []⟩
  refine ⟨by decide +kernel, by decide +kernel, hrestored ?_⟩
  decide +kernel

end Template

end DynamicSql
