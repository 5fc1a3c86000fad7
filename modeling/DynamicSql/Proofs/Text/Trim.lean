import DynamicSql.Text.Blank
import Mathlib.Data.List.Basic
import Mathlib.Data.List.TakeWhile

/-!
# Text without the white space around it

What trimming leaves of a text is the part of it with white space on both sides and with none at its
own ends. There is one such part of every text (`Text.trim_eq_iff`).
-/

namespace DynamicSql.Text

variable {s t : String} {front cs : List Char}

/-- A text is what is left of another one without the white space at both ends. -/
structure Trimmed (s t : String) : Prop where
  inside : ∃ front back, s.toList = front ++ (t.toList ++ back) ∧
    (∀ c ∈ front, isBlank c = true) ∧ ∀ c ∈ back, isBlank c = true
  first : ∀ c ∈ t.toList.head?, isBlank c = false
  last : ∀ c ∈ t.toList.getLast?, isBlank c = false

/-- White space at the front is dropped. -/
theorem skipBlanks_append (h : ∀ c ∈ front, isBlank c = true) (cs : List Char) :
    skipBlanks (front ++ cs) = skipBlanks cs := by
  rw [skipBlanks, List.dropWhile_append_of_pos h, skipBlanks]

/-- Nothing is dropped where there is no white space in front. -/
theorem skipBlanks_eq_self (h : ∀ c ∈ cs.head?, isBlank c = false) : skipBlanks cs = cs := by
  cases cs with
  | nil => rfl
  | cons c rest => rw [skipBlanks, List.dropWhile_cons_of_neg (by simp [h c rfl])]

/-- What is dropped is white space, and what is left does not begin with any. -/
theorem exists_skipBlanks (cs : List Char) :
    ∃ front, cs = front ++ skipBlanks cs ∧ (∀ c ∈ front, isBlank c = true) ∧
      ∀ c ∈ (skipBlanks cs).head?, isBlank c = false := by
  refine ⟨cs.takeWhile isBlank, List.takeWhile_append_dropWhile.symm,
    fun c hc => List.mem_takeWhile_imp hc, fun c hc => ?_⟩
  have hfirst := List.head?_dropWhile_not isBlank cs
  rw [← skipBlanks, Option.mem_def.mp hc] at hfirst
  exact hfirst

/-- Trimming leaves what is inside the white space at both ends. -/
theorem trimmed_trim (s : String) : Trimmed s (trim s) := by
  obtain ⟨front, hfront, hblank, hfirst⟩ := exists_skipBlanks s.toList
  obtain ⟨back, hback, hblank', hlast⟩ := exists_skipBlanks (skipBlanks s.toList).reverse
  have hinside : skipBlanks s.toList = (trim s).toList ++ back.reverse := by
    rw [← List.reverse_reverse (skipBlanks s.toList), hback, List.reverse_append, trim,
      String.toList_ofList]
  have hsplit : s.toList = front ++ ((trim s).toList ++ back.reverse) := by
    rw [← hinside, ← hfront]
  refine ⟨⟨front, back.reverse, hsplit, hblank, fun c hc => ?_⟩, fun c hc => ?_, fun c hc => ?_⟩
  · exact hblank' c (List.mem_reverse.mp hc)
  · refine hfirst c ?_
    rw [hinside, List.head?_append, Option.mem_def.mp hc]
    rfl
  · rw [trim, String.toList_ofList, List.getLast?_reverse] at hc
    exact hlast c hc

/-- No other part of a text has white space on both sides and none at its own ends. -/
theorem Trimmed.trim_eq (h : Trimmed s t) : trim s = t := by
  obtain ⟨⟨front, back, hs, hfront, hback⟩, hfirst, hlast⟩ := h
  rw [trim, hs, skipBlanks_append hfront]
  by_cases ht : t.toList = []
  · have hnone : skipBlanks (back ++ []) = skipBlanks [] := skipBlanks_append hback []
    rw [ht, List.nil_append, ← List.append_nil back, hnone]
    exact (String.toList_eq_nil_iff.mp ht).symm
  · have hfront' : ∀ c ∈ (t.toList ++ back).head?, isBlank c = false := by
      rwa [List.head?_append_of_ne_nil _ ht]
    have hreverse : ∀ c ∈ t.toList.reverse.head?, isBlank c = false := by
      rwa [List.head?_reverse]
    rw [skipBlanks_eq_self hfront', List.reverse_append,
      skipBlanks_append fun c hc => hback c (List.mem_reverse.mp hc), skipBlanks_eq_self hreverse,
      List.reverse_reverse, String.ofList_toList]

/-- Trimming leaves the one part with white space on both sides and none at its own ends. -/
theorem trim_eq_iff : trim s = t ↔ Trimmed s t :=
  ⟨fun h => h ▸ trimmed_trim s, Trimmed.trim_eq⟩

end DynamicSql.Text
