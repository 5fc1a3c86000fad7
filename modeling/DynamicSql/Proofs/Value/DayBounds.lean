import DynamicSql.Proofs.Calendar.RoundTrip
import DynamicSql.Proofs.Text.Trim
import DynamicSql.Value.DateBound
import DynamicSql.Value.Text

/-!
# Days and their texts as ends of a range

A text that spells a day bounds a range as the day itself does, whatever its year, and however much
white space stands around it. A value that was widened to an end of its day is a timestamp, which no
bound widens again (`dayBounds_settle`).
-/

namespace DynamicSql

/-- A word without white space is what is left of it between white space. -/
theorem Text.trim_word {front word back : List Char} {s : String}
    (hs : s.toList = front ++ (word ++ back)) (hfront : ∀ c ∈ front, isBlank c = true)
    (hword : ∀ c ∈ word, isBlank c = false) (hback : ∀ c ∈ back, isBlank c = true) :
    trim s = String.ofList word := by
  have hinside : Trimmed s (String.ofList word) := by
    constructor <;> rw [String.toList_ofList]
    · exact ⟨front, back, hs, hfront, hback⟩
    · exact fun c hc => hword c (List.mem_of_mem_head? hc)
    · exact fun c hc => hword c (List.mem_of_getLast? hc)
  exact hinside.trim_eq

namespace Calendar

open Text (isBlank)

/-- The text of a year consists of digits behind a sign. -/
theorem isBlank_of_mem_yearText {year : Int} : ∀ c ∈ yearText year, isBlank c = false := by
  intro c hc
  rw [yearText] at hc
  split at hc
  case isTrue => exact isBlank_of_isDigit (isDigit_of_mem_padded c hc)
  case isFalse =>
    obtain rfl | hc := List.mem_cons.mp hc
    · split <;> decide
    · exact isBlank_of_isDigit (isDigit_of_mem_padded c hc)

/-- There is no white space in the text of a date. -/
theorem Date.isBlank_of_mem_chars (d : Date) : ∀ c ∈ d.chars, isBlank c = false := by
  intro c hc
  simp only [chars, List.mem_append, List.mem_cons] at hc
  obtain (hc | rfl | hc) | rfl | hc := hc
  · exact isBlank_of_mem_yearText c hc
  · decide
  · exact isBlank_of_isDigit (isDigit_of_mem_padded c hc)
  · decide
  · exact isBlank_of_isDigit (isDigit_of_mem_padded c hc)

end Calendar

namespace DateBound

open Calendar

/-- A text that spells a day names it, with white space around it or without. -/
theorem day?_text (d : Date) {front back : String}
    (hfront : ∀ c ∈ front.toList, Text.isBlank c = true)
    (hback : ∀ c ∈ back.toList, Text.isBlank c = true) :
    day? (.string (front ++ d.text ++ back)) = some d := by
  have hchars : (front ++ d.text ++ back).toList =
      front.toList ++ (d.chars ++ back.toList) := by
    rw [String.toList_append, String.toList_append, Date.text, String.toList_ofList,
      List.append_assoc]
  rw [day?, Text.trim_word hchars hfront d.isBlank_of_mem_chars hback]
  exact d.readStrict?_text

/-- A day is widened to the timestamp at the bound. -/
theorem apply_of_day? {v : Value} {d : Date} (h : day? v = some d) (bound : DateBound) :
    bound.apply v = .dateTime ⟨d, bound.clock⟩ := by
  rw [apply, h]

/-- What names no day is left alone. -/
theorem apply_of_day?_eq_none {v : Value} (h : day? v = none) (bound : DateBound) :
    bound.apply v = v := by
  rw [apply, h]

/-- A value that was widened, or left alone, names no day any more or never did. -/
theorem day?_apply (bound : DateBound) (v : Value) : day? (bound.apply v) = none := by
  cases h : day? v with
  | none => rw [apply_of_day?_eq_none h, h]
  | some d =>
    rw [apply_of_day? h]
    rfl

/-- A text that spells a day, with any white space around it, counts as the day itself: its first
second begins a range, and its last whole second ends one. Whatever a value is, one step settles
it. -/
theorem dayBounds_settle :
    (∀ (d : Date) (front back : String) (bound : DateBound),
      (∀ c ∈ front.toList, Text.isBlank c = true) → (∀ c ∈ back.toList, Text.isBlank c = true) →
        bound.apply (.string (front ++ (Value.date d).text ++ back)) = bound.apply (.date d)) ∧
    (∀ d : Date, dayStart.apply (.date d) = .dateTime ⟨d, ⟨0, 0, 0, 0, rfl⟩⟩ ∧
      dayEnd.apply (.date d) = .dateTime ⟨d, ⟨23, 59, 59, 0, rfl⟩⟩) ∧
    ∀ (v : Value) (first second : DateBound), second.apply (first.apply v) = first.apply v := by
  refine ⟨fun d front back bound hfront hback => ?_, fun d => ⟨rfl, rfl⟩, fun v first second => ?_⟩
  · have htext : (Value.date d).text = d.text := by rw [Value.text]
    rw [htext, apply_of_day? (day?_text d hfront hback), apply_of_day? (v := .date d) rfl]
  · exact apply_of_day?_eq_none (day?_apply first v) second

/-- The first day of the calendar lies in a negative year, and the last one in a year of six
digits. Both are read back from their texts between a tabulator and an ideographic space. -/
theorem dayBounds_settle_edges :
    let first : Date := ⟨-262143, 1, 1, rfl⟩
    let last : Date := ⟨262142, 12, 31, rfl⟩
    (∀ c ∈ "\t".toList, Text.isBlank c = true) ∧ (∀ c ∈ "\u3000".toList, Text.isBlank c = true) ∧
    (Value.date first).text = "-262143-01-01" ∧ (Value.date last).text = "+262142-12-31" ∧
    dayStart.apply (.string ("\t" ++ (Value.date first).text ++ "\u3000")) =
      .dateTime ⟨first, ⟨0, 0, 0, 0, rfl⟩⟩ ∧
    dayEnd.apply (.string ("\t" ++ (Value.date last).text ++ "\u3000")) =
      .dateTime ⟨last, ⟨23, 59, 59, 0, rfl⟩⟩ := by
  intro first last
  obtain ⟨htexts, hends, -⟩ := dayBounds_settle
  have htab : ∀ c ∈ "\t".toList, Text.isBlank c = true := List.all_eq_true.mp rfl
  have hspace : ∀ c ∈ "\u3000".toList, Text.isBlank c = true := List.all_eq_true.mp rfl
  refine ⟨htab, hspace, by cbv, by cbv, ?_, ?_⟩
  · exact (htexts first "\t" "\u3000" dayStart htab hspace).trans (hends first).1
  · exact (htexts last "\t" "\u3000" dayEnd htab hspace).trans (hends last).2

end DateBound

end DynamicSql
