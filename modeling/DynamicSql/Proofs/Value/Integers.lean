import DynamicSql.Proofs.Decimal.Rounding
import DynamicSql.Proofs.Json.RoundTrip
import DynamicSql.Value.Members

/-!
# Integers in a document that stands for a set

The elements of a JSON array or object become the values that a membership test looks for. An
integer that fits a signed word is looked for as this word. An unsigned word beyond becomes a
double, whose fifty-three digits leave the nearest multiple of 2048, so integers in the same step
are looked for as one value (`integer_members`).
-/

namespace DynamicSql

open Decimal (Binary64)

namespace Json

/-- The elements of an array or an object. -/
def elements? : Json → Option (List Json)
  | .array items => some items
  | .object members => some (members.map (·.2))
  | _ => none

end Json

namespace Value

/-- The number that a value stands for. -/
def number? : Value → Option Rat
  | .int n => some (.ofInt n.toInt)
  | .float x | .json (.float x) => x.value?
  | .json (.integer n) => some (.ofInt n)
  | _ => none

/-- The integer that is looked for in place of an integer of a document. -/
def wordOrNearest (n : Int) : Int :=
  if n ≤ Int64.maxValue.toInt then n else Binary64.roundTo 2048 n.toNat

/-- Each element of a document is a member by itself. -/
theorem members?_of_elements? {j : Json} {elements : List Json} (h : j.elements? = some elements) :
    (Value.json j).members? = some (elements.map ofJsonScalar) := by
  cases j with
  | array items =>
    obtain rfl : items = elements := Option.some_inj.mp h
    rfl
  | object entries =>
    obtain rfl : entries.map (·.2) = elements := Option.some_inj.mp h
    rw [List.map_map]
    rfl
  | _ => contradiction

section Integers

variable {n : Int}

/-- An integer of 64 bits with a sign is a member as it is. -/
theorem ofJsonScalar_word (h : (Json.integer n).Integral) (hmax : n ≤ Int64.maxValue.toInt) :
    ofJsonScalar (.integer n) = .int (Int64.ofInt n) := by
  rw [ofJsonScalar, ofInt?, if_pos ⟨h.1, hmax⟩, Option.getD_some]

/-- A larger integer is a member as a float. -/
theorem ofJsonScalar_beyond (hmax : Int64.maxValue.toInt < n) :
    ofJsonScalar (.integer n) = .float (.ofInt n) := by
  rw [ofJsonScalar, ofInt?, if_neg (by omega), Option.getD_none]

/-- An integer of 64 bits with a sign is looked for as it is. -/
theorem wordOrNearest_word (hmax : n ≤ Int64.maxValue.toInt) : wordOrNearest n = n := if_pos hmax

/-- In place of a larger one, the nearest float is looked for. -/
theorem wordOrNearest_beyond {m : Nat} (hmax : Int64.maxValue.toInt < m) :
    wordOrNearest m = Binary64.roundTo 2048 m := by
  rw [wordOrNearest, if_neg (Int.not_le.mpr hmax), Int.toNat_natCast]

/-- An unsigned word beyond the signed ones has sixty-four binary digits. -/
theorem digits_of_beyond (h : (Json.integer n).Integral) (hmax : Int64.maxValue.toInt < n) :
    ∃ m : Nat, n = m ∧ Binary64.HasDigits 11 m := by
  have hsize : n < 18446744073709551616 := h.2
  have hbeyond : 9223372036854775807 < n := hmax
  have h63 : Nat.pow 2 (52 + 11) = 9223372036854775808 := rfl
  have h64 : Nat.pow 2 (53 + 11) = 18446744073709551616 := rfl
  exact ⟨n.toNat, by omega, ⟨by omega, by omega⟩⟩

/-- An integer is looked for as the nearest one that a signed word or a double holds. -/
theorem number?_ofJsonScalar (h : (Json.integer n).Integral) :
    (ofJsonScalar (.integer n)).number? = some (.ofInt (wordOrNearest n)) := by
  obtain hmax | hmax := Int.lt_or_le Int64.maxValue.toInt n
  · obtain ⟨m, rfl, hdigits⟩ := digits_of_beyond h hmax
    rw [ofJsonScalar_beyond hmax, wordOrNearest_beyond hmax]
    exact Binary64.value?_ofInt (by decide) hdigits
  · have hword : n < 9223372036854775808 := Int.lt_add_one_of_le hmax
    rw [ofJsonScalar_word h hmax, wordOrNearest_word hmax, number?,
      Int64.toInt_ofInt_of_le h.1 hword]

/-- The integer that is looked for is at most half a step away. -/
theorem wordOrNearest_near (n : Int) : (wordOrNearest n - n).natAbs ≤ 1024 := by
  unfold wordOrNearest
  split
  case isTrue => omega
  case isFalse hmax =>
    have hbeyond : ¬n ≤ 9223372036854775807 := hmax
    have hnear := Binary64.roundTo_near (d := 2048) (by decide) n.toNat
    omega

/-- An integer is looked for as itself where it fits a signed word or is a multiple of the step. -/
theorem wordOrNearest_eq_self_iff : wordOrNearest n = n ↔ n ≤ Int64.maxValue.toInt ∨ 2048 ∣ n := by
  unfold wordOrNearest
  split
  case isTrue hmax => exact iff_of_true rfl (.inl hmax)
  case isFalse hmax =>
    have hbeyond : ¬n ≤ 9223372036854775807 := hmax
    have hself := Binary64.roundTo_eq_self_iff (d := 2048) (n := n.toNat) (by decide)
    rw [or_iff_right hmax]
    omega

/-- An integer beyond the signed words is looked for as one beyond them. -/
theorem maxValue_lt_wordOrNearest (hmax : Int64.maxValue.toInt < n) :
    Int64.maxValue.toInt < wordOrNearest n := by
  have hbeyond : 9223372036854775807 < n := hmax
  have hquotient : 4503599627370496 ≤ Binary64.divRound n.toNat 2048 :=
    Binary64.le_divRound (by decide) (by omega)
  rw [wordOrNearest, if_neg (Int.not_le.mpr hmax), Binary64.roundTo]
  show (9223372036854775807 : Int) < _
  omega

/-- Two integers are looked for as one value exactly where they have the same nearest one. -/
theorem ofJsonScalar_eq_iff {n' : Int} (h : (Json.integer n).Integral)
    (h' : (Json.integer n').Integral) :
    ofJsonScalar (.integer n) = ofJsonScalar (.integer n') ↔
      wordOrNearest n = wordOrNearest n' := by
  constructor
  · intro heq
    have hnumber := number?_ofJsonScalar h
    rw [heq, number?_ofJsonScalar h', Option.some_inj] at hnumber
    exact (congrArg Rat.num hnumber).symm
  · intro heq
    -- A word and the nearest multiple to an integer beyond are on two sides of the largest word.
    obtain hmax | hmax := Int.lt_or_le Int64.maxValue.toInt n <;>
      obtain hmax' | hmax' := Int.lt_or_le Int64.maxValue.toInt n'
    · obtain ⟨m, rfl, hdigits⟩ := digits_of_beyond h hmax
      obtain ⟨m', rfl, hdigits'⟩ := digits_of_beyond h' hmax'
      rw [wordOrNearest_beyond hmax, wordOrNearest_beyond hmax', Int.ofNat_inj] at heq
      have hdoubles : Binary64.ofInt m = Binary64.ofInt m' :=
        (Binary64.ofInt_eq_ofInt_iff (by decide) hdigits hdigits').mpr heq
      rw [ofJsonScalar_beyond hmax, ofJsonScalar_beyond hmax', hdoubles]
    · have hbeyond := maxValue_lt_wordOrNearest hmax
      rw [heq, wordOrNearest_word hmax'] at hbeyond
      exact absurd hmax' (Int.not_le.mpr hbeyond)
    · have hbeyond := maxValue_lt_wordOrNearest hmax'
      rw [← heq, wordOrNearest_word hmax] at hbeyond
      exact absurd hmax (Int.not_le.mpr hbeyond)
    · rw [wordOrNearest_word hmax, wordOrNearest_word hmax'] at heq
      rw [heq]

end Integers

/-- The members of a JSON array or object are its elements one by one. An integer that fits a signed
word is this word. One beyond is a double and stands for the nearest multiple of 2048, at most 1024
away, so that the member stands for the integer itself only where it is such a multiple; integers
with the same nearest multiple are the same member. -/
theorem integer_members {j : Json} {elements : List Json} (h : j.elements? = some elements) :
    ∃ members, (Value.json j).members? = some members ∧ members.length = elements.length ∧
      (∀ (i : Nat) (n : Int), elements[i]? = some (.integer n) → (Json.integer n).Integral →
        ∃ v, members[i]? = some v ∧
          (n ≤ Int64.maxValue.toInt → v = .int (Int64.ofInt n)) ∧
          (Int64.maxValue.toInt < n → v = .float (.ofInt n)) ∧
          v.number? = some (.ofInt (wordOrNearest n)) ∧ (wordOrNearest n - n).natAbs ≤ 1024 ∧
          (v.number? = some (.ofInt n) ↔ n ≤ Int64.maxValue.toInt ∨ 2048 ∣ n)) ∧
      ∀ (i i' : Nat) (n n' : Int), elements[i]? = some (.integer n) →
        elements[i']? = some (.integer n') → (Json.integer n).Integral →
        (Json.integer n').Integral →
        (members[i]? = members[i']? ↔ wordOrNearest n = wordOrNearest n') := by
  refine ⟨elements.map ofJsonScalar, members?_of_elements? h, List.length_map .., ?_, ?_⟩
  · intro i n hi hn
    have hnumber := number?_ofJsonScalar hn
    refine ⟨ofJsonScalar (.integer n), by rw [List.getElem?_map, hi, Option.map_some],
      ofJsonScalar_word hn, ofJsonScalar_beyond, hnumber, wordOrNearest_near n, ?_⟩
    rw [hnumber, ← wordOrNearest_eq_self_iff, Option.some_inj]
    exact ⟨fun heq => congrArg Rat.num heq, congrArg Rat.ofInt⟩
  · intro i i' n n' hi hi' hn hn'
    rw [List.getElem?_map, List.getElem?_map, hi, hi', Option.map_some, Option.map_some,
      Option.some_inj]
    exact ofJsonScalar_eq_iff hn hn'

/-- The largest signed word stays, its two successors are looked for as the same double, and the
largest unsigned word as the integer behind it, which no word holds. -/
theorem integer_members_past_largest_word :
    let elements : List Json := [.integer 9223372036854775807, .integer 9223372036854775808, .null,
      .integer 9223372036854775809, .integer 18446744073709551615]
    (Json.array elements).elements? = some elements ∧
    ∃ members, (Value.json (.array elements)).members? = some members ∧ members.length = 5 ∧
      members[0]? = some (.int Int64.maxValue) ∧
      members[1]? = members[3]? ∧
      (∃ v, members[3]? = some v ∧ v.number? = some (.ofInt 9223372036854775808) ∧
        v.number? ≠ some (.ofInt 9223372036854775809)) ∧
      ∃ v, members[4]? = some v ∧ v.number? = some (.ofInt 18446744073709551616) := by
  intro elements
  have helements : (Json.array elements).elements? = some elements := rfl
  obtain ⟨members, hmembers, hlength, hsingle, hpairs⟩ := integer_members helements
  have hmax : (Json.integer 9223372036854775807).Integral := ⟨by decide, by decide⟩
  have hnext : (Json.integer 9223372036854775808).Integral := ⟨by decide, by decide⟩
  have hafter : (Json.integer 9223372036854775809).Integral := ⟨by decide, by decide⟩
  have hlargest : (Json.integer 18446744073709551615).Integral := ⟨by decide, by decide⟩
  refine ⟨helements, members, hmembers, hlength, ?_, ?_, ?_, ?_⟩
  · obtain ⟨v, hv, hword, -⟩ := hsingle 0 _ rfl hmax
    have hlargestWord : Int64.ofInt 9223372036854775807 = Int64.maxValue := by decide
    rw [hv, hword (by decide), hlargestWord]
  · exact (hpairs 1 3 _ _ rfl rfl hnext hafter).mpr (by decide)
  · obtain ⟨v, hv, -, -, hnumber, -, hself⟩ := hsingle 3 _ rfl hafter
    exact ⟨v, hv, hnumber, fun h => absurd (hself.mp h) (by decide)⟩
  · obtain ⟨v, hv, -, -, hnumber, -⟩ := hsingle 4 _ rfl hlargest
    exact ⟨v, hv, hnumber⟩

end Value

end DynamicSql
