import Mathlib.Algebra.Group.Nat.Defs
import DynamicSql.Calendar.Printer
import DynamicSql.Decimal.Reader
import DynamicSql.Text.Hex

/-!
# Digits that are read back

A number is read back from its decimal digits, with or without zeros in front
(`readDigits_padded`), and so is what its last hexadecimal digits spell (`readHex?_hexDigits`).
Digits are told apart from what follows them by the first character that is none.
-/

namespace DynamicSql

namespace Decimal

/-- No digit follows. -/
def NoDigitAhead (cs : List Char) : Prop := ∀ c ∈ cs.head?, isDigit c = false

/-- At the end, no digit follows. -/
theorem noDigitAhead_nil : NoDigitAhead [] := nofun

/-- No digit follows where the next character is none. -/
theorem noDigitAhead_cons {c : Char} {cs : List Char} :
    NoDigitAhead (c :: cs) ↔ isDigit c = false := by
  simp [NoDigitAhead]

/-- Digits are a longest run where no digit follows. -/
theorem takeWhile_digits {digits rest : List Char} (h : ∀ c ∈ digits, isDigit c = true)
    (hrest : NoDigitAhead rest) : (digits ++ rest).takeWhile isDigit = digits := by
  rw [List.takeWhile_append_of_pos h]
  cases rest with
  | nil => exact List.append_nil digits
  | cons c rest =>
    have hc : ¬isDigit c = true := by simp [noDigitAhead_cons.mp hrest]
    rw [List.takeWhile_cons_of_neg hc, List.append_nil]

/-- Digits are cut off where no digit follows. -/
theorem spanDigits_append {digits rest : List Char} (h : ∀ c ∈ digits, isDigit c = true)
    (hrest : NoDigitAhead rest) : spanDigits (digits ++ rest) = (digits, rest) := by
  rw [spanDigits, takeWhile_digits h hrest, List.dropWhile_append_of_pos h]
  cases rest with
  | nil => rfl
  | cons c rest =>
    have hc : ¬isDigit c = true := by simp [noDigitAhead_cons.mp hrest]
    rw [List.dropWhile_cons_of_neg hc]

/-- The digits of a number are digits. -/
theorem isDigit_of_mem_toDigits {n : Nat} : ∀ c ∈ Nat.toDigits 10 n, isDigit c = true := by
  intro c hc
  have hdigit := Nat.isDigit_of_mem_toDigits (by decide) (by decide) hc
  simpa [Char.isDigit, isDigit, Char.le_def] using hdigit

/-- Digits are read one after the other. -/
theorem readDigits_append (a b : List Char) :
    readDigits (a ++ b) = readDigits a * 10 ^ b.length + readDigits b := by
  have hfrom : ∀ n : Nat, b.foldl (fun n c => n * 10 + digitValue c) n =
      n * 10 ^ b.length + readDigits b := by
    induction b with
    | nil => simp [readDigits]
    | cons c b ih =>
      intro n
      rw [readDigits, List.foldl_cons, List.foldl_cons, ih, ih, List.length_cons, Nat.pow_succ]
      simp only [Nat.add_mul, Nat.zero_mul, Nat.zero_add, Nat.mul_assoc, Nat.add_assoc,
        Nat.mul_comm 10]
  rw [readDigits, List.foldl_append]
  exact hfrom _

/-- A number is read back from its digits. -/
theorem readDigits_toDigits (n : Nat) : readDigits (Nat.toDigits 10 n) = n := by
  have hread := Nat.ofDigitChars_ten_toDigits (n := n)
  rw [Nat.ofDigitChars_eq_foldl] at hread
  rw [readDigits]
  simpa only [digitValue, Nat.mul_comm 10] using hread

/-- Zeros are read as zero. -/
theorem readDigits_zeros (k : Nat) : readDigits (List.replicate k '0') = 0 := by
  induction k with
  | zero => rfl
  | succ k ih =>
    rw [List.replicate_succ']
    rw [readDigits_append, ih, Nat.zero_mul]
    rfl

/-- The first digit of a positive number is not zero. -/
theorem head?_toDigits {n : Nat} (h : 0 < n) : (Nat.toDigits 10 n).head? ≠ some '0' := by
  induction n using Nat.strongRecOn with
  | ind n ih =>
    rw [Nat.toDigits_eq_if (by decide)]
    split
    case isTrue =>
      simp only [List.head?_cons, ne_eq, Option.some.injEq, Nat.digitChar_eq_zero]
      omega
    case isFalse hlarge =>
      obtain ⟨c, cs, hcs⟩ :=
        List.exists_cons_of_ne_nil (Nat.toDigits_ne_nil (n := n / 10) (b := 10))
      have hfront := ih (n / 10) (by omega) (by omega)
      rw [hcs] at hfront ⊢
      exact hfront

end Decimal

namespace Calendar

open Decimal

/-- A padded number consists of digits. -/
theorem isDigit_of_mem_padded {width n : Nat} : ∀ c ∈ padded width n, isDigit c = true := by
  intro c hc
  obtain hc | hc := List.mem_append.mp hc
  · obtain rfl := List.eq_of_mem_replicate hc
    rfl
  · exact isDigit_of_mem_toDigits c hc

/-- A number is read back from its digits behind zeros. -/
theorem readDigits_padded (width n : Nat) : readDigits (padded width n) = n := by
  rw [padded, readDigits_append, readDigits_zeros, readDigits_toDigits, Nat.zero_mul, Nat.zero_add]

/-- A number that fits is as long as its width. -/
theorem length_padded {width n : Nat} (hwidth : 0 < width) (h : n < 10 ^ width) :
    (padded width n).length = width := by
  have hlength := (Nat.length_toDigits_le_iff (by decide) hwidth).mpr h
  rw [padded, List.length_append, List.length_replicate]
  omega

/-- A padded number has a digit at least. -/
theorem padded_ne_nil (width n : Nat) : padded width n ≠ [] :=
  List.append_ne_nil_of_right_ne_nil _ Nat.toDigits_ne_nil

end Calendar

namespace Text

/-- A hexadecimal digit is read back. -/
theorem hexValue?_hexDigit {d : Nat} (h : d < 16) : hexValue? (hexDigit d) = some d := by
  have hall : ∀ d < 16, hexValue? (hexDigit d) = some d := by decide
  exact hall d h

/-- Hexadecimal digits are as many as were asked for. -/
@[simp] theorem length_hexDigits (count n : Nat) : (hexDigits count n).length = count := by
  induction count generalizing n with
  | zero => rfl
  | succ count ih => rw [hexDigits, List.length_append, ih, List.length_singleton]

/-- Hexadecimal digits are read one after the other. -/
theorem readHex?_append (acc : Nat) (a b : List Char) :
    readHex? acc (a ++ b) = (readHex? acc a).bind (readHex? · b) := by
  induction a generalizing acc with
  | nil => rfl
  | cons c a ih =>
    simp only [List.cons_append, readHex?, Option.bind_eq_bind, Option.bind_assoc, ih]

/-- The last hexadecimal digits of a number spell the number up to a power of sixteen. -/
theorem readHex?_hexDigits (acc count n : Nat) :
    readHex? acc (hexDigits count n) = some (acc * 16 ^ count + n % 16 ^ count) := by
  induction count generalizing n with
  | zero => simp [hexDigits, readHex?, Nat.mod_one]
  | succ count ih =>
    have hlast := hexValue?_hexDigit (Nat.mod_lt n (by decide : 0 < 16))
    rw [hexDigits, readHex?_append, ih]
    simp only [readHex?, hlast, Option.bind_eq_bind, Option.bind_some]
    have hmod : n % 16 ^ (count + 1) = n / 16 % 16 ^ count * 16 + n % 16 := by
      rw [Nat.pow_succ, Nat.mul_comm (16 ^ count), Nat.mod_mul]
      omega
    rw [hmod, Nat.pow_succ, Nat.add_mul, Nat.mul_assoc, Nat.add_assoc]

end Text

end DynamicSql
