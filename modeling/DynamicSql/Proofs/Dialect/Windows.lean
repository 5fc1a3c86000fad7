import DynamicSql.Dialect
import DynamicSql.Proofs.Text.Digits
import Mathlib.Data.List.Basic
import Mathlib.Logic.ExistsUnique

/-!
# Windows of pages

The rows before a page are counted in 64-bit words, and the count stops at the largest word
(`toNat_rowsBefore`), so a page far behind the last row never shows an early one. Every row lies in
the window of exactly one page (`onPage_iff`), and both dialects state the same window, each in its
own order (`Dialect.readWindow?_window`).
-/

namespace DynamicSql

/-- The number of rows before a page, cut off at the largest 64-bit word. -/
def rowsBefore (number size : UInt64) : UInt64 :=
  UInt64.ofNat (min ((number.toNat - 1) * size.toNat) (UInt64.size - 1))

/-- The window of a page. -/
def Dialect.window (d : Dialect) (number size : UInt64) : String :=
  match d with
  | mySql => s!" LIMIT {rowsBefore number size},{size}"
  | postgreSql => s!" LIMIT {size} OFFSET {rowsBefore number size}"

variable {number size : UInt64}

/-- There is no page with the number zero, nor one of size zero. -/
theorem pageOffset_of_zero (h : number = 0 ∨ size = 0) :
    pageOffset number size = .error (.invalidPage number size) := by
  have hlt : ∀ n : UInt64, n = 0 → n < 1 := by
    rintro _ rfl
    decide
  exact if_pos (h.imp (hlt number) (hlt size))

/-- Any other page begins behind the rows of the pages before it. -/
theorem pageOffset_of_ne_zero (hnumber : number ≠ 0) (hsize : size ≠ 0) :
    pageOffset number size = .ok (rowsBefore number size) := by
  have hlt : ∀ n : UInt64, n ≠ 0 → ¬n < 1 := by
    intro n hn
    rw [UInt64.lt_iff_toNat_lt]
    rw [ne_eq, ← UInt64.toNat_inj] at hn
    simpa [Nat.lt_one_iff] using hn
  exact if_neg (not_or.mpr ⟨hlt number hnumber, hlt size hsize⟩)

/-- A page that is refused has no number or no size. -/
theorem pageOffset_eq_error {e : Error} : pageOffset number size = .error e ↔
    (number = 0 ∨ size = 0) ∧ e = .invalidPage number size := by
  by_cases hzero : number = 0 ∨ size = 0
  · rw [pageOffset_of_zero hzero, Except.error.injEq, eq_comm]
    exact (and_iff_right hzero).symm
  · obtain ⟨hnumber, hsize⟩ := not_or.mp hzero
    rw [pageOffset_of_ne_zero hnumber hsize]
    exact ⟨nofun, fun h => absurd h.1 hzero⟩

/-- A page begins somewhere just if neither its number nor its size is zero. -/
theorem pageOffset_eq_ok {offset : UInt64} : pageOffset number size = .ok offset ↔
    number ≠ 0 ∧ size ≠ 0 ∧ offset = rowsBefore number size := by
  by_cases hzero : number = 0 ∨ size = 0
  · rw [pageOffset_of_zero hzero]
    exact ⟨nofun, fun h => absurd hzero (not_or.mpr ⟨h.1, h.2.1⟩)⟩
  · obtain ⟨hnumber, hsize⟩ := not_or.mp hzero
    rw [pageOffset_of_ne_zero hnumber hsize, Except.ok.injEq, eq_comm]
    exact ⟨fun h => ⟨hnumber, hsize, h⟩, fun h => h.2.2⟩

/-- The window of a page stands behind a text. -/
theorem pageClause_of_ne_zero (d : Dialect) (sql : String) (hnumber : number ≠ 0)
    (hsize : size ≠ 0) : d.pageClause sql number size = .ok (sql ++ d.window number size) := by
  rw [Dialect.pageClause, pageOffset_of_ne_zero hnumber hsize]
  cases d <;> rfl

/-- A page that does not exist has no clause, whatever the dialect. -/
theorem pageClause_of_zero (d : Dialect) (sql : String) (h : number = 0 ∨ size = 0) :
    d.pageClause sql number size = .error (.invalidPage number size) := by
  rw [Dialect.pageClause, pageOffset_of_zero h]
  rfl

/-! ## Rows before a page -/

/-- The rows before a page are counted exactly, up to the largest number there is. -/
theorem toNat_rowsBefore (number size : UInt64) : (rowsBefore number size).toNat =
    min ((number.toNat - 1) * size.toNat) (UInt64.size - 1) := by
  have hlt : min ((number.toNat - 1) * size.toNat) (UInt64.size - 1) < UInt64.size :=
    Nat.lt_of_le_of_lt (Nat.min_le_right _ _) (by decide)
  exact UInt64.toNat_ofNat_of_lt' hlt

/-- The count of rows is exact while it is a 64-bit word, and the largest word from there on. -/
theorem toNat_rowsBefore_eq_ite (number size : UInt64) : (rowsBefore number size).toNat =
    if (number.toNat - 1) * size.toNat < UInt64.size then (number.toNat - 1) * size.toNat
    else UInt64.size - 1 := by
  rw [toNat_rowsBefore]
  split <;> omega

/-- A later page has no fewer rows before it. -/
theorem rowsBefore_mono {later : UInt64} (h : number ≤ later) :
    rowsBefore number size ≤ rowsBefore later size := by
  have hnumber : number.toNat - 1 ≤ later.toNat - 1 :=
    Nat.sub_le_sub_right (UInt64.le_iff_toNat_le.mp h) 1
  have hrows := Nat.mul_le_mul_right size.toNat hnumber
  rw [UInt64.le_iff_toNat_le, toNat_rowsBefore, toNat_rowsBefore]
  omega

/-! ## Rows of a page -/

/-- A row, counted from zero, lies in the window of a page. -/
def OnPage (number size : UInt64) (row : Nat) : Prop :=
  ∃ offset, pageOffset number size = .ok offset ∧ offset.toNat ≤ row ∧
    row < offset.toNat + size.toNat

/-- A row lies on the page whose number is the quotient by the size, counted from one. The cut does
not matter: what is cut off has more rows in front than any row has. -/
theorem onPage_iff {row : Nat} (hsize : size ≠ 0) (hrow : row + 1 < UInt64.size) :
    OnPage number size row ↔ number.toNat = row / size.toNat + 1 := by
  have hpositive : 0 < size.toNat :=
    Nat.pos_of_ne_zero fun h => hsize (UInt64.toNat_inj.mp h)
  constructor
  · rintro ⟨offset, hoffset, hlow, hhigh⟩
    obtain ⟨hnumber, -, rfl⟩ := pageOffset_eq_ok.mp hoffset
    rw [toNat_rowsBefore] at hlow hhigh
    -- The row has a number itself, so the rows in front of its page have not been cut.
    have hexact : min ((number.toNat - 1) * size.toNat) (UInt64.size - 1) =
        (number.toNat - 1) * size.toNat := by
      omega
    rw [hexact] at hlow hhigh
    have hquotient : row / size.toNat = number.toNat - 1 := by
      refine Nat.div_eq_of_lt_le hlow ?_
      rwa [Nat.succ_mul]
    have hne : number.toNat ≠ 0 := fun h => hnumber (UInt64.toNat_inj.mp h)
    omega
  · intro hnumber
    have hne : number ≠ 0 := by
      rintro rfl
      cases hnumber
    have hcount : number.toNat - 1 = row / size.toNat := by
      rw [hnumber, Nat.add_sub_cancel]
    have hoffset : (rowsBefore number size).toNat = row / size.toNat * size.toNat := by
      have hle := Nat.div_mul_le_self row size.toNat
      rw [toNat_rowsBefore, hcount]
      omega
    refine ⟨_, pageOffset_of_ne_zero hne hsize, ?_, ?_⟩
    · rw [hoffset]
      exact Nat.div_mul_le_self row size.toNat
    · rw [hoffset]
      exact Nat.lt_div_mul_add hpositive

/-- Every row that has rows behind it in a 64-bit count lies on exactly one page. -/
theorem existsUnique_onPage {row : Nat} (hsize : size ≠ 0) (hrow : row + 1 < UInt64.size) :
    ∃! number, OnPage number size row := by
  have hlt : row / size.toNat + 1 < UInt64.size :=
    Nat.lt_of_le_of_lt (Nat.succ_le_succ (Nat.div_le_self _ _)) hrow
  have hnumber : (UInt64.ofNat (row / size.toNat + 1)).toNat = row / size.toNat + 1 :=
    UInt64.toNat_ofNat_of_lt' hlt
  refine ⟨_, (onPage_iff hsize hrow).mpr hnumber, fun other hother => ?_⟩
  rw [← UInt64.toNat_inj, hnumber]
  exact (onPage_iff hsize hrow).mp hother

/-! ## Windows in both dialects -/

namespace Dialect

open Decimal

/-- What stands between the two numbers of a window. -/
def windowSeparator : Dialect → String
  | mySql => ","
  | postgreSql => " OFFSET "

/-- Read a window: the number of rows to skip and the number of rows to show. One dialect has the
first of these in front, the other one the second. -/
def readWindow? (d : Dialect) (cs : List Char) : Option (Nat × Nat) := do
  let numbers ← " LIMIT ".toList.isPrefixOf? cs
  let (first, rest) := spanDigits numbers
  let second ← d.windowSeparator.toList.isPrefixOf? rest
  if first.isEmpty || second.isEmpty || !second.all isDigit then none
  else some (match d with
    | mySql => (readDigits first, readDigits second)
    | postgreSql => (readDigits second, readDigits first))

/-- Two numbers with the separator between them are read in the order of the dialect. -/
theorem readWindow?_numbers (d : Dialect) (m n : Nat) :
    d.readWindow? (" LIMIT ".toList ++ (Nat.toDigits 10 m ++ (d.windowSeparator.toList ++
      Nat.toDigits 10 n))) = some (match d with | mySql => (m, n) | postgreSql => (n, m)) := by
  have hahead : NoDigitAhead (d.windowSeparator.toList ++ Nat.toDigits 10 n) := by
    cases d <;> exact noDigitAhead_cons.mpr (by decide)
  have hspan := spanDigits_append (isDigit_of_mem_toDigits (n := m)) hahead
  have hdigits : (Nat.toDigits 10 n).all isDigit = true :=
    List.all_eq_true.mpr isDigit_of_mem_toDigits
  have hprefix : ∀ front back : List Char, front.isPrefixOf? (front ++ back) = some back :=
    fun front back => List.isPrefixOf?_eq_some_iff_append_eq.mpr rfl
  rw [readWindow?, hprefix]
  simp only [Option.bind_eq_bind, Option.bind_some, hspan, hprefix, hdigits,
    readDigits_toDigits, List.isEmpty_eq_false_iff.mpr Nat.toDigits_ne_nil, Bool.or_false,
    Bool.not_true, Bool.false_eq_true, if_false]

/-- A number is written in its decimal digits. -/
theorem toList_toString (n : UInt64) : (toString n).toList = Nat.toDigits 10 n.toNat :=
  String.toList_ofList

/-- The window of a page states the rows before the page and the size of the page. -/
theorem readWindow?_window (d : Dialect) (number size : UInt64) :
    d.readWindow? (d.window number size).toList =
      some ((rowsBefore number size).toNat, size.toNat) := by
  cases d with
  | mySql =>
    refine Eq.trans (congrArg _ ?_) (readWindow?_numbers .mySql _ _)
    simp only [window, String.toList_append, toList_toString, List.append_assoc]
    rfl
  | postgreSql =>
    refine Eq.trans (congrArg _ ?_) (readWindow?_numbers .postgreSql _ _)
    simp only [window, String.toList_append, toList_toString, List.append_assoc]
    rfl

end Dialect

/-- The windows of the pages of one size tile the rows: each row lies on exactly one page. A page is
refused exactly if its number or its size is zero. Otherwise the rows before it are counted exactly
as long as they fit a 64-bit word, and as the largest word from there on, so a later page never
begins earlier. The clauses of both dialects carry this count and the size, or are refused alike. -/
theorem page_windows_tile :
    (∀ (size : UInt64) (row : Nat), size ≠ 0 → row + 1 < UInt64.size →
      ∃! number, OnPage number size row) ∧
    (∀ number size, (pageOffset number size = .error (.invalidPage number size) ↔
        number = 0 ∨ size = 0) ∧
      (number ≠ 0 → size ≠ 0 → ∃ offset, pageOffset number size = .ok offset ∧ offset.toNat =
        if (number.toNat - 1) * size.toNat < UInt64.size then (number.toNat - 1) * size.toNat
        else UInt64.size - 1)) ∧
    (∀ number later size offset laterOffset, number ≤ later →
      pageOffset number size = .ok offset → pageOffset later size = .ok laterOffset →
      offset ≤ laterOffset) ∧
    ∀ (d : Dialect) sql number size,
      (∀ e, pageOffset number size = .error e → d.pageClause sql number size = .error e) ∧
      ∀ offset, pageOffset number size = .ok offset → ∃ window,
        d.pageClause sql number size = .ok (sql ++ window) ∧
        d.readWindow? window.toList = some (offset.toNat, size.toNat) := by
  refine ⟨fun _ _ => existsUnique_onPage, fun number size => ⟨?_, fun hnumber hsize => ?_⟩,
    fun number later size offset laterOffset hle hoffset hlater => ?_,
    fun d sql number size => ⟨fun e he => ?_, fun offset hoffset => ?_⟩⟩
  · rw [pageOffset_eq_error]
    exact and_iff_left rfl
  · exact ⟨_, pageOffset_of_ne_zero hnumber hsize, toNat_rowsBefore_eq_ite number size⟩
  · obtain ⟨-, -, rfl⟩ := pageOffset_eq_ok.mp hoffset
    obtain ⟨-, -, rfl⟩ := pageOffset_eq_ok.mp hlater
    exact rowsBefore_mono hle
  · obtain ⟨hzero, rfl⟩ := pageOffset_eq_error.mp he
    exact pageClause_of_zero d sql hzero
  · obtain ⟨hnumber, hsize, rfl⟩ := pageOffset_eq_ok.mp hoffset
    exact ⟨_, pageClause_of_ne_zero d sql hnumber hsize, d.readWindow?_window number size⟩

/-- The last row lies on one page of the largest size, and on one page of size three. The last page
of size two has more rows in front than fit a word, so it begins behind all rows. -/
theorem largest_page_windows_tile :
    let last := UInt64.ofNat (UInt64.size - 1)
    (∃! number, OnPage number last (UInt64.size - 2)) ∧
    (∃! number, OnPage number 3 (UInt64.size - 2)) ∧
    (∃ offset, pageOffset last 2 = .ok offset ∧ offset.toNat = UInt64.size - 1) ∧
    (∃ offset, pageOffset 4 25 = .ok offset ∧ offset.toNat = 75) ∧
    (∀ offset laterOffset, pageOffset 4 25 = .ok offset → pageOffset last 25 = .ok laterOffset →
      offset ≤ laterOffset) ∧
    Dialect.postgreSql.pageClause "SELECT 1" 0 25 = .error (.invalidPage 0 25) ∧
    ∃ window, Dialect.postgreSql.pageClause "SELECT 1" 4 25 = .ok ("SELECT 1" ++ window) ∧
      Dialect.postgreSql.readWindow? window.toList = some (75, 25) := by
  intro last
  obtain ⟨htile, hoffset, hmono, hclause⟩ := page_windows_tile
  obtain ⟨_, hcut, hlargest⟩ := (hoffset last 2).2 (by decide) (by decide)
  obtain ⟨offset, hexact, hcount⟩ := (hoffset 4 25).2 (by decide) (by decide)
  have hcut' : _ = UInt64.size - 1 := hlargest.trans (by decide +kernel)
  have hcount' : offset.toNat = 75 := hcount.trans (by decide +kernel)
  obtain ⟨window, hwindow, hread⟩ := (hclause .postgreSql "SELECT 1" 4 25).2 offset hexact
  refine ⟨htile last _ (by decide) (by decide), htile 3 _ (by decide) (by decide),
    ⟨_, hcut, hcut'⟩, ⟨_, hexact, hcount'⟩,
    fun offset laterOffset => hmono 4 last 25 _ _ (by decide), ?_, window, hwindow, ?_⟩
  · refine (hclause .postgreSql "SELECT 1" 0 25).1 _ ?_
    exact (hoffset 0 25).1.mpr (Or.inl rfl)
  · rw [hread, hcount']
    rfl

end DynamicSql
