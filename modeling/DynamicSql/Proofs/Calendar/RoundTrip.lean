import DynamicSql.Calendar.Reader
import DynamicSql.Proofs.Text.Digits

/-!
# Dates and times that are read back

Every date, time of day and timestamp is read back from its text, whatever its year and however
many digits its fraction of a second takes (`Date.read?_text`, `Date.readStrict?_text`,
`Clock.read?_text`, `Timestamp.read?_text`, `Timestamp.readZoned?_zuluText`). Month, day and the
fields of a time of day fill their two digits, so nothing is asked of what follows them; a year
behind a sign and a fraction end where no digit follows.
-/

namespace DynamicSql.Calendar

open Decimal (NoDigitAhead noDigitAhead_nil noDigitAhead_cons isDigit readDigits takeWhile_digits)
open Text (skipBlanks isBlank)

section Fields

/-- Nothing is skipped in front of a character that is not blank. -/
theorem skipBlanks_cons {c : Char} (h : isBlank c = false) (cs : List Char) :
    skipBlanks (c :: cs) = c :: cs := by
  simp [skipBlanks, h]

/-- A digit is not blank. -/
theorem isBlank_of_isDigit {c : Char} (h : isDigit c = true) : isBlank c = false := by
  simp [isDigit, Char.le_def, UInt32.le_iff_toNat_le] at h
  simp [isBlank]
  omega

/-- A number begins with a digit. -/
theorem exists_cons_padded (width n : Nat) :
    ∃ c cs, padded width n = c :: cs ∧ isDigit c = true := by
  obtain ⟨c, cs, hcs⟩ := List.exists_cons_of_ne_nil (padded_ne_nil width n)
  exact ⟨c, cs, hcs, isDigit_of_mem_padded c (hcs ▸ List.mem_cons_self)⟩

/-- Nothing is skipped in front of a padded number. -/
theorem skipBlanks_padded (width n : Nat) (rest : List Char) :
    skipBlanks (padded width n ++ rest) = padded width n ++ rest := by
  obtain ⟨c, cs, hcs, hc⟩ := exists_cons_padded width n
  rw [hcs, List.cons_append, skipBlanks_cons (isBlank_of_isDigit hc)]

/-- A number that fills its width is read back, whatever follows it. -/
theorem number?_padded {width n : Nat} (hwidth : 0 < width) (h : n < 10 ^ width)
    (rest : List Char) : number? width (padded width n ++ rest) = some (n, rest) := by
  have hlength := length_padded hwidth h
  have htake : (padded width n ++ rest).take width = padded width n := by
    rw [List.take_append_of_le_length (by omega), List.take_of_length_le (by omega)]
  have hdigits : (padded width n).takeWhile isDigit = padded width n := by
    have htakeWhile : (padded width n ++ []).takeWhile isDigit = padded width n :=
      takeWhile_digits isDigit_of_mem_padded noDigitAhead_nil
    rwa [List.append_nil] at htakeWhile
  have hempty : (padded width n).isEmpty = false := by
    simp [padded_ne_nil]
  rw [number?]
  simp only [skipBlanks_padded, htake, hdigits, hempty, Bool.false_eq_true, if_false,
    readDigits_padded, List.drop_left]

/-- Any number of digits is read back behind a sign. -/
theorem signed_padded (value : Nat → Int) (width n : Nat) {rest : List Char}
    (hrest : NoDigitAhead rest) :
    year?.signed value (padded width n ++ rest) = some (value n, rest) := by
  have hempty : (padded width n).isEmpty = false := by
    simp [padded_ne_nil]
  rw [year?.signed, takeWhile_digits isDigit_of_mem_padded hrest]
  simp only [hempty, Bool.false_eq_true, if_false, readDigits_padded, List.drop_left]

/-- A year is read back where no digit follows. -/
theorem year?_yearText (year : Int) {rest : List Char} (hrest : NoDigitAhead rest) :
    year? (yearText year ++ rest) = some (year, rest) := by
  rw [yearText]
  -- Years of four digits are written without a sign, all others behind one.
  by_cases hplain : 0 ≤ year ∧ year ≤ 9999
  case pos =>
    have hread : number? 4 (padded 4 year.natAbs ++ rest) = some (year.natAbs, rest) :=
      number?_padded (by decide) (by omega) rest
    obtain ⟨c, cs, hcs, hc⟩ := exists_cons_padded 4 year.natAbs
    have hne : ∀ d : Char, isDigit d = false → c ≠ d := by
      rintro _ hd rfl
      rw [hc] at hd
      cases hd
    rw [if_pos hplain, year?, skipBlanks_padded, hcs, List.cons_append]
    rw [hcs, List.cons_append] at hread
    split
    case h_1 heq => exact absurd (List.cons.inj heq).1 (hne '-' (by decide))
    case h_2 heq => exact absurd (List.cons.inj heq).1 (hne '+' (by decide))
    case h_3 =>
      rw [hread]
      change some ((year.natAbs : Int), rest) = _
      rw [Int.natAbs_of_nonneg hplain.1]
  case neg =>
    rw [if_neg hplain]
    by_cases hneg : year < 0
    · rw [if_pos hneg, List.cons_append, year?, skipBlanks_cons (by decide)]
      change year?.signed _ _ = _
      rw [signed_padded _ _ _ hrest]
      simp only [Option.some.injEq, Prod.mk.injEq, and_true]
      omega
    · rw [if_neg hneg, List.cons_append, year?, skipBlanks_cons (by decide)]
      change year?.signed _ _ = _
      rw [signed_padded _ _ _ hrest]
      simp only [Option.some.injEq, Prod.mk.injEq, and_true]
      omega

/-- The character that is asked for is stepped over. -/
@[simp] theorem literal?_cons (c : Char) (cs : List Char) : literal? c (c :: cs) = some cs := by
  rw [literal?, if_pos rfl]

end Fields

section Dates

/-- No month has more than 31 days. -/
theorem daysInMonth_le (year : Int) (month : Nat) : daysInMonth year month ≤ 31 := by
  unfold daysInMonth
  split <;> try split
  all_goals omega

/-- Only the months up to the twelfth have days. -/
theorem le_twelve_of_daysInMonth_pos {year : Int} {month : Nat} (h : 0 < daysInMonth year month) :
    month ≤ 12 := by
  unfold daysInMonth at h
  split at h <;> omega

/-- Month and day have at most two digits. -/
theorem Date.fields_lt (d : Date) : d.month < 10 ^ 2 ∧ d.day < 10 ^ 2 := by
  have hvalid := d.valid
  simp only [isDate, Bool.and_eq_true, decide_eq_true_eq] at hvalid
  have hle := daysInMonth_le d.year d.month
  have hdays : 0 < daysInMonth d.year d.month := by omega
  have hmonth : d.month ≤ 12 := le_twelve_of_daysInMonth_pos hdays
  omega

/-- The fields of a date make that date. -/
theorem Date.of?_fields (d : Date) : Date.of? d.year d.month d.day = some d := by
  rw [Date.of?, dif_pos d.valid]

/-- A date is read back, whatever follows it, if nothing is skipped in front of a hyphen that is
already there. -/
theorem date?_chars_of_gap {gap : List Char → List Char}
    (hgap : ∀ cs, gap ('-' :: cs) = '-' :: cs) (d : Date) (rest : List Char) :
    date? gap (d.chars ++ rest) = some (d, rest) := by
  obtain ⟨hmonth, hday⟩ := d.fields_lt
  have hyear : ∀ cs, year? (yearText d.year ++ '-' :: cs) = some (d.year, '-' :: cs) := fun cs =>
    year?_yearText d.year (noDigitAhead_cons.mpr (by decide))
  rw [Date.chars]
  simp only [List.append_assoc, List.cons_append]
  simp only [date?, hyear, hgap, literal?_cons, number?_padded (by decide : 0 < 2) hmonth,
    number?_padded (by decide : 0 < 2) hday, Date.of?_fields, Option.bind_eq_bind,
    Option.bind_some]

/-- A date is read back in the loose form, whatever follows it. -/
theorem date?_chars (d : Date) (rest : List Char) :
    date? skipBlanks (d.chars ++ rest) = some (d, rest) :=
  date?_chars_of_gap (skipBlanks_cons (by decide)) d rest

/-- A date is read back from its text. -/
theorem Date.read?_text (d : Date) : Date.read? d.text = some d := by
  have hread := date?_chars d []
  rw [List.append_nil] at hread
  rw [Date.read?, Date.text, String.toList_ofList, hread]
  rfl

/-- A date is read back from its text in the strict form, too. -/
theorem Date.readStrict?_text (d : Date) : Date.readStrict? d.text = some d := by
  have hread : date? id (d.chars ++ []) = some (d, []) := date?_chars_of_gap (fun _ => rfl) d []
  rw [List.append_nil] at hread
  rw [Date.readStrict?, Date.text, String.toList_ofList, hread]
  rfl

end Dates

section Clocks

/-- What may follow a fraction of a second: no digit and no point. -/
def FractionEnds (cs : List Char) : Prop := ∀ c ∈ cs.head?, isDigit c = false ∧ c ≠ '.'

/-- Where a fraction ends, no digit follows. -/
theorem FractionEnds.noDigitAhead {cs : List Char} (h : FractionEnds cs) : NoDigitAhead cs :=
  fun c hc => (h c hc).1

/-- A fraction of `width` digits counts units of a power of ten. -/
theorem fraction?_padded {width n : Nat} (hwidth : 0 < width) (hnine : width ≤ 9)
    (h : n < 10 ^ width) {rest : List Char} (hrest : FractionEnds rest) :
    fraction? ('.' :: (padded width n ++ rest)) = some (n * Nat.pow 10 (9 - width), rest) := by
  have hlength := length_padded hwidth h
  have hempty : (padded width n).isEmpty = false := by
    simp [padded_ne_nil]
  have htake : (padded width n).take 9 = padded width n := List.take_of_length_le (by omega)
  rw [fraction?, takeWhile_digits isDigit_of_mem_padded hrest.noDigitAhead]
  simp only [hempty, Bool.false_eq_true, if_false, htake, readDigits_padded, List.drop_left]
  rw [hlength]

/-- A fraction of a second is read back, however many digits it takes. -/
theorem fraction?_fractionText {nano : Nat} (h : nano < 1000000000) {rest : List Char}
    (hrest : FractionEnds rest) :
    fraction? (fractionText nano ++ rest) = some (nano, rest) := by
  unfold fractionText
  split
  case isTrue hzero =>
    rw [List.nil_append, hzero]
    unfold fraction?
    split
    case h_1 => exact absurd rfl (hrest '.' rfl).2
    case h_2 => rfl
  split
  case isTrue hmilli =>
    rw [List.cons_append, fraction?_padded (by decide) (by decide) (by omega) hrest]
    have hunit : nano / 1000000 * Nat.pow 10 (9 - 3) = nano := by
      change nano / 1000000 * 1000000 = nano
      omega
    rw [hunit]
  split
  case isTrue hmicro =>
    rw [List.cons_append, fraction?_padded (by decide) (by decide) (by omega) hrest]
    have hunit : nano / 1000 * Nat.pow 10 (9 - 6) = nano := by
      change nano / 1000 * 1000 = nano
      omega
    rw [hunit]
  case isFalse =>
    rw [List.cons_append, fraction?_padded (by decide) (by decide) (by omega) hrest]
    exact congrArg (fun n => some (n, rest)) (Nat.mul_one nano)

/-- The fields of a time of day make that time. -/
theorem Clock.of?_fields (t : Clock) : Clock.of? t.hour t.minute t.second t.nano = some t := by
  rw [Clock.of?, dif_pos t.valid]

/-- The fields of a time of day have at most two digits, and its fraction at most nine. -/
theorem Clock.fields_lt (t : Clock) :
    t.hour < 10 ^ 2 ∧ t.minute < 10 ^ 2 ∧ t.second < 10 ^ 2 ∧ t.nano < 1000000000 := by
  have hvalid := t.valid
  simp only [isClock, Bool.and_eq_true, decide_eq_true_eq] at hvalid
  omega

/-- What stands behind hours and minutes in the text of a time of day. -/
def Clock.secondsChars (t : Clock) : List Char := ':' :: (padded 2 t.second ++ fractionText t.nano)

/-- Hours and minutes are read back, whatever follows them. -/
theorem hourMinute?_chars (t : Clock) (rest : List Char) :
    hourMinute? (t.chars ++ rest) = some (t.hour, t.minute, t.secondsChars ++ rest) := by
  obtain ⟨hhour, hminute, -, -⟩ := t.fields_lt
  have hcolon := fun cs => skipBlanks_cons (c := ':') (by decide) cs
  rw [Clock.chars, Clock.secondsChars]
  simp only [List.append_assoc, List.cons_append]
  simp only [hourMinute?, hcolon, literal?_cons, number?_padded (by decide : 0 < 2) hhour,
    number?_padded (by decide : 0 < 2) hminute, Option.bind_eq_bind, Option.bind_some]

/-- Seconds are read back with their fraction. -/
theorem seconds?_chars (t : Clock) {rest : List Char} (hrest : FractionEnds rest) :
    seconds? (t.secondsChars ++ rest) = some (t.second, t.nano, rest) := by
  obtain ⟨-, -, hsecond, hnano⟩ := t.fields_lt
  rw [Clock.secondsChars, List.cons_append, List.append_assoc, seconds?,
    skipBlanks_cons (by decide)]
  simp only [literal?_cons, number?_padded (by decide : 0 < 2) hsecond,
    fraction?_fractionText hnano hrest, Option.bind_eq_bind, Option.bind_some]

/-- A time of day is read back where its fraction ends. -/
theorem clock?_chars (t : Clock) {rest : List Char} (hrest : FractionEnds rest) :
    clock? (t.chars ++ rest) = some (t, rest) := by
  rw [clock?, hourMinute?_chars]
  simp only [seconds?_chars t hrest, Clock.of?_fields, Option.bind_eq_bind, Option.bind_some]

/-- A time of day is read back from its text. -/
theorem Clock.read?_text (t : Clock) : Clock.read? t.text = some t := by
  have hhour := hourMinute?_chars t []
  have hsecond : seconds? (t.secondsChars ++ []) = some (t.second, t.nano, []) :=
    seconds?_chars t nofun
  rw [List.append_nil] at hhour
  rw [Clock.read?, Clock.text, String.toList_ofList, hhour]
  simp only [Option.bind_eq_bind, Option.bind_some, hsecond, Clock.of?_fields]
  rfl

end Clocks

section Timestamps

/-- A timestamp is read back from its text. -/
theorem Timestamp.read?_text (t : Timestamp) : Timestamp.read? t.text = some t := by
  have hdate := date?_chars t.date ('T' :: t.clock.chars)
  have hclock : clock? (t.clock.chars ++ []) = some (t.clock, []) := clock?_chars t.clock nofun
  rw [List.append_nil] at hclock
  rw [Timestamp.read?, Timestamp.text, Timestamp.chars, String.toList_ofList, hdate]
  simp only [Option.bind_eq_bind, Option.bind_some,
    skipBlanks_cons (by decide : isBlank 'T' = false), literal?_cons, hclock]
  rfl

/-- Moving a timestamp by no minutes leaves it where it is. -/
theorem Timestamp.addMinutes?_zero (t : Timestamp) : Timestamp.addMinutes? t 0 = some t := by
  have hvalid := t.clock.valid
  simp only [isClock, Bool.and_eq_true, decide_eq_true_eq] at hvalid
  have hlow : ¬((t.clock.hour * 60 + t.clock.minute : Nat) : Int) + 0 < 0 := by omega
  have hhigh : ¬(1440 : Int) ≤ ((t.clock.hour * 60 + t.clock.minute : Nat) : Int) + 0 := by omega
  have hday : ((((t.clock.hour * 60 + t.clock.minute : Nat) : Int) + 0) % 1440).toNat =
      t.clock.hour * 60 + t.clock.minute := by omega
  have hhour : (t.clock.hour * 60 + t.clock.minute) / 60 = t.clock.hour := by omega
  have hminute : (t.clock.hour * 60 + t.clock.minute) % 60 = t.clock.minute := by omega
  simp only [Timestamp.addMinutes?, if_neg hlow, if_neg hhigh, hday, hhour, hminute,
    Clock.of?_fields, Option.bind_eq_bind, Option.bind_some]

/-- A timestamp of universal time is read back from its text. -/
theorem Timestamp.readZoned?_zuluText (t : Timestamp) :
    Timestamp.readZoned? t.zuluText = some t := by
  have hdate := date?_chars t.date ('T' :: (t.clock.chars ++ ['Z']))
  have hclock : clock? (t.clock.chars ++ ['Z']) = some (t.clock, ['Z']) :=
    clock?_chars t.clock (by rintro _ ⟨⟩; exact ⟨by decide, by decide⟩)
  have hzone : zone? ['Z'] = some (0, []) := by
    have hname : (String.ofList ['Z']).toLower ≠ "utc" := by
      change String.map Char.toLower (String.ofList ['Z']) ≠ "utc"
      rw [ne_eq, ← String.toList_inj, String.toList_map, String.toList_ofList]
      decide
    exact if_neg hname
  rw [Timestamp.readZoned?, Timestamp.zuluText, Timestamp.chars, String.toList_ofList,
    List.append_assoc, List.cons_append, hdate]
  simp only [Option.bind_eq_bind, Option.bind_some, hclock,
    skipBlanks_cons (by decide : isBlank 'Z' = false), hzone]
  exact t.addMinutes?_zero

end Timestamps

end DynamicSql.Calendar
