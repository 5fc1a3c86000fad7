import DynamicSql.Decimal.Binary64

/-!
# Integers rounded to doubles

A double holds fifty-three binary digits. An integer with `53 + k` digits therefore becomes the
nearest multiple of `2 ^ k`, a half going to the even one (`value?_ofInt`), which is the integer
itself only where `2 ^ k` divides it (`roundTo_eq_self_iff`) and is at most half of `2 ^ k` away
(`roundTo_near`). Integers with one nearest multiple share their double (`ofInt_eq_ofInt_iff`).
-/

namespace DynamicSql.Decimal.Binary64

/-- The number that a finite double stands for. -/
def value? (x : Binary64) : Option Rat :=
  if x.isFinite then
    let m : Int := if x.negative then -x.mantissa else x.mantissa
    some (mkRat (m * Nat.pow 2 x.exponent.toNat) (Nat.pow 2 (-x.exponent).toNat))
  else none

/-- The multiple of `d` nearest to `n`, a half going to the even multiple. -/
def roundTo (d n : Nat) : Nat := divRound n d * d

section Nearest

variable {d n : Nat}

/-- A quotient is rounded down or up, to the side on which the remainder is at most a half. -/
theorem divRound_cases (n d : Nat) :
    (divRound n d = n / d ∧ 2 * (n % d) ≤ d) ∨ (divRound n d = n / d + 1 ∧ d ≤ 2 * (n % d)) := by
  unfold divRound
  dsimp only
  split
  case isTrue hdown => exact .inl ⟨rfl, by omega⟩
  case isFalse hdown =>
  split
  case isTrue hup => exact .inr ⟨rfl, by omega⟩
  case isFalse hup =>
    obtain heven | hodd := Nat.mod_two_eq_zero_or_one (n / d)
    · exact .inl ⟨by omega, by omega⟩
    · exact .inr ⟨by omega, by omega⟩

/-- The nearest multiple is at most half a step away. -/
theorem roundTo_near (hd : 0 < d) (n : Nat) : 2 * ((roundTo d n : Int) - n).natAbs ≤ d := by
  have hn : n / d * d + n % d = n := Nat.div_add_mod' n d
  have hmod : n % d < d := Nat.mod_lt n hd
  unfold roundTo
  obtain ⟨hdown, hhalf⟩ | ⟨hup, hhalf⟩ := divRound_cases n d
  · rw [hdown]
    omega
  · rw [hup, Nat.succ_mul (n / d) d]
    omega

/-- What is rounded to multiples of a number is one. -/
theorem dvd_roundTo (d n : Nat) : d ∣ roundTo d n := Nat.dvd_mul_left d _

/-- A number is its own nearest multiple exactly where it is a multiple. -/
theorem roundTo_eq_self_iff (hd : 0 < d) : roundTo d n = n ↔ d ∣ n := by
  refine ⟨fun h => h ▸ dvd_roundTo d n, fun h => ?_⟩
  have hmod : n % d = 0 := Nat.mod_eq_zero_of_dvd h
  obtain ⟨hdown, -⟩ | ⟨-, hhalf⟩ := divRound_cases n d
  · rw [roundTo, hdown, Nat.div_mul_cancel h]
  · omega

/-- Rounding stays above a whole number that is below the quotient. -/
theorem le_divRound {a : Nat} (hd : 0 < d) (h : a * d ≤ n) : a ≤ divRound n d := by
  have hquotient : a ≤ n / d := (Nat.le_div_iff_mul_le hd).mpr h
  obtain ⟨heq, -⟩ | ⟨heq, -⟩ := divRound_cases n d <;> omega

/-- Rounding stays below a whole number that is above the quotient. -/
theorem divRound_le {b : Nat} (hd : 0 < d) (h : n ≤ b * d) : divRound n d ≤ b := by
  have hquotient : n / d ≤ b := Nat.div_le_of_le_mul (by rwa [Nat.mul_comm])
  obtain ⟨heq, -⟩ | ⟨heq, hhalf⟩ := divRound_cases n d
  · omega
  · -- A quotient that is rounded up has a remainder, so it is not `b` itself.
    have hn : n / d * d + n % d = n := Nat.div_add_mod' n d
    have hne : n / d ≠ b := by
      rintro rfl
      omega
    omega

end Nearest

/-- The bits of a magnitude stand behind a sign bit that is not set. -/
theorem bits_ofMagnitude {m : Nat} (h : m < Nat.pow 2 63) :
    (ofMagnitude false m).bits.toNat = m := by
  have hpow : Nat.pow 2 63 = 9223372036854775808 := rfl
  rw [ofMagnitude, if_neg Bool.false_ne_true, Nat.zero_add, UInt64.toNat_ofNat_of_lt']
  show m < 18446744073709551616
  omega

/-- The number of a double whose exponent field and fraction are known, where it is an integer. -/
theorem value?_of_bits {x : Binary64} {k fraction : Nat}
    (hbits : x.bits.toNat = (k + 1075) * Nat.pow 2 52 + fraction) (hk : k ≤ 971)
    (hfraction : fraction < Nat.pow 2 52) :
    x.value? = some (.ofInt ((Nat.pow 2 52 + fraction) * Nat.pow 2 k : Nat)) := by
  have h52 : Nat.pow 2 52 = 4503599627370496 := rfl
  have h63 : Nat.pow 2 63 = 9223372036854775808 := rfl
  have h11 : Nat.pow 2 11 = 2048 := rfl
  have hfield : x.exponentField = k + 1075 := by
    rw [exponentField, hbits, h11]
    rw [h52] at hfraction ⊢
    omega
  have hstored : x.fraction = fraction := by
    rw [Binary64.fraction, hbits, Nat.mul_add_mod_self_right, Nat.mod_eq_of_lt hfraction]
  have hsign : x.negative = false := by
    rw [negative, hbits]
    refine decide_eq_false ?_
    rw [h52] at hfraction ⊢
    omega
  have hfinite : x.isFinite = true := by
    rw [isFinite, hfield]
    exact decide_eq_true (by omega)
  have hmantissa : x.mantissa = Nat.pow 2 52 + fraction := by
    rw [mantissa, hfield, hstored, if_neg (by omega)]
  have hexponent : x.exponent = k := by
    rw [exponent, hfield]
    omega
  have hneg : (-(k : Int)).toNat = 0 := by omega
  rw [value?, if_pos hfinite, hsign, hmantissa, hexponent, hneg, Int.toNat_natCast]
  exact congrArg some (Rat.mkRat_one _)

/-- A mantissa of fifty-three digits on top of an exponent is the double that has both; a mantissa
that was rounded up to `2 ^ 53` carries into the exponent. -/
theorem value?_ofMagnitude {k q : Nat} (hk : k ≤ 970) (hlow : Nat.pow 2 52 ≤ q)
    (hhigh : q ≤ Nat.pow 2 53) :
    (ofMagnitude false ((k + 1074) * Nat.pow 2 52 + q)).value? =
      some (.ofInt (q * Nat.pow 2 k : Nat)) := by
  have h53 : Nat.pow 2 53 = Nat.pow 2 52 * 2 := rfl
  have hbits : (ofMagnitude false ((k + 1074) * Nat.pow 2 52 + q)).bits.toNat =
      (k + 1074) * Nat.pow 2 52 + q := by
    have h52 : Nat.pow 2 52 = 4503599627370496 := rfl
    have h63 : Nat.pow 2 63 = 9223372036854775808 := rfl
    refine bits_ofMagnitude ?_
    rw [h52] at h53 ⊢
    omega
  have hcarry : (k + 1075) * Nat.pow 2 52 = (k + 1074) * Nat.pow 2 52 + Nat.pow 2 52 :=
    Nat.succ_mul (k + 1074) _
  obtain hfull | rfl : q < Nat.pow 2 53 ∨ q = Nat.pow 2 53 := Nat.lt_or_eq_of_le hhigh
  case inl =>
    obtain ⟨fraction, rfl⟩ := Nat.exists_eq_add_of_le hlow
    have hfield := hbits.trans (show _ = (k + 1075) * Nat.pow 2 52 + fraction by
      rw [hcarry, Nat.add_assoc])
    exact value?_of_bits hfield (by omega) (by omega)
  case inr =>
    have hcarry' : (k + 1 + 1075) * Nat.pow 2 52 = (k + 1075) * Nat.pow 2 52 + Nat.pow 2 52 := by
      rw [Nat.add_right_comm k 1 1075, Nat.succ_mul]
    have hfield := hbits.trans (show _ = (k + 1 + 1075) * Nat.pow 2 52 by
      rw [hcarry', hcarry, Nat.add_assoc, h53, Nat.mul_two])
    have hvalue := value?_of_bits (hfield.trans (Nat.add_zero _).symm) (by omega) (by decide)
    have hpow : Nat.pow 2 (k + 1) = 2 * Nat.pow 2 k := Nat.pow_succ'
    rw [hvalue, h53, Nat.add_zero, hpow, Nat.mul_assoc]

/-- The greatest power of two below an integer is found. -/
theorem floorLog2_one {n m : Nat} (hlow : Nat.pow 2 m ≤ n) (hhigh : n < Nat.pow 2 (m + 1)) :
    floorLog2 n 1 = m := by
  have hne : n ≠ 0 := Nat.ne_of_gt (Nat.lt_of_lt_of_le (Nat.two_pow_pos m) hlow)
  have hlog : n.log2 = m := (Nat.log2_eq_iff hne).mpr ⟨hlow, hhigh⟩
  have hone : Nat.log2 1 = 0 := by decide
  have hneg : (-(m : Int)).toNat = 0 := by omega
  rw [floorLog2, hlog, hone]
  show (if 1 * Nat.pow 2 ((m : Int) - 0).toNat ≤ n * Nat.pow 2 (-((m : Int) - 0)).toNat
    then (m : Int) - 0 else (m : Int) - 0 - 1) = m
  rw [Int.sub_zero, hneg, Int.toNat_natCast, Nat.one_mul, if_pos]
  exact Nat.le_trans hlow (Nat.le_of_eq (Nat.mul_one n).symm)

section Integers

/-- A number has `k` binary digits more than the mantissa of a double. -/
structure HasDigits (k n : Nat) : Prop where
  le : Nat.pow 2 (52 + k) ≤ n
  lt : n < Nat.pow 2 (53 + k)

variable {n k : Nat}

namespace HasDigits

/-- Fifty-three digits are left of the number, unless rounding carries. -/
theorem le_divRound (h : HasDigits k n) : Nat.pow 2 52 ≤ divRound n (Nat.pow 2 k) := by
  have hscaled : Nat.pow 2 (52 + k) = Nat.pow 2 52 * Nat.pow 2 k := Nat.pow_add ..
  exact Binary64.le_divRound (Nat.two_pow_pos k) (hscaled ▸ h.le)

/-- A number of `k` digits too many fills the significand at most, also when it is rounded up. -/
theorem divRound_le (h : HasDigits k n) : divRound n (Nat.pow 2 k) ≤ Nat.pow 2 53 := by
  have hscaled : Nat.pow 2 (53 + k) = Nat.pow 2 53 * Nat.pow 2 k := Nat.pow_add ..
  exact Binary64.divRound_le (Nat.two_pow_pos k) (Nat.le_of_lt (hscaled ▸ h.lt))

/-- The exponent of a number is told by its digits. -/
theorem floorLog2_eq (h : HasDigits k n) : floorLog2 n 1 = (52 + k : Nat) :=
  floorLog2_one h.le (Nat.add_right_comm 52 1 k ▸ h.lt)

end HasDigits

/-- The bits of an integer of `53 + k` binary digits as a double. -/
theorem ofInt_eq_ofMagnitude (hk : k ≤ 970) (h : HasDigits k n) :
    ofInt n = ofMagnitude false ((k + 1074) * Nat.pow 2 52 + divRound n (Nat.pow 2 k)) := by
  have hne : n ≠ 0 := Nat.ne_of_gt (Nat.lt_of_lt_of_le (Nat.two_pow_pos _) h.le)
  have hsign : decide ((n : Int) < 0) = false := decide_eq_false (by omega)
  have hexponent : max (-1074) (((52 + k : Nat) : Int) - 52) = k := by omega
  have hfield : ((k : Int) + 1074).toNat = k + 1074 := by omega
  have hscaled : divRoundScaled n 1 k = divRound n (Nat.pow 2 k) := by
    have hneg : (-(k : Int)).toNat = 0 := by omega
    rw [divRoundScaled, hneg, Int.toNat_natCast, Nat.one_mul]
    exact congrArg (divRound · (Nat.pow 2 k)) (Nat.mul_one n)
  have hfinite : ¬2047 * Nat.pow 2 52 ≤ (k + 1074) * Nat.pow 2 52 + divRound n (Nat.pow 2 k) := by
    have h52 : Nat.pow 2 52 = 4503599627370496 := rfl
    have h53 : Nat.pow 2 53 = 9007199254740992 := rfl
    have hround := h.divRound_le
    rw [h52]
    omega
  rw [ofInt, Int.natAbs_natCast, hsign, ofRatio, if_neg hne, h.floorLog2_eq]
  dsimp only
  rw [hexponent, hfield, hscaled, if_neg hfinite]

/-- An integer of `53 + k` binary digits becomes the double of the nearest multiple of `2 ^ k`. -/
theorem value?_ofInt (hk : k ≤ 970) (h : HasDigits k n) :
    (ofInt n).value? = some (.ofInt (roundTo (Nat.pow 2 k) n)) := by
  rw [ofInt_eq_ofMagnitude hk h, value?_ofMagnitude hk h.le_divRound h.divRound_le]
  rfl

/-- Two integers of `53 + k` binary digits become the same double exactly where they have the same
nearest multiple. -/
theorem ofInt_eq_ofInt_iff {n' : Nat} (hk : k ≤ 970) (h : HasDigits k n) (h' : HasDigits k n') :
    ofInt n = ofInt n' ↔ roundTo (Nat.pow 2 k) n = roundTo (Nat.pow 2 k) n' := by
  constructor
  · intro heq
    have hvalue := value?_ofInt hk h
    rw [heq, value?_ofInt hk h', Option.some_inj] at hvalue
    have hnum := congrArg Rat.num hvalue
    exact (Int.ofNat_inj.mp hnum).symm
  · intro heq
    have hquotient := Nat.eq_of_mul_eq_mul_right (Nat.two_pow_pos k) heq
    rw [ofInt_eq_ofMagnitude hk h, ofInt_eq_ofMagnitude hk h', hquotient]

end Integers

end DynamicSql.Decimal.Binary64
