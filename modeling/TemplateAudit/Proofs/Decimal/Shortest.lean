import TemplateAudit.Decimal.Shortest
import TemplateAudit.Proofs.Decimal.Rounding

/-!
# The digits of a number read back as the number

The digits that `shortest` finds lie in the range of ratios that are rounded to the number
(`shortest_rounds`).  Seventeen digits are always enough: the grid on which they lie is finer than the
distance to the next number.
-/

namespace TemplateAudit

namespace Decimal

variable {m : Nat} {e : Int}

/-! ## The range -/

theorem value_low (hm : 0 < m) : ((rangeOf m e).low : ℚ) / (rangeOf m e).den =
    (m - (if m = Double.leastMantissa ∧ Double.leastExponent < e then 1 else 2) / 4 : ℚ) * 2 ^ e := by
  have hunit := value_scaled 1 (e - 2)
  rw [zpow_sub₀ two_ne_zero] at hunit
  simp only [rangeOf, Nat.cast_mul, mul_div_assoc, hunit]
  split
  · rw [Nat.cast_sub (by omega)]
    push_cast
    ring
  · rw [Nat.cast_sub (by omega)]
    push_cast
    ring

theorem value_value : ((rangeOf m e).value : ℚ) / (rangeOf m e).den = m * 2 ^ e := by
  have hunit := value_scaled 1 (e - 2)
  rw [zpow_sub₀ two_ne_zero] at hunit
  simp only [rangeOf, Nat.cast_mul, mul_div_assoc, hunit]
  push_cast
  ring

theorem value_high : ((rangeOf m e).high : ℚ) / (rangeOf m e).den = (m + 1 / 2) * 2 ^ e := by
  have hunit := value_scaled 1 (e - 2)
  rw [zpow_sub₀ two_ne_zero] at hunit
  simp only [rangeOf, Nat.cast_mul, mul_div_assoc, hunit]
  push_cast
  ring

theorem den_pos : 0 < (rangeOf m e).den :=
  scaled_snd_pos 1 (e - 2)

theorem le_iff_div_le_div {a b c d : Nat} (hb : 0 < b) (hd : 0 < d) :
    a * d ≤ c * b ↔ (a : ℚ) / b ≤ c / d := by
  rw [div_le_div_iff₀ (by exact_mod_cast hb) (by exact_mod_cast hd)]
  exact_mod_cast Iff.rfl

theorem lt_iff_div_lt_div {a b c d : Nat} (hb : 0 < b) (hd : 0 < d) :
    a * d < c * b ↔ (a : ℚ) / b < c / d := by
  rw [div_lt_div_iff₀ (by exact_mod_cast hb) (by exact_mod_cast hd)]
  exact_mod_cast Iff.rfl

/-- Which digits are held to read back: those between the bounds, which count when the mantissa is
even. -/
theorem holds_iff (hm : 0 < m) (digits : Nat) (exponent : Int) :
    (rangeOf m e).holds digits exponent ↔
      if m % 2 = 0 then
        (m - (if m = Double.leastMantissa ∧ Double.leastExponent < e then 1 else 2) / 4 : ℚ) * 2 ^ e ≤
          digits * 10 ^ exponent ∧ (digits : ℚ) * 10 ^ exponent ≤ (m + 1 / 2) * 2 ^ e
      else
        (m - (if m = Double.leastMantissa ∧ Double.leastExponent < e then 1 else 2) / 4 : ℚ) * 2 ^ e <
          digits * 10 ^ exponent ∧ (digits : ℚ) * 10 ^ exponent < (m + 1 / 2) * 2 ^ e := by
  have hpos := scaledByTen_snd_pos digits exponent
  have hclosed : (rangeOf m e).closed = decide (m % 2 = 0) := rfl
  rw [← value_low hm, ← value_high, ← value_scaledByTen]
  simp only [Range.holds, hclosed, decide_eq_true_eq]
  split
  · rw [Bool.and_eq_true, decide_eq_true_eq, decide_eq_true_eq, le_iff_div_le_div den_pos hpos,
      le_iff_div_le_div hpos den_pos]
  · rw [Bool.and_eq_true, decide_eq_true_eq, decide_eq_true_eq, lt_iff_div_lt_div den_pos hpos,
      lt_iff_div_lt_div hpos den_pos]

/-- Digits that are held to read back are nearest to the number. -/
theorem rounds_of_holds (hm : 0 < m) {digits : Nat} {exponent : Int}
    (h : (rangeOf m e).holds digits exponent) : Double.Rounds m e (digits * 10 ^ exponent) := by
  rw [holds_iff hm] at h
  split at h
  · exact ⟨h.1, h.2, fun hodd => by omega⟩
  · rename_i hodd
    refine ⟨h.1.le, h.2.le, fun _ => ⟨?_, h.2⟩⟩
    have hm' : m ≠ Double.leastMantissa := fun hm' => hodd (hm' ▸ by decide)
    have hlow := h.1
    rw [if_neg fun h => hm' h.1] at hlow
    norm_num at hlow ⊢
    exact hlow

/-- Digits a little above the number read back. -/
theorem holds_of_above (hm : 0 < m) {digits : Nat} {exponent : Int}
    (hlow : (m : ℚ) * 2 ^ e < digits * 10 ^ exponent)
    (hhigh : (digits : ℚ) * 10 ^ exponent < (m + 1 / 2) * 2 ^ e) :
    (rangeOf m e).holds digits exponent := by
  have hpow : (0 : ℚ) < 2 ^ e := by positivity
  have hbound : (m - (if m = Double.leastMantissa ∧ Double.leastExponent < e then 1 else 2) / 4 : ℚ) *
      2 ^ e < digits * 10 ^ exponent := by
    refine hlow.trans_le' (mul_le_mul_of_nonneg_right ?_ hpow.le)
    split <;> norm_num
  rw [holds_iff hm]
  split
  · exact ⟨hbound.le, hhigh.le⟩
  · exact ⟨hbound, hhigh⟩

/-! ## The grids -/

/-- What is found on a grid reads back. -/
theorem holds_of_nearest? {range : Range} {exponent : Int} {digits : Nat}
    (h : range.nearest? exponent = some digits) : range.holds digits exponent ∧ digits ≠ 0 := by
  simp only [Range.nearest?] at h
  grind

/-- A grid that is finer than half the distance to the next number has a point that reads back. -/
theorem isSome_nearest? (hm : 0 < m) {exponent : Int} (h : (10 : ℚ) ^ exponent < 2 ^ e / 2) :
    ((rangeOf m e).nearest? exponent).isSome := by
  have hpow : (0 : ℚ) < 10 ^ exponent := by positivity
  have hunit := value_scaledByTen 1 exponent
  rw [Nat.cast_one, one_mul] at hunit
  have hpos : 0 < (rangeOf m e).den * (scaledByTen 1 exponent).1 := by
    refine Nat.mul_pos den_pos (Nat.pos_of_ne_zero fun hzero => ?_)
    rw [hzero, Nat.cast_zero, zero_div] at hunit
    exact hpow.ne hunit
  have hquotient : (((rangeOf m e).value * (scaledByTen 1 exponent).2 : Nat) : ℚ) /
      ((rangeOf m e).den * (scaledByTen 1 exponent).1 : Nat) = m * 2 ^ e / 10 ^ exponent := by
    rw [← value_value, ← hunit, Nat.cast_mul, Nat.cast_mul, div_div_div_eq]
  have hbelow := Nat.div_mul_le_self ((rangeOf m e).value * (scaledByTen 1 exponent).2)
    ((rangeOf m e).den * (scaledByTen 1 exponent).1)
  have habove := (Nat.lt_mul_div_succ ((rangeOf m e).value * (scaledByTen 1 exponent).2) hpos).trans_eq
    (Nat.mul_comm ..)
  rw [lt_mul_iff_div_lt hpos, hquotient, div_lt_iff₀ hpow] at habove
  rw [mul_le_iff_le_div hpos, hquotient, le_div_iff₀ hpow] at hbelow
  have hholds := holds_of_above hm habove (by push_cast; linarith)
  simp only [Range.nearest?]
  grind

/-- The search ends on a grid that has a point which reads back, when the last grid has one. -/
theorem nearest?_search {range : Range} {fuel : Nat} {exponent : Int}
    (h : (range.nearest? (exponent - fuel)).isSome) :
    range.nearest? (range.search fuel exponent).2 = some (range.search fuel exponent).1 := by
  induction fuel generalizing exponent with
  | zero =>
    obtain ⟨digits, hdigits⟩ := Option.isSome_iff_exists.1 h
    rw [Nat.cast_zero, sub_zero] at hdigits
    rw [Range.search, hdigits]
    rfl
  | succ fuel ih =>
    rw [Range.search]
    split
    · assumption
    · refine ih ?_
      rwa [sub_sub, add_comm 1, ← Nat.cast_succ]

/-! ## The magnitude -/

/-- Three hundred and one thousand and thirty tenths of a millionth are about the logarithm of two. -/
theorem two_pow_le_ten_pow : (2 : ℚ) ^ 100000 ≤ 10 ^ 30103 := by
  have h : 2 ^ 100000 ≤ 10 ^ 30103 := by decide +kernel
  have hcast : ((2 ^ 100000 : Nat) : ℚ) ≤ (10 ^ 30103 : Nat) := Nat.cast_le.2 h
  rwa [Nat.cast_pow, Nat.cast_pow] at hcast

theorem ten_pow_le_two_pow : (10 : ℚ) ^ 30103 ≤ 2 ^ 100001 := by
  have h : 10 ^ 30103 ≤ 2 ^ 100001 := by decide +kernel
  have hcast : ((10 ^ 30103 : Nat) : ℚ) ≤ (2 ^ 100001 : Nat) := Nat.cast_le.2 h
  rwa [Nat.cast_pow, Nat.cast_pow] at hcast

/-- The guess of the power of ten is at most one power of two off. -/
theorem pow_guess_le {d : Int} (hd : d ≤ 100000) : (10 : ℚ) ^ (d * 30103 / 100000) ≤ 2 ^ (d + 1) := by
  have hguess : d * 30103 / 100000 * (100000 : Nat) ≤ (30103 : Nat) * d := by
    have := Int.ediv_mul_le (d * 30103) (show (100000 : Int) ≠ 0 by decide)
    push_cast
    omega
  have hpowers : ((10 : ℚ) ^ (d * 30103 / 100000)) ^ 100000 ≤ (2 ^ (d + 1)) ^ 100000 := by
    rw [← zpow_natCast, ← zpow_mul, ← zpow_natCast, ← zpow_mul]
    refine (zpow_le_zpow_right₀ (by norm_num) hguess).trans ?_
    rcases le_total 0 d with h | h
    · obtain ⟨n, rfl⟩ := Int.eq_ofNat_of_zero_le h
      calc (10 : ℚ) ^ ((30103 : Nat) * (n : Int)) = (10 ^ 30103) ^ n := by
            rw [zpow_mul, zpow_natCast, zpow_natCast]
        _ ≤ (2 ^ 100001) ^ n := pow_le_pow_left₀ (by positivity) ten_pow_le_two_pow n
        _ = 2 ^ ((100001 : Nat) * (n : Int)) := by
            rw [zpow_mul, zpow_natCast, zpow_natCast]
        _ ≤ 2 ^ (((n : Int) + 1) * (100000 : Nat)) :=
            zpow_le_zpow_right₀ one_le_two (by push_cast; omega)
    · obtain ⟨n, rfl⟩ := Int.exists_eq_neg_ofNat h
      calc (10 : ℚ) ^ ((30103 : Nat) * (-n : Int)) = ((10 ^ 30103) ^ n)⁻¹ := by
            rw [zpow_mul, zpow_natCast, zpow_neg, zpow_natCast]
        _ ≤ ((2 ^ 100000) ^ n)⁻¹ :=
            inv_anti₀ (by positivity) (pow_le_pow_left₀ (by positivity) two_pow_le_ten_pow n)
        _ = 2 ^ ((100000 : Nat) * (-n : Int)) := by
            rw [zpow_mul, zpow_natCast, zpow_neg, zpow_natCast]
        _ ≤ 2 ^ ((-(n : Int) + 1) * (100000 : Nat)) :=
            zpow_le_zpow_right₀ one_le_two (by push_cast; omega)
  exact le_of_pow_le_pow_left₀ (by decide) (by positivity) hpowers

theorem value_lt (hcanonical : (Double.finite false m e).Canonical) :
    (m : ℚ) * 2 ^ e < 2 ^ (1024 : Int) := by
  obtain ⟨hbits, -, hgreatest, -⟩ := hcanonical
  have hbits' : (m : ℚ) < 2 ^ (53 : Int) := by
    rw [Double.leastMantissa] at hbits
    exact_mod_cast hbits
  calc (m : ℚ) * 2 ^ e < 2 ^ (53 : Int) * 2 ^ e := by gcongr
    _ ≤ 2 ^ (53 : Int) * 2 ^ (971 : Int) := by
        gcongr
        · exact one_le_two
        · exact hgreatest
    _ = 2 ^ (1024 : Int) := by
        rw [← zpow_add₀ two_ne_zero]
        norm_num

/-- What is rounded to a canonical number is not beyond the format. -/
theorem Double.Rounds.lt {q : ℚ} (hm : 0 < m) (hcanonical : (Double.finite false m e).Canonical)
    (h : Double.Rounds m e q) : q < 2 ^ (1025 : Int) := by
  have hm' : (1 : ℚ) ≤ m := by exact_mod_cast hm
  have hpow : (0 : ℚ) < 2 ^ e := by positivity
  have hvalue := value_lt hcanonical
  have hhalf : (m + 1 / 2 : ℚ) * 2 ^ e ≤ m * 2 ^ e * 2 := by
    linarith [mul_le_mul_of_nonneg_right hm' hpow.le]
  calc q ≤ (m + 1 / 2) * 2 ^ e := h.high
    _ ≤ m * 2 ^ e * 2 := hhalf
    _ < 2 ^ (1024 : Int) * 2 := by gcongr
    _ = 2 ^ (1025 : Int) := (zpow_add_one₀ two_ne_zero 1024).symm

/-- What is rounded to a canonical number other than zero is not too small for the format. -/
theorem Double.Rounds.ge {q : ℚ} (hm : 0 < m) (hcanonical : (Double.finite false m e).Canonical)
    (h : Double.Rounds m e q) : 2 ^ (-1075 : Int) ≤ q := by
  have hm' : (1 : ℚ) ≤ m := by exact_mod_cast hm
  have hpow : (0 : ℚ) < 2 ^ e := by positivity
  obtain ⟨-, hleast, -, -⟩ := hcanonical
  calc (2 : ℚ) ^ (-1075 : Int) ≤ 2 ^ (e - 1) := zpow_le_zpow_right₀ one_le_two (by
        rw [Double.leastExponent] at hleast
        omega)
    _ = 1 / 2 * 2 ^ e := by
        rw [zpow_sub_one₀ two_ne_zero]
        ring
    _ ≤ (m - (if m = Double.leastMantissa ∧ Double.leastExponent < e then 1 else 2) / 4) * 2 ^ e := by
        refine mul_le_mul_of_nonneg_right ?_ hpow.le
        split <;> linarith
    _ ≤ q := h.low

/-- The magnitude is not above the number. -/
theorem pow_magnitude_le (hm : 0 < m) (hcanonical : (Double.finite false m e).Canonical) :
    (10 : ℚ) ^ (rangeOf m e).magnitude ≤ m * 2 ^ e := by
  have hatMost : ∀ k : Int, (scaledByTen 1 k).1 * (rangeOf m e).den ≤
      (rangeOf m e).value * (scaledByTen 1 k).2 ↔ (10 : ℚ) ^ k ≤ m * 2 ^ e := by
    intro k
    rw [le_iff_div_le_div (scaledByTen_snd_pos 1 k) den_pos, value_scaledByTen, value_value,
      Nat.cast_one, one_mul]
  have hvalue : 0 < (rangeOf m e).value := by
    have hpos : (0 : ℚ) < (rangeOf m e).value / (rangeOf m e).den := by
      rw [value_value]
      positivity
    exact_mod_cast (div_pos_iff_of_pos_right (by exact_mod_cast den_pos)).1 hpos
  have hden : 0 < (rangeOf m e).den := den_pos
  have hbelow := (Double.ratio_bounds hvalue hden).1
  rw [value_value] at hbelow
  simp only [Range.magnitude, hatMost, decide_eq_true_eq]
  generalize ((rangeOf m e).value.log2 : Int) - (rangeOf m e).den.log2 = d at *
  have hd : d ≤ 100000 := by
    have hlt := (zpow_lt_zpow_iff_right₀ one_lt_two).1 (hbelow.trans (value_lt hcanonical))
    omega
  split
  · assumption
  split
  · assumption
  split
  · assumption
  split
  · assumption
  have hguess := pow_guess_le hd
  rw [zpow_sub₀ (by norm_num), div_le_iff₀ (by positivity)]
  rw [zpow_sub₀ two_ne_zero, zpow_one] at hbelow
  rw [zpow_add₀ two_ne_zero, zpow_one] at hguess
  norm_num
  linarith

/-! ## The digits -/

/-- Zeros at the end do not count. -/
theorem value_withoutZeros (fuel digits : Nat) (exponent : Int) :
    ((withoutZeros fuel digits exponent).1 : ℚ) * 10 ^ (withoutZeros fuel digits exponent).2 =
      digits * 10 ^ exponent := by
  induction fuel generalizing digits exponent with
  | zero => rfl
  | succ fuel ih =>
    rw [withoutZeros]
    split
    · rename_i h
      obtain ⟨k, rfl⟩ := Nat.dvd_of_mod_eq_zero h.2
      rw [ih, Nat.mul_div_cancel_left _ (by decide), zpow_add_one₀ (by norm_num)]
      push_cast
      ring
    · rfl

/-- The shortest digits read back as the number. -/
theorem shortest_rounds (hm : 0 < m) (hcanonical : (Double.finite false m e).Canonical) :
    Double.Rounds m e ((shortest m e).1 * 10 ^ (shortest m e).2) ∧ (shortest m e).1 ≠ 0 := by
  have hmagnitude := pow_magnitude_le hm hcanonical
  have hfine : (10 : ℚ) ^ ((rangeOf m e).magnitude - (17 : Nat)) < 2 ^ e / 2 := by
    obtain ⟨hbits, -⟩ := hcanonical
    have hbits' : (m : ℚ) < 2 ^ 53 := by
      rw [Double.leastMantissa] at hbits
      exact_mod_cast hbits
    have hpow : (0 : ℚ) < 2 ^ e := by positivity
    have hproduct : (m : ℚ) * 2 ^ e < 2 ^ 53 * 2 ^ e := by gcongr
    rw [zpow_sub₀ (by norm_num), div_lt_iff₀ (by positivity)]
    norm_num at hproduct ⊢
    linarith
  have hsearch := nearest?_search (isSome_nearest? hm hfine)
  obtain ⟨hholds, hne⟩ := holds_of_nearest? hsearch
  have hrounds := rounds_of_holds hm hholds
  simp only [shortest]
  rw [value_withoutZeros]
  refine ⟨hrounds, fun hzero => ?_⟩
  have hvalue := value_withoutZeros 20 ((rangeOf m e).search 17 (rangeOf m e).magnitude).1
    ((rangeOf m e).search 17 (rangeOf m e).magnitude).2
  rw [hzero, Nat.cast_zero, zero_mul, zero_eq_mul, Nat.cast_eq_zero] at hvalue
  exact hvalue.elim hne (zpow_ne_zero _ (by norm_num))

end Decimal

end TemplateAudit
