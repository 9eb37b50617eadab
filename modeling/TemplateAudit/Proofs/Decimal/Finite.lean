import TemplateAudit.Disk.Time
import TemplateAudit.Proofs.Decimal.Rounding

/-!
# What stays finite

A ratio below a power of two is rounded to a number that is at most this power, so sums and products of
numbers that are not too large stay finite.  It follows that all times that a disk can hold are told as finite
numbers (`Time.IsHeld.isFinite_toDouble`).
-/

namespace TemplateAudit

namespace Decimal

namespace Double

/-- A finite number whose distance from zero is at most `q`. -/
def Within (q : ℚ) : Double → Prop
  | finite _ m e => (m : ℚ) * 2 ^ e ≤ q
  | _ => False

theorem Within.isFinite {x : Double} {q : ℚ} (h : x.Within q) : x.isFinite := by
  cases x with
  | finite => rfl
  | infinite => cases h
  | nan => cases h

variable {k : Int} {p q : ℚ} {x y : Double}

/-- A number with up to 53 bits at an exponent that is not too great. -/
theorem within_settled {negative : Bool} {n : Nat} {e : Int} (hn : n ≤ 2 * leastMantissa) (he : e ≤ k)
    (hgreatest : k < greatestExponent) : (settled negative n e).Within (2 ^ (k + 53)) := by
  have hfull : ((2 * leastMantissa : Nat) : ℚ) * 2 ^ e ≤ 2 ^ (k + 53) := by
    have hpow : ((2 * leastMantissa : Nat) : ℚ) = 2 ^ (53 : Int) := by norm_num [leastMantissa]
    rw [hpow, ← zpow_add₀ two_ne_zero]
    exact zpow_le_zpow_right₀ one_le_two (by omega)
  rw [settled]
  split
  · rw [if_neg (by omega), Within, zpow_add_one₀ two_ne_zero]
    refine hfull.trans' (le_of_eq ?_)
    push_cast
    ring
  · rw [if_neg (by omega), Within]
    refine hfull.trans' ?_
    gcongr

/-- What is below a power of two is rounded to at most this power. -/
theorem within_ofRatio (k : Int) {negative : Bool} {num den : Nat} (hden : 0 < den) (hleast : leastExponent ≤ k)
    (hgreatest : k < greatestExponent) (h : (num : ℚ) / den < 2 ^ (k + 53)) :
    (ofRatio negative num den).Within (2 ^ (k + 53)) := by
  by_cases hnum : num = 0
  · rw [ofRatio, if_pos hnum, zeroWith, Within]
    simp only [Nat.cast_zero, zero_mul]
    positivity
  · obtain ⟨e, a, b, hb, hratio, -, hsmall, hlarge, hsettled⟩ :=
      exists_ofRatio negative (Nat.pos_of_ne_zero hnum) hden
    rw [hsettled]
    refine within_settled (roundEven_le hsmall) ?_ hgreatest
    -- a greater exponent would leave the mantissa with fewer bits than it has
    by_contra hgreat
    have hbits : ((leastMantissa : Nat) : ℚ) ≤ num / den / 2 ^ e := by
      rw [← hratio]
      exact (mul_le_iff_le_div hb).1 (hlarge (by omega))
    rw [le_div_iff₀ (by positivity)] at hbits
    have hmantissa : (leastMantissa : ℚ) * 2 ^ e = 2 ^ (e + 52) := by
      rw [zpow_add₀ two_ne_zero, mul_comm]
      norm_num [leastMantissa]
    rw [hmantissa] at hbits
    have hlt := (zpow_lt_zpow_iff_right₀ (one_lt_two : (1 : ℚ) < 2)).1 (hbits.trans_lt h)
    omega

theorem Within.times? (k : Int) (hx : x.Within p) (hy : y.Within q) (hleast : leastExponent ≤ k)
    (hgreatest : k < greatestExponent) (h : p * q < 2 ^ (k + 53)) :
    ∃ z, x.times? y = some z ∧ z.Within (2 ^ (k + 53)) := by
  cases x with
  | finite n m e =>
    cases y with
    | finite n' m' e' =>
      refine ⟨_, rfl, within_ofRatio k (scaled_snd_pos _ _) hleast hgreatest (h.trans_le' ?_)⟩
      rw [value_scaled, Nat.cast_mul, zpow_add₀ two_ne_zero, mul_mul_mul_comm]
      have hnonneg : (0 : ℚ) ≤ (m : ℚ) * 2 ^ e := by positivity
      exact mul_le_mul hx hy (by positivity) (hnonneg.trans hx)
    | infinite => cases hy
    | nan => cases hy
  | infinite => cases hx
  | nan => cases hx

/-- A number is the multiple of a power of two that it is counted as. -/
theorem natAbs_multipleOf (negative : Bool) (m : Nat) {e least : Int} (h : least ≤ e) :
    ((multipleOf least negative m e).natAbs : ℚ) * 2 ^ least = m * 2 ^ e := by
  have hvalue := value_scaled m (e - least)
  have hwhole : (scaled m (e - least)).2 = 1 := by rw [scaled, if_pos (by omega)]
  have habs : (multipleOf least negative m e).natAbs = (scaled m (e - least)).1 := by
    rw [multipleOf]
    cases negative
    · rfl
    · exact Int.natAbs_neg _
  rw [hwhole, Nat.cast_one, div_one] at hvalue
  rw [habs, hvalue, mul_assoc, ← zpow_add₀ two_ne_zero, sub_add_cancel]

theorem Within.plus? (k : Int) (hx : x.Within p) (hy : y.Within q) (hleast : leastExponent ≤ k)
    (hgreatest : k < greatestExponent) (h : p + q < 2 ^ (k + 53)) :
    ∃ z, x.plus? y = some z ∧ z.Within (2 ^ (k + 53)) := by
  cases x with
  | finite n m e =>
    cases y with
    | finite n' m' e' =>
      refine ⟨_, rfl, within_ofRatio k (scaled_snd_pos _ _) hleast hgreatest (h.trans_le' ?_)⟩
      rw [value_scaled]
      generalize hfirst : multipleOf (min e e') n m e = a
      generalize hsecond : multipleOf (min e e') n' m' e' = b
      calc ((a + b).natAbs : ℚ) * 2 ^ min e e'
          ≤ ((a.natAbs + b.natAbs : Nat) : ℚ) * 2 ^ min e e' := by
            gcongr
            exact Int.natAbs_add_le a b
        _ = m * 2 ^ e + m' * 2 ^ e' := by
            rw [Nat.cast_add, add_mul, ← hfirst, ← hsecond, natAbs_multipleOf n m (min_le_left e e'),
              natAbs_multipleOf n' m' (min_le_right e e')]
        _ ≤ p + q := add_le_add hx hy
    | infinite => cases hy
    | nan => cases hy
  | infinite => cases hx
  | nan => cases hx

/-! ## Integers -/

theorem isFinite_settled {negative : Bool} {n : Nat} {e : Int} :
    (settled negative n e).isFinite = true ↔
      e < greatestExponent ∨ e = greatestExponent ∧ n ≠ 2 * leastMantissa := by
  rw [settled]
  split
  · split <;> simp [isFinite] <;> omega
  · split <;> simp [isFinite] <;> omega

/-- The least integer that is rounded to an infinity: half a unit below the first power of two that is
no finite number. -/
def leastBeyond : Nat :=
  (2 ^ 54 - 1) * 2 ^ 970

theorem cast_leastBeyond : (leastBeyond : ℚ) = (2 ^ 54 - 1) * 2 ^ (970 : Int) := by
  rw [leastBeyond, Nat.cast_mul, Nat.cast_sub Nat.one_le_two_pow, Nat.cast_pow, Nat.cast_pow,
    zpow_ofNat]
  rfl

theorem leastBeyond_pos : 0 < leastBeyond := by
  rw [← Nat.cast_pos (α := ℚ), cast_leastBeyond]
  have : (1 : ℚ) < 2 ^ 54 := by norm_num
  exact mul_pos (sub_pos.2 this) (zpow_pos two_pos _)

/-- **An integer has a finite number nearest to it unless it is beyond the range.** -/
theorem isFinite_ofInt_iff (n : Int) : (ofInt n).isFinite = true ↔ n.natAbs < leastBeyond := by
  by_cases hn : n.natAbs = 0
  · rw [ofInt, ofRatio, if_pos hn, hn]
    exact iff_of_true rfl leastBeyond_pos
  obtain ⟨e, a, b, hb, hratio, -, hsmall, hlarge, hsettled⟩ :=
    exists_ofRatio (decide (n < 0)) (Nat.pos_of_ne_zero hn) one_pos
  have hvalue : (n.natAbs : ℚ) = a / b * 2 ^ e := by
    rw [hratio, Nat.cast_one, div_one, div_mul_cancel₀ _ (by positivity)]
  rw [ofInt, hsettled, isFinite_settled, ← Nat.cast_lt (α := ℚ), cast_leastBeyond, hvalue]
  -- everything is counted in half a unit of the greatest exponent
  have hpos : (0 : ℚ) < 2 ^ (970 : Int) := zpow_pos two_pos _
  have hunit : (2 : ℚ) ^ greatestExponent = 2 * 2 ^ (970 : Int) := zpow_one_add₀ two_ne_zero 970
  have hnext : (2 : ℚ) ^ (greatestExponent + 1) = 4 * 2 ^ (970 : Int) := by
    rw [zpow_add_one₀ two_ne_zero, hunit]
    ring
  have hless : e < greatestExponent → (2 : ℚ) ^ e ≤ 2 ^ (970 : Int) := fun h =>
    zpow_le_zpow_right₀ one_le_two (Int.le_sub_one_of_lt h)
  generalize (2 : ℚ) ^ (970 : Int) = half at *
  rcases lt_trichotomy e greatestExponent with hlow | rfl | hhigh
  · have hmantissa : (a : ℚ) / b < 2 ^ 53 :=
      ((lt_mul_iff_div_lt hb).1 hsmall).trans_eq (by norm_num [leastMantissa])
    refine iff_of_true (.inl hlow) ?_
    calc (a : ℚ) / b * 2 ^ e ≤ 2 ^ 53 * half := by gcongr; exact hless hlow
      _ < (2 ^ 54 - 1) * half := by gcongr; norm_num
  · -- the mantissa carries from half a unit on
    have hcarry := roundEven_eq_succ_iff (m := 2 * leastMantissa - 1) hb (by decide) hsmall
    have hless : 2 * a < (2 * (2 * leastMantissa - 1) + 1) * b ↔ (a : ℚ) / b * 2 < 2 ^ 54 - 1 := by
      rw [lt_mul_iff_div_lt hb, Nat.cast_mul, Nat.cast_ofNat, mul_div_assoc, mul_comm (2 : ℚ)]
      norm_num [leastMantissa]
    have hround : roundEven a b ≠ 2 * leastMantissa ↔ (a : ℚ) / b * 2 < 2 ^ 54 - 1 := by
      rw [← hless, ← Nat.not_le]
      exact not_congr hcarry
    rw [hunit, ← mul_assoc, mul_lt_mul_iff_left₀ hpos, ← hround]
    simp
  · have hmantissa : (2 : ℚ) ^ 52 ≤ a / b :=
      le_trans (by norm_num [leastMantissa])
        ((mul_le_iff_le_div hb).1 (hlarge (lt_trans (by decide) hhigh)))
    have hpow : 4 * half ≤ (2 : ℚ) ^ e := hnext ▸ zpow_le_zpow_right₀ one_le_two hhigh
    refine iff_of_false (by omega) (not_lt.2 ?_)
    calc (2 ^ 54 - 1) * half ≤ 2 ^ 52 * 4 * half := by gcongr; norm_num
      _ = 2 ^ 52 * (4 * half) := mul_assoc _ _ _
      _ ≤ (a : ℚ) / b * 2 ^ e :=
        mul_le_mul hmantissa hpow (by positivity) (hmantissa.trans' (by positivity))

end Double

end Decimal

namespace Disk

open Decimal

/-- A time as disks hold it: its seconds are counted in 64 bits, and its nanoseconds make no second. -/
def Time.IsHeld (time : Time) : Prop :=
  time.seconds.natAbs < 2 ^ 64 ∧ time.nanoseconds < inSecond

instance (time : Time) : Decidable time.IsHeld :=
  inferInstanceAs (Decidable (_ ∧ _))

/-- **The times that disks hold are told as finite numbers.** -/
theorem Time.IsHeld.isFinite_toDouble {time : Time} (h : time.IsHeld) : time.toDouble.isFinite := by
  obtain ⟨hseconds, hnanoseconds⟩ := h
  have hwhole : (Double.ofInt time.seconds).Within (2 ^ ((11 : Int) + 53)) := by
    refine Double.within_ofRatio 11 one_pos (by decide) (by decide) ?_
    rw [Nat.cast_one, div_one]
    exact_mod_cast hseconds
  have hcount : (Double.ofInt time.nanoseconds).Within (2 ^ ((-23 : Int) + 53)) := by
    refine Double.within_ofRatio (-23) one_pos (by decide) (by decide) ?_
    rw [Nat.cast_one, div_one, Int.natAbs_natCast]
    have hbelow : (time.nanoseconds : ℚ) < 2 ^ 30 := by
      exact_mod_cast hnanoseconds.trans (by decide : inSecond < 2 ^ 30)
    exact hbelow.trans_eq (by norm_num)
  have hunit : (Double.ofDecimal false 1 1 (-9)).Within (2 ^ ((-53 : Int) + 53)) := by
    have hratio : Double.ofDecimal false 1 1 (-9) = Double.ofRatio false 1 (10 ^ 9) := by decide
    rw [hratio]
    exact Double.within_ofRatio (-53) (by decide) (by decide) (by decide) (by norm_num)
  have hproduct : (2 : ℚ) ^ ((-53 : Int) + 53) * 2 ^ ((-23 : Int) + 53) < 2 ^ ((-22 : Int) + 53) := by
    norm_num
  obtain ⟨part, hpart, hsmall⟩ := hunit.times? (-22) hcount (by decide) (by decide) hproduct
  have hsum : (2 : ℚ) ^ ((11 : Int) + 53) + 2 ^ ((-22 : Int) + 53) < 2 ^ ((12 : Int) + 53) := by
    norm_num
  obtain ⟨told, htold, hfinite⟩ := hwhole.plus? 12 hsmall (by decide) (by decide) hsum
  rw [toDouble, hpart, Option.bind_some, htold]
  exact hfinite.isFinite

end Disk

end TemplateAudit
