import Mathlib.Algebra.Order.Field.Power
import Mathlib.Data.Rat.Cast.Order
import Mathlib.Tactic.FieldSimp
import Mathlib.Tactic.Linarith
import Mathlib.Tactic.NormNum
import Mathlib.Tactic.Positivity
import Mathlib.Tactic.Ring
import TemplateAudit.Decimal.Double

/-!
# Rounding to the binary format

Every number that `ofRatio` gives is canonical (`canonical_ofRatio`), and a ratio that lies nearer to a
canonical number than to any other one is rounded to it (`ofRatio_eq`).
-/

namespace TemplateAudit

namespace Decimal

/-! ## Ratios as rational numbers -/

theorem scaled_snd_pos (n : Nat) (e : Int) : 0 < (scaled n e).2 := by
  unfold scaled
  split
  · exact Nat.one_pos
  · exact Nat.pow_pos Nat.two_pos

theorem scaledByTen_snd_pos (n : Nat) (e : Int) : 0 < (scaledByTen n e).2 := by
  unfold scaledByTen
  split
  · exact Nat.one_pos
  · exact Nat.pow_pos (by decide)

theorem value_scaled (n : Nat) (e : Int) :
    ((scaled n e).1 : ℚ) / (scaled n e).2 = n * 2 ^ e := by
  unfold scaled
  split
  · rename_i h
    obtain ⟨k, rfl⟩ := Int.eq_ofNat_of_zero_le h
    simp
  · rename_i h
    obtain ⟨k, rfl⟩ := Int.exists_eq_neg_ofNat (le_of_not_ge h)
    simp [zpow_neg, div_eq_mul_inv]

theorem value_scaledByTen (n : Nat) (e : Int) :
    ((scaledByTen n e).1 : ℚ) / (scaledByTen n e).2 = n * 10 ^ e := by
  unfold scaledByTen
  split
  · rename_i h
    obtain ⟨k, rfl⟩ := Int.eq_ofNat_of_zero_le h
    simp
  · rename_i h
    obtain ⟨k, rfl⟩ := Int.exists_eq_neg_ofNat (le_of_not_ge h)
    simp [zpow_neg, div_eq_mul_inv]

theorem lt_mul_iff_div_lt {a b n : Nat} (hb : 0 < b) : a < n * b ↔ (a : ℚ) / b < n := by
  rw [div_lt_iff₀ (by exact_mod_cast hb)]
  exact_mod_cast Iff.rfl

theorem mul_le_iff_le_div {a b n : Nat} (hb : 0 < b) : n * b ≤ a ↔ (n : ℚ) ≤ a / b := by
  rw [le_div_iff₀ (by exact_mod_cast hb)]
  exact_mod_cast Iff.rfl

/-! ## The nearest integer -/

/-- An integer is the nearest one when the quotient is at most a half away from it; at a half it has to
be even. -/
theorem roundEven_eq {num den m : Nat} (hden : 0 < den) (hlow : 2 * (m * den) ≤ 2 * num + den)
    (hhigh : 2 * num ≤ 2 * (m * den) + den)
    (hodd : m % 2 = 1 → 2 * (m * den) < 2 * num + den ∧ 2 * num < 2 * (m * den) + den) :
    roundEven num den = m := by
  have hsplit := Nat.div_add_mod num den
  have hrest := Nat.mod_lt num hden
  unfold roundEven
  generalize num / den = q at *
  generalize num % den = r at *
  rcases Nat.lt_trichotomy q m with hq | rfl | hq
  · -- the quotient is rounded up to `m`
    obtain ⟨k, rfl⟩ := Nat.exists_eq_add_of_lt hq
    have hk : k = 0 := by
      by_contra hk
      have : den * 1 ≤ den * k := Nat.mul_le_mul_left den (Nat.pos_of_ne_zero hk)
      have hexpand : (q + k + 1) * den = den * q + den * k + den := by ring
      omega
    subst hk
    have hexpand : (q + 0 + 1) * den = den * q + den := by ring
    grind
  · have hcomm : q * den = den * q := Nat.mul_comm ..
    grind
  · have : den * (m + 1) ≤ den * q := Nat.mul_le_mul_left den hq
    have hexpand : den * (m + 1) = m * den + den := by ring
    omega

/-- Below the integer after an odd one a quotient is rounded to that integer from the half on. -/
theorem roundEven_eq_succ_iff {num den m : Nat} (hden : 0 < den) (hodd : m % 2 = 1)
    (hlt : num < (m + 1) * den) : roundEven num den = m + 1 ↔ (2 * m + 1) * den ≤ 2 * num := by
  have hexpand : (2 * m + 1) * den = 2 * (m * den) + den := by ring
  have hnext : (m + 1) * den = m * den + den := by ring
  constructor
  · intro hround
    by_contra hless
    by_cases hlow : m * den ≤ num
    · have hdown : roundEven num den = m := roundEven_eq hden (by omega) (by omega) fun _ => by omega
      omega
    · have hle : num / den < m := Nat.div_lt_of_lt_mul (by rw [Nat.mul_comm]; omega)
      unfold roundEven at hround
      grind
  · intro hhalf
    exact roundEven_eq hden (by omega) (by omega) fun heven => by omega

namespace Double

/-! ## The exponent -/

/-- The number with a mantissa that was rounded to an integer, which may have one bit too many. -/
def settled (negative : Bool) (rounded : Nat) (exponent : Int) : Double :=
  if rounded = 2 * leastMantissa then
    if greatestExponent < exponent + 1 then infinite negative
    else finite negative leastMantissa (exponent + 1)
  else if greatestExponent < exponent then infinite negative
  else finite negative rounded exponent

/-- A ratio lies between two powers of two that are told by the sizes of its parts. -/
theorem ratio_bounds {num den : Nat} (hnum : 0 < num) (hden : 0 < den) :
    (2 : ℚ) ^ ((num.log2 : Int) - den.log2 - 1) < num / den ∧
      (num : ℚ) / den < 2 ^ ((num.log2 : Int) - den.log2 + 1) := by
  have hnumLow : (2 : ℚ) ^ (num.log2 : Int) ≤ num := by
    exact_mod_cast Nat.log2_self_le hnum.ne'
  have hnumHigh : (num : ℚ) < 2 ^ ((num.log2 : Int) + 1) := by
    exact_mod_cast Nat.lt_log2_self
  have hdenLow : (2 : ℚ) ^ (den.log2 : Int) ≤ den := by
    exact_mod_cast Nat.log2_self_le hden.ne'
  have hdenHigh : (den : ℚ) < 2 ^ ((den.log2 : Int) + 1) := by
    exact_mod_cast Nat.lt_log2_self
  have hpos : (0 : ℚ) < den := by exact_mod_cast hden
  constructor
  · rw [lt_div_iff₀ hpos]
    calc (2 : ℚ) ^ ((num.log2 : Int) - den.log2 - 1) * den
        < 2 ^ ((num.log2 : Int) - den.log2 - 1) * 2 ^ ((den.log2 : Int) + 1) := by
          gcongr
      _ = 2 ^ (num.log2 : Int) := by
          rw [← zpow_add₀ two_ne_zero]
          congr 1
          ring
      _ ≤ num := hnumLow
  · rw [div_lt_iff₀ hpos]
    calc (num : ℚ) < 2 ^ ((num.log2 : Int) + 1) := hnumHigh
      _ = 2 ^ ((num.log2 : Int) - den.log2 + 1) * 2 ^ (den.log2 : Int) := by
          rw [← zpow_add₀ two_ne_zero]
          congr 1
          ring
      _ ≤ 2 ^ ((num.log2 : Int) - den.log2 + 1) * den := by
          gcongr

/-- What `ofRatio` does: the ratio is counted in the unit that gives the mantissa 53 bits, or in the
least unit, and rounded. -/
theorem exists_ofRatio (negative : Bool) {num den : Nat} (hnum : 0 < num) (hden : 0 < den) :
    ∃ (e : Int) (a b : Nat), 0 < b ∧ (a : ℚ) / b = num / den / 2 ^ e ∧ leastExponent ≤ e ∧
      a < 2 * leastMantissa * b ∧ (leastExponent < e → leastMantissa * b ≤ a) ∧
      ofRatio negative num den = settled negative (roundEven a b) e := by
  obtain ⟨hlow, hhigh⟩ := ratio_bounds hnum hden
  have hunit : ∀ e : Int, 0 < den * (scaled 1 (-e)).2 := fun e =>
    Nat.mul_pos hden (scaled_snd_pos 1 (-e))
  have hvalue : ∀ e : Int, ((num * (scaled 1 (-e)).1 : Nat) : ℚ) / (den * (scaled 1 (-e)).2 : Nat) =
      num / den / 2 ^ e := by
    intro e
    have hscaled := value_scaled 1 (-e)
    rw [Nat.cast_one, one_mul, zpow_neg] at hscaled
    rw [Nat.cast_mul, Nat.cast_mul, mul_div_mul_comm, hscaled, div_eq_mul_inv _ ((2 : ℚ) ^ e)]
  -- the two bounds on the mantissa, as bounds on the ratio
  have hfits : ∀ e : Int, num * (scaled 1 (-e)).1 < 2 * leastMantissa * (den * (scaled 1 (-e)).2) ↔
      (num : ℚ) / den < 2 ^ (e + 53) := by
    intro e
    rw [lt_mul_iff_div_lt (hunit e), hvalue, div_lt_iff₀ (by positivity), zpow_add₀ two_ne_zero,
      mul_comm]
    norm_num [leastMantissa]
  have hfills : ∀ e : Int, leastMantissa * (den * (scaled 1 (-e)).2) ≤ num * (scaled 1 (-e)).1 ↔
      (2 : ℚ) ^ (e + 52) ≤ num / den := by
    intro e
    rw [mul_le_iff_le_div (hunit e), hvalue, le_div_iff₀ (by positivity), zpow_add₀ two_ne_zero,
      mul_comm]
    norm_num [leastMantissa]
  obtain ⟨low, hlowest⟩ : ∃ low : Int, low = max leastExponent ((num.log2 : Int) - den.log2 - 53) :=
    ⟨_, rfl⟩
  obtain ⟨e, he⟩ : ∃ e : Int, e =
      if num * (scaled 1 (-low)).1 / (den * (scaled 1 (-low)).2) < 2 * leastMantissa then low
      else low + 1 := ⟨_, rfl⟩
  have hchoice := he
  simp only [Nat.div_lt_iff_lt_mul (hunit low), hfits] at hchoice
  have hsize : (num : ℚ) / den < 2 ^ (low + 54) :=
    hhigh.trans_le (zpow_le_zpow_right₀ one_le_two (by omega))
  refine ⟨e, num * (scaled 1 (-e)).1, den * (scaled 1 (-e)).2, hunit e, hvalue e, ?_, ?_, ?_, ?_⟩
  · split at hchoice <;> omega
  · rw [hfits]
    split at hchoice
    · rwa [hchoice]
    · rwa [hchoice, add_assoc]
  · intro hleast
    rw [hfills]
    split at hchoice
    · exact hlow.le.trans' (zpow_le_zpow_right₀ one_le_two (by omega))
    · rename_i hlarge
      rw [hchoice, add_assoc]
      exact not_lt.1 hlarge
  · simp only [ofRatio, if_neg hnum.ne', ← hlowest, ← he]
    unfold settled
    by_cases hcarried : roundEven (num * (scaled 1 (-e)).1) (den * (scaled 1 (-e)).2) =
        2 * leastMantissa
    · simp only [if_pos hcarried]
    · simp only [if_neg hcarried]

/-! ## Canonical numbers -/

/-- A number as the format holds it: a finite one has a mantissa of 53 bits, or fewer at the least
exponent. -/
def Canonical : Double → Prop
  | finite _ m e => m < 2 * leastMantissa ∧ leastExponent ≤ e ∧ e ≤ greatestExponent ∧
      (leastExponent < e → leastMantissa ≤ m)
  | _ => True

/-- A rounded quotient is at most the integer that the quotient is below. -/
theorem roundEven_le {num den n : Nat} (h : num < n * den) : roundEven num den ≤ n := by
  have hlt : num / den < n := Nat.div_lt_of_lt_mul (by rwa [Nat.mul_comm])
  unfold roundEven
  grind

/-- A rounded quotient is at least every integer that the quotient is not below. -/
theorem le_roundEven {num den n : Nat} (hden : 0 < den) (h : n * den ≤ num) :
    n ≤ roundEven num den := by
  have hle : n ≤ num / den := (Nat.le_div_iff_mul_le hden).2 h
  unfold roundEven
  grind

/-- What is rounded is canonical. -/
theorem canonical_ofRatio (negative : Bool) (num den : Nat) (hden : 0 < den) :
    (ofRatio negative num den).Canonical := by
  by_cases hnum : num = 0
  · rw [ofRatio, if_pos hnum]
    exact ⟨by decide, le_refl _, by decide, fun h => absurd h (lt_irrefl _)⟩
  · obtain ⟨e, a, b, hb, -, hleast, hsmall, hlarge, hsettled⟩ :=
      exists_ofRatio negative (Nat.pos_of_ne_zero hnum) hden
    have hle := roundEven_le hsmall
    rw [hsettled, settled]
    split
    · split
      · trivial
      · exact ⟨by decide, by omega, by omega, fun _ => le_refl _⟩
    · split
      · trivial
      · exact ⟨by omega, hleast, by omega, fun h => le_roundEven hb (hlarge h)⟩

/-! ## Numbers that are read back -/

/-- A ratio is nearest to the number `m * 2 ^ e`.  The number below a power of two is only half as far
away as the number above it, unless the exponent is the least one. -/
structure Rounds (m : Nat) (e : Int) (q : ℚ) : Prop where
  low : (m - (if m = leastMantissa ∧ leastExponent < e then 1 else 2) / 4 : ℚ) * 2 ^ e ≤ q
  high : q ≤ (m + 1 / 2) * 2 ^ e
  odd : m % 2 = 1 → (m - 1 / 2 : ℚ) * 2 ^ e < q ∧ q < (m + 1 / 2) * 2 ^ e

theorem roundEven_eq_of_near {num den m : Nat} (hden : 0 < den) (hlow : (m : ℚ) - 1 / 2 ≤ num / den)
    (hhigh : (num : ℚ) / den ≤ m + 1 / 2)
    (hodd : m % 2 = 1 → (m : ℚ) - 1 / 2 < num / den ∧ (num : ℚ) / den < m + 1 / 2) :
    roundEven num den = m := by
  have hpos : (0 : ℚ) < den := by exact_mod_cast hden
  rw [le_div_iff₀ hpos] at hlow
  rw [div_le_iff₀ hpos] at hhigh
  simp only [lt_div_iff₀ hpos, div_lt_iff₀ hpos] at hodd
  have cast : ∀ {a b : Nat}, (a : ℚ) ≤ b → a ≤ b := fun h => by exact_mod_cast h
  have cast' : ∀ {a b : Nat}, (a : ℚ) < b → a < b := fun h => by exact_mod_cast h
  refine roundEven_eq hden (cast ?_) (cast ?_) fun h => ⟨cast' ?_, cast' ?_⟩
  · push_cast
    linarith
  · push_cast
    linarith
  · push_cast
    linarith [(hodd h).1]
  · push_cast
    linarith [(hodd h).2]

section Settling

variable {negative : Bool} {m a b : Nat} {e e' : Int} {q : ℚ}

/-- With a lesser exponent the mantissa is rounded up to a power of two and carries. -/
theorem Rounds.settled_of_lt (h : Rounds m e q) (hcanonical : (finite negative m e).Canonical)
    (hb : 0 < b) (hratio : (a : ℚ) / b = q / 2 ^ e') (hleast : leastExponent ≤ e')
    (hsmall : q < (2 * leastMantissa : Nat) * 2 ^ e') (hlt : e' < e) :
    settled negative (roundEven a b) e' = finite negative m e := by
  obtain ⟨-, -, hgreatest, hfull⟩ := hcanonical
  have hpow : (0 : ℚ) < 2 ^ e := by positivity
  have hstep : (2 : ℚ) ^ e' * 2 ≤ 2 ^ e := by
    rw [← zpow_add_one₀ two_ne_zero]
    exact zpow_le_zpow_right₀ one_le_two hlt
  have hm_eq : m = leastMantissa := by
    by_contra hne
    have hm' : (2 : ℚ) ^ 52 + 1 ≤ m := by
      have : 2 ^ 52 + 1 ≤ m := by
        have := hfull (by omega)
        rw [leastMantissa] at this hne
        omega
      exact_mod_cast this
    have hlow := h.low
    rw [if_neg (fun h => hne h.1)] at hlow
    norm_num [leastMantissa] at hsmall
    linarith [mul_nonneg (sub_nonneg.2 hm') hpow.le]
  subst hm_eq
  have hlow := h.low
  rw [if_pos ⟨rfl, by omega⟩] at hlow
  have hexponent : e' + 1 = e := by
    by_contra hne
    have hstep' : (2 : ℚ) ^ e' * 2 * 2 ≤ 2 ^ e := by
      rw [← zpow_add_one₀ two_ne_zero, ← zpow_add_one₀ two_ne_zero]
      exact zpow_le_zpow_right₀ one_le_two (by omega)
    norm_num [leastMantissa] at hsmall hlow
    linarith
  subst hexponent
  rw [zpow_add_one₀ two_ne_zero] at hlow hpow
  have hrounded : roundEven a b = 2 * leastMantissa := by
    refine roundEven_eq_of_near hb ?_ ?_ fun h => absurd h (by decide)
    · rw [hratio, le_div_iff₀ (by positivity)]
      norm_num [leastMantissa] at hlow ⊢
      linarith
    · rw [hratio, div_le_iff₀ (by positivity)]
      norm_num [leastMantissa] at hsmall ⊢
      linarith
  rw [hrounded, settled, if_pos rfl, if_neg (by omega)]

/-- With the exponent of the number the mantissa is rounded to its own. -/
theorem Rounds.settled_of_eq (h : Rounds m e q) (hcanonical : (finite negative m e).Canonical)
    (hb : 0 < b) (hratio : (a : ℚ) / b = q / 2 ^ e) :
    settled negative (roundEven a b) e = finite negative m e := by
  obtain ⟨hbits, -, hgreatest, -⟩ := hcanonical
  have hpow : (0 : ℚ) < 2 ^ e := by positivity
  have hrounded : roundEven a b = m := by
    refine roundEven_eq_of_near hb ?_ ?_ ?_
    · rw [hratio, le_div_iff₀ hpow]
      refine h.low.trans' (mul_le_mul_of_nonneg_right ?_ hpow.le)
      split <;> linarith
    · rw [hratio, div_le_iff₀ hpow]
      exact h.high
    · rw [hratio, lt_div_iff₀ hpow, div_lt_iff₀ hpow]
      exact h.odd
  rw [hrounded, settled, if_neg hbits.ne, if_neg (by omega)]

/-- A greater exponent would need a ratio that is too large. -/
theorem Rounds.le (h : Rounds m e q) (hbits : m < 2 * leastMantissa)
    (hlarge : (leastMantissa : ℚ) * 2 ^ e' ≤ q) : e' ≤ e := by
  by_contra hgt
  have hpow : (0 : ℚ) < 2 ^ e := by positivity
  have hbits' : (m : ℚ) + 1 ≤ 2 ^ 53 := by
    have : m + 1 ≤ 2 ^ 53 := by
      rw [leastMantissa] at hbits
      omega
    exact_mod_cast this
  have hstep : (2 : ℚ) ^ e * 2 ≤ 2 ^ e' := by
    rw [← zpow_add_one₀ two_ne_zero]
    exact zpow_le_zpow_right₀ one_le_two (by omega)
  have hhigh := h.high
  norm_num [leastMantissa] at hlarge
  linarith [mul_nonneg (sub_nonneg.2 hbits') hpow.le]

end Settling

theorem Rounds.pos {m : Nat} {e : Int} {q : ℚ} (hm : 0 < m) (h : Rounds m e q) : 0 < q := by
  have hm' : (1 : ℚ) ≤ m := by exact_mod_cast hm
  refine h.low.trans_lt' (mul_pos ?_ (by positivity))
  split <;> linarith

/-- A ratio is rounded to the canonical number it is nearest to. -/
theorem ofRatio_eq {negative : Bool} {m num den : Nat} {e : Int} (hm : 0 < m)
    (hcanonical : (finite negative m e).Canonical) (hden : 0 < den)
    (hrounds : Rounds m e (num / den)) : ofRatio negative num den = finite negative m e := by
  have hnum : 0 < num := by
    have hden' : (0 : ℚ) < den := by exact_mod_cast hden
    exact_mod_cast (div_pos_iff_of_pos_right hden').1 (hrounds.pos hm)
  obtain ⟨e', a, b, hb, hratio, hleast, hsmall, hlarge, hsettled⟩ :=
    exists_ofRatio negative hnum hden
  rw [lt_mul_iff_div_lt hb, hratio, div_lt_iff₀ (by positivity)] at hsmall
  rw [mul_le_iff_le_div hb, hratio, le_div_iff₀ (by positivity)] at hlarge
  rw [hsettled]
  rcases lt_trichotomy e' e with hlt | rfl | hgt
  · exact hrounds.settled_of_lt hcanonical hb hratio hleast hsmall hlt
  · exact hrounds.settled_of_eq hcanonical hb hratio
  · obtain ⟨hbits, hleast', -, -⟩ := hcanonical
    have hle := hrounds.le hbits (hlarge (by omega))
    omega

end Double

end Decimal

end TemplateAudit
