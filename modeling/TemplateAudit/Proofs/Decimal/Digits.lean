import Mathlib.Algebra.Order.Field.Power
import Mathlib.Data.List.Basic
import Mathlib.Tactic.IntervalCases
import TemplateAudit.Decimal.Numeral

/-!
# Digits

What decimal digits count, and the digits of a number.
-/

namespace TemplateAudit

namespace Decimal

/-- A text of decimal digits. -/
def AllDigits (s : Text) : Prop :=
  ∀ c ∈ s, c.isDigit

theorem AllDigits.append {s t : Text} (hs : AllDigits s) (ht : AllDigits t) : AllDigits (s ++ t) :=
  List.forall_mem_append.2 ⟨hs, ht⟩

theorem allDigits_zeros (n : Nat) : AllDigits (List.replicate n '0') := by
  intro c hc
  rw [List.eq_of_mem_replicate hc]
  rfl

/-! ## What digits count -/

theorem natOfDigits_eq (s : Text) : natOfDigits s = Nat.ofDigitChars 10 s 0 := by
  rw [natOfDigits, Nat.ofDigitChars_eq_foldl]
  simp only [Nat.mul_comm]

theorem natOfDigits_append (s t : Text) :
    natOfDigits (s ++ t) = natOfDigits s * 10 ^ t.length + natOfDigits t := by
  rw [natOfDigits_eq, Nat.ofDigitChars_append, Nat.ofDigitChars_eq_ofDigitChars_zero,
    ← natOfDigits_eq, ← natOfDigits_eq, Nat.mul_comm]

@[simp]
theorem natOfDigits_zeros (n : Nat) : natOfDigits (List.replicate n '0') = 0 := by
  rw [natOfDigits_eq, Nat.ofDigitChars_replicate_zero, Nat.mul_zero]

theorem natOfDigits_cons (c : Char) (s : Text) :
    natOfDigits (c :: s) = (c.toNat - '0'.toNat) * 10 ^ s.length + natOfDigits s := by
  rw [← List.singleton_append, natOfDigits_append]
  simp [natOfDigits]

/-- Digits count less than the power of ten that their number says. -/
theorem natOfDigits_lt {s : Text} (h : AllDigits s) : natOfDigits s < 10 ^ s.length := by
  induction s with
  | nil => exact Nat.one_pos
  | cons c s ih =>
    have hc : c.toNat - '0'.toNat ≤ 9 :=
      Nat.sub_le_sub_right (Char.isDigit_iff_toNat.1 (h c List.mem_cons_self)).2 _
    have hs := ih fun d hd => h d (List.mem_cons_of_mem _ hd)
    rw [natOfDigits_cons, List.length_cons, Nat.pow_succ]
    have := Nat.mul_le_mul_right (10 ^ s.length) hc
    omega

/-- Digits that do not begin with a zero count at least the power of ten of the first. -/
theorem pow_le_natOfDigits {c : Char} {s : Text} (hc : c.isDigit) (hzero : c ≠ '0') :
    10 ^ s.length ≤ natOfDigits (c :: s) := by
  have hne : c.toNat ≠ '0'.toNat := fun heq => hzero (Char.toNat_inj.1 heq)
  have hpos : 1 ≤ c.toNat - '0'.toNat := by
    have := (Char.isDigit_iff_toNat.1 hc).1
    omega
  rw [natOfDigits_cons]
  have := Nat.mul_le_mul_right (10 ^ s.length) hpos
  omega

/-- Zeros in front do not count. -/
theorem natOfDigits_dropWhile_zero (s : Text) :
    natOfDigits (s.dropWhile (· == '0')) = natOfDigits s := by
  induction s with
  | nil => rfl
  | cons c s ih =>
    rw [List.dropWhile_cons]
    split
    · rename_i h
      rw [ih, natOfDigits_cons, beq_iff_eq.1 h]
      simp
    · rfl

/-! ## The digits of a number -/

theorem natOfDigits_ofNat (n : Nat) : natOfDigits (Text.ofNat n) = n := by
  rw [natOfDigits_eq, Text.ofNat, Nat.ofDigitChars_ten_toDigits]

theorem allDigits_ofNat (n : Nat) : AllDigits (Text.ofNat n) :=
  fun _ hc => Nat.isDigit_of_mem_toDigits (by decide) (by decide) hc

/-- The digits of a number other than zero do not begin with a zero. -/
theorem ofNat_eq_cons {n : Nat} (h : n ≠ 0) :
    ∃ c s, Text.ofNat n = c :: s ∧ c.isDigit ∧ c ≠ '0' := by
  induction n using Nat.strongRecOn with
  | ind n ih =>
    by_cases hlt : n < 10
    · refine ⟨n.digitChar, [], Nat.toDigits_of_lt_base hlt, ?_⟩
      interval_cases n <;> simp_all
    · obtain ⟨c, s, hs, hc⟩ := ih (n / 10) (by omega) (by omega)
      refine ⟨c, s ++ [Nat.digitChar (n % 10)], ?_, hc⟩
      rw [Text.ofNat, Nat.toDigits_of_base_le (by decide) (by omega), ← Text.ofNat, hs]
      rfl

end Decimal

end TemplateAudit
