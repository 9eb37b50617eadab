import TemplateAudit.Text.Blank
import TemplateAudit.Text.Letter

/-!
# Letters and white space

No character of a word and no digit is white space (`isBlank_of_isWordChar`, `isBlank_of_isDecimalDigit`):
the tables of letters and numerals leave out the code points of white space.
-/

namespace TemplateAudit

namespace Text

/-! ## Ranges without white space -/

/-- Does a range of code points beyond ASCII lie between two neighbours among the white space? -/
def isClearRange (range : Nat × Nat) : Bool :=
  0xA0 < range.1 &&
    (range.2 < 0x1680 || (0x1680 < range.1 && range.2 < 0x2000) ||
      (0x200A < range.1 && range.2 < 0x2028) || (0x205F < range.1 && range.2 < 0x3000) ||
      0x3000 < range.1)

theorem isBlank_of_isClearRange {range : Nat × Nat} (h : isClearRange range = true) {c : Char}
    (hleft : range.1 ≤ c.toNat) (hright : c.toNat ≤ range.2) : isBlank c = false := by
  simp only [isClearRange, Bool.and_eq_true, Bool.or_eq_true, decide_eq_true_eq] at h
  simp only [isBlank, Bool.or_eq_false_iff, Bool.and_eq_false_iff, decide_eq_false_iff_not]
  omega

theorem isBlank_of_inRanges {ranges : List (Nat × Nat)} (hclear : ranges.all isClearRange = true)
    {c : Char} (h : inRanges ranges c.toNat = true) : isBlank c = false := by
  obtain ⟨range, hrange, hin⟩ := List.any_eq_true.1 h
  simp only [Bool.and_eq_true, decide_eq_true_eq] at hin
  exact isBlank_of_isClearRange (List.all_eq_true.1 hclear range hrange) hin.1 hin.2

theorem letterRanges_clear : letterRanges.all isClearRange = true := by decide +kernel

theorem numeralRanges_clear : numeralRanges.all isClearRange = true := by decide +kernel

theorem decimalZeros_clear :
    (decimalZeros.map fun nought => (nought, nought + 9)).all isClearRange = true := by
  decide +kernel

/-! ## Classes of characters -/

theorem toNat_of_isAlpha {c : Char} (h : c.isAlpha = true) :
    (65 ≤ c.toNat ∧ c.toNat ≤ 90) ∨ (97 ≤ c.toNat ∧ c.toNat ≤ 122) := by
  rcases Bool.or_eq_true_iff.1 h with hupper | hlower
  · obtain ⟨hlow, hhigh⟩ := of_decide_eq_true hupper
    exact .inl ⟨UInt32.le_iff_toNat_le.1 hlow, UInt32.le_iff_toNat_le.1 hhigh⟩
  · obtain ⟨hlow, hhigh⟩ := Bool.and_eq_true_iff.1 hlower
    exact .inr ⟨UInt32.le_iff_toNat_le.1 (of_decide_eq_true hlow),
      UInt32.le_iff_toNat_le.1 (of_decide_eq_true hhigh)⟩

theorem toNat_of_isDigit {c : Char} (h : c.isDigit = true) : 48 ≤ c.toNat ∧ c.toNat ≤ 57 := by
  simpa [Char.isDigit, UInt32.le_iff_toNat_le] using h

theorem toNat_of_isAlphanum {c : Char} (h : c.isAlphanum = true) : 48 ≤ c.toNat ∧ c.toNat ≤ 122 := by
  rcases Bool.or_eq_true_iff.1 h with hletter | hdigit
  · have := toNat_of_isAlpha hletter
    omega
  · have := toNat_of_isDigit hdigit
    omega

/-- An ASCII letter or digit stands in words. -/
theorem isWordChar_of_isAlphanum {c : Char} (h : c.isAlphanum = true) : isWordChar c = true := by
  have := toNat_of_isAlphanum h
  rw [isWordChar, isLetterOrNumeral, if_pos (by omega), h, Bool.or_true]

theorem isWordChar_of_beginsIdentifier {c : Char} (h : beginsIdentifier c = true) :
    isWordChar c = true := by
  rcases Bool.or_eq_true_iff.1 h with hletter | hunderscore
  · exact isWordChar_of_isAlphanum (by simp [Char.isAlphanum, hletter])
  · rw [isWordChar, hunderscore, Bool.true_or]

/-- No digit of any script begins an identifier. -/
theorem beginsIdentifier_of_isDecimalDigit {c : Char} (h : isDecimalDigit c = true) :
    beginsIdentifier c = false := by
  refine Bool.eq_false_iff.2 fun hbegins => ?_
  rw [isDecimalDigit, digitValue?] at h
  rcases Bool.or_eq_true_iff.1 hbegins with hletter | hunderscore
  · have hcode := toNat_of_isAlpha hletter
    rw [if_pos (by omega)] at h
    split at h
    · rename_i hten
      have := toNat_of_isDigit hten
      omega
    · cases h
  · rw [beq_iff_eq.1 hunderscore] at h
    revert h
    decide

/-- An ASCII letter or digit is no white space. -/
theorem isBlank_of_isAlphanum {c : Char} (h : c.isAlphanum = true) : isBlank c = false := by
  have := toNat_of_isAlphanum h
  simp only [isBlank, Bool.or_eq_false_iff, Bool.and_eq_false_iff, decide_eq_false_iff_not]
  omega

theorem isBlank_of_isWordChar {c : Char} (h : isWordChar c = true) : isBlank c = false := by
  simp only [isWordChar, Bool.or_eq_true, beq_iff_eq, isLetterOrNumeral] at h
  rcases h with rfl | h
  · decide
  · split at h
    · exact isBlank_of_isAlphanum h
    · rcases Bool.or_eq_true_iff.1 h with hletter | hnumeral
      · exact isBlank_of_inRanges letterRanges_clear hletter
      · exact isBlank_of_inRanges numeralRanges_clear hnumeral

theorem isBlank_of_isDecimalDigit {c : Char} (h : isDecimalDigit c = true) : isBlank c = false := by
  rw [isDecimalDigit, digitValue?] at h
  split at h
  · split at h
    · rename_i hdigit
      exact isBlank_of_isAlphanum (by simp [Char.isAlphanum, hdigit])
    · cases h
  · rw [Option.isSome_map] at h
    obtain ⟨nought, hnought⟩ := Option.isSome_iff_exists.1 h
    have hrange : isClearRange (nought, nought + 9) = true :=
      List.all_eq_true.1 decimalZeros_clear _ (List.mem_map_of_mem (List.mem_of_find?_eq_some hnought))
    have hin := List.find?_some hnought
    simp only [Bool.and_eq_true, decide_eq_true_eq] at hin
    exact isBlank_of_isClearRange hrange hin.1 hin.2

end Text

end TemplateAudit
