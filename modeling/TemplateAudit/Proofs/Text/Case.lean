import Mathlib
import TemplateAudit.Proofs.Text.Letter
import TemplateAudit.Text.Case

/-!
# Small letters

ASCII text without capitals is in small letters already (`lower_eq_self`), and no character has a sign or
a digit in its small form that it is not itself (`eq_of_mem_lower`).  Where a text in small letters, each
character taken by itself, ends in an ASCII word without a `k`, the word stands there with ASCII letters
(`suffix_map_toLower`): beyond ASCII only the Kelvin sign has an ASCII letter for its small form.  Where such
a text first holds a word that does not end in an `i`, it ends in it (`suffix_of_infix_lowerEach`), although
the dotted capital i has a small form of two characters.  Two ASCII characters are the same but for case just
when they have one small form (`sameButCase_iff_of_ascii`).
-/

namespace TemplateAudit

namespace Text

/-! ## ASCII characters -/

theorem isUpper_iff {c : Char} : c.isUpper = true ↔ 65 ≤ c.toNat ∧ c.toNat ≤ 90 := by
  simp [Char.isUpper, UInt32.le_iff_toNat_le, ← Char.toNat_val]

theorem toLower_of_not_isUpper {c : Char} (h : c.isUpper = false) : c.toLower = c := by
  refine dif_neg fun hupper => ?_
  rw [Char.isUpper, decide_eq_false_iff_not] at h
  exact h hupper

theorem toNat_toLower_of_isUpper {c : Char} (h : c.isUpper = true) : c.toLower.toNat = c.toNat + 32 := by
  have hrange := isUpper_iff.1 h
  have hdef : c.toLower.val = c.val + 32 := by
    rw [Char.toLower, dif_pos (of_decide_eq_true h)]
    rfl
  rw [← Char.toNat_val, hdef, UInt32.toNat_add, ← Char.toNat_val]
  rw [← Char.toNat_val] at hrange
  change (c.val.toNat + 32) % 2 ^ 32 = _
  omega

/-! ## Text in small letters -/

/-- Is the character an ASCII character and no capital? -/
def IsSmall (c : Char) : Prop :=
  c.toNat < 128 ∧ c.isUpper = false

theorem lowerWithin_of_ascii {c : Char} (h : c.toNat < 128) (before after : Text) :
    lowerWithin before c after = [c.toLower] := by
  rw [lowerWithin, if_neg (by omega), if_neg (by omega), lowerChar, if_pos h]

theorem lowerFrom_of_ascii {s : Text} (h : ∀ c ∈ s, c.toNat < 128) (before : Text) :
    lowerFrom before s = s.map Char.toLower := by
  induction s generalizing before with
  | nil => rfl
  | cons c s ih =>
    obtain ⟨hc, hs⟩ := List.forall_mem_cons.1 h
    rw [lowerFrom, lowerWithin_of_ascii hc, ih hs, List.map_cons, List.singleton_append]

/-- ASCII text is put in small letters character by character. -/
theorem lower_of_ascii {s : Text} (h : ∀ c ∈ s, c.toNat < 128) : lower s = s.map Char.toLower :=
  lowerFrom_of_ascii h []

theorem lowerWithin_of_isSmall {c : Char} (h : IsSmall c) (before after : Text) :
    lowerWithin before c after = [c] := by
  rw [lowerWithin_of_ascii h.1, toLower_of_not_isUpper h.2]

theorem lowerFrom_eq_self {s : Text} (h : ∀ c ∈ s, IsSmall c) (before : Text) :
    lowerFrom before s = s := by
  induction s generalizing before with
  | nil => rfl
  | cons c s ih =>
    obtain ⟨hc, hs⟩ := List.forall_mem_cons.1 h
    rw [lowerFrom, lowerWithin_of_isSmall hc, ih hs, List.singleton_append]

/-- A text without capitals and without characters beyond ASCII is in small letters. -/
theorem lower_eq_self {s : Text} (h : ∀ c ∈ s, IsSmall c) : lower s = s :=
  lowerFrom_eq_self h []

/-- A small letter or a digit is in its small form. -/
theorem isSmall_of_isLower_or_isDigit {c : Char} (h : c.isLower = true ∨ c.isDigit = true) :
    IsSmall c := by
  have hrange : (97 ≤ c.toNat ∧ c.toNat ≤ 122) ∨ (48 ≤ c.toNat ∧ c.toNat ≤ 57) := by
    refine h.imp (fun hlower => ?_) toNat_of_isDigit
    obtain ⟨hlow, hhigh⟩ := Bool.and_eq_true_iff.1 hlower
    exact ⟨UInt32.le_iff_toNat_le.1 (of_decide_eq_true hlow),
      UInt32.le_iff_toNat_le.1 (of_decide_eq_true hhigh)⟩
  refine ⟨by omega, Bool.eq_false_iff.2 fun hupper => ?_⟩
  have := isUpper_iff.1 hupper
  omega

/-! ## Signs -/

/-- No character beyond ASCII is moved to a sign or a digit. -/
theorem lowerRuns_clear :
    lowerRuns.all (fun run => decide (64 ≤ (run.1 : Int) + run.2.2.2)) = true := by
  decide +kernel

theorem shiftOf_lowerRuns {n : Nat} (h : 128 ≤ n) : 64 ≤ (n : Int) + shiftOf lowerRuns n := by
  rw [shiftOf]
  split
  · rename_i run hrun
    have hclear := of_decide_eq_true
      (List.all_eq_true.1 lowerRuns_clear run (List.mem_of_find?_eq_some hrun))
    have hle := List.find?_some hrun
    simp only [Bool.and_eq_true, decide_eq_true_eq] at hle
    omega
  · omega

/-- The code point of a character made from a number; a number that is no code point gives zero. -/
theorem toNat_ofNat (n : Nat) : (Char.ofNat n).toNat = n ∨ (Char.ofNat n).toNat = 0 := by
  rw [Char.ofNat]
  split
  · exact .inl rfl
  · exact .inr rfl

section Signs

variable {c mark : Char} (hmark : mark.toNat < 64) (hpos : 0 < mark.toNat)
include hmark hpos

theorem eq_of_lowerChar_eq (h : lowerChar c = mark) : c = mark := by
  rw [lowerChar] at h
  split at h
  · by_cases hupper : c.isUpper = true
    · have := toNat_toLower_of_isUpper hupper
      have := isUpper_iff.1 hupper
      rw [h] at *
      omega
    · rwa [toLower_of_not_isUpper (Bool.eq_false_iff.2 hupper)] at h
  · rename_i hbeyond
    have hmoved := shiftOf_lowerRuns (Nat.le_of_not_lt hbeyond)
    have hcode := toNat_ofNat ((c.toNat : Int) + shiftOf lowerRuns c.toNat).toNat
    rw [h] at hcode
    omega

/-- A sign or a digit is the small form of itself only. -/
theorem eq_of_mem_lower (h : mark ∈ lower [c]) : c = mark := by
  have hne : ∀ d : Char, 64 ≤ d.toNat → mark ≠ d := by
    rintro d hd rfl
    omega
  simp only [lower, lowerFrom, lowerWithin, List.append_nil] at h
  split at h
  · -- the two small forms of the sigma
    rw [List.mem_singleton] at h
    split at h <;> exact absurd h (hne _ (by decide))
  · split at h
    · -- the dotted capital i
      simp only [List.mem_cons, List.not_mem_nil, or_false] at h
      rcases h with h | h <;> exact absurd h (hne _ (by decide))
    · exact eq_of_lowerChar_eq hmark hpos (List.mem_singleton.1 h).symm

end Signs

/-! ## Characters one by one -/

/-- The small forms of the characters of a text, each of them taken by itself. -/
def lowerEach (s : Text) : Text :=
  s.flatMap fun c => lower [c]

@[simp]
theorem lowerEach_append (s t : Text) : lowerEach (s ++ t) = lowerEach s ++ lowerEach t :=
  List.flatMap_append

theorem lowerEach_singleton (c : Char) : lowerEach [c] = lower [c] :=
  List.flatMap_singleton _ _

theorem lowerEach_of_ascii {s : Text} (h : ∀ c ∈ s, c.toNat < 128) :
    lowerEach s = s.map Char.toLower := by
  induction s with
  | nil => rfl
  | cons c s ih =>
    obtain ⟨hc, hs⟩ := List.forall_mem_cons.1 h
    have hfirst : lower [c] = [c.toLower] := lower_of_ascii (List.forall_mem_singleton.2 hc)
    rw [List.map_cons, ← ih hs, lowerEach, List.flatMap_cons, hfirst, List.singleton_append]
    rfl

/-- Only the Kelvin sign and the dotted capital i are moved from beyond ASCII to an ASCII character. -/
theorem lowerRuns_beyond :
    lowerRuns.all (fun run => decide (run = (0x212A, 0x212A, 1, -8383) ∨ run = (0x130, 0x130, 1, -199) ∨
      128 ≤ (run.1 : Int) + run.2.2.2)) = true := by
  decide +kernel

/-- A character that stands in words of ASCII letters other than `k`, and in ASCII signs. -/
def IsPlain (c : Char) : Prop :=
  0 < c.toNat ∧ c.toNat < 128 ∧ c ≠ 'k'

instance (c : Char) : Decidable (IsPlain c) :=
  inferInstanceAs (Decidable (_ ∧ _ ∧ _))

theorem lowerChar_eq_plain {c d : Char} (hd : IsPlain d) (hdotted : c.toNat ≠ 0x130)
    (h : lowerChar c = d) : c.toLower = d := by
  obtain ⟨hpos, hascii, hk⟩ := hd
  rw [lowerChar] at h
  split at h
  · exact h
  · rename_i hbeyond
    exfalso
    have hcode := toNat_ofNat ((c.toNat : Int) + shiftOf lowerRuns c.toNat).toNat
    rw [h, shiftOf] at hcode
    split at hcode
    · rename_i run hrun
      have hin := List.find?_some hrun
      simp only [Bool.and_eq_true, decide_eq_true_eq] at hin
      rcases of_decide_eq_true (List.all_eq_true.1 lowerRuns_beyond run
        (List.mem_of_find?_eq_some hrun)) with rfl | rfl | hmoved
      · have hkelvin : d.toNat = 'k'.toNat := by
          have : 'k'.toNat = 107 := rfl
          simp only at hin hcode
          omega
        exact hk (Char.toNat_inj.1 hkelvin)
      · simp only at hin
        omega
      · omega
    · omega

/-- A plain character ends the small form of those characters only that differ from it in case. -/
theorem lower_of_getLast? {c d : Char} (hd : IsPlain d) (h : (lower [c]).getLast? = some d) :
    lower [c] = [d] ∧ c.toLower = d := by
  have hascii := hd.2.1
  simp only [lower, lowerFrom, lowerWithin, List.append_nil] at h ⊢
  split at h
  · split at h <;> · cases h; exact absurd hascii (by decide)
  · split at h
    · cases h
      exact absurd hascii (by decide)
    · rename_i hsigma hdotted
      have hlower : lowerChar c = d := Option.some.inj h
      rw [if_neg hsigma, if_neg hdotted, hlower]
      exact ⟨rfl, lowerChar_eq_plain hd hdotted hlower⟩

/-- The small form of a character is one character, that of the dotted capital i apart. -/
theorem lower_singleton_cases (c : Char) :
    (∃ d, lower [c] = [d]) ∨ lower [c] = ['i', Char.ofNat 0x307] := by
  simp only [lower, lowerFrom, lowerWithin, List.append_nil]
  split
  · exact .inl ⟨_, rfl⟩
  · split
    · exact .inr rfl
    · exact .inl ⟨_, rfl⟩

theorem lower_ne_nil (c : Char) : lower [c] ≠ [] := by
  rcases lower_singleton_cases c with ⟨d, hd⟩ | hd <;> rw [hd] <;> exact List.cons_ne_nil _ _

/-- A word that does not end in an `i` is first held by a text in small letters where the text ends in it:
it cannot end between the two characters of a dotted capital i. -/
theorem suffix_of_infix_lowerEach {word s : Text} {c : Char} (hword : word.getLast? ≠ some 'i')
    (hs : ¬word <:+: lowerEach s) (h : word <:+: lowerEach (s ++ [c])) :
    word <:+ lowerEach (s ++ [c]) := by
  rw [lowerEach_append, lowerEach_singleton] at h ⊢
  rcases lower_singleton_cases c with ⟨d, hd⟩ | hd
  · rw [hd] at h ⊢
    exact (List.infix_concat_iff.1 h).resolve_right hs
  · rw [hd, List.append_cons] at h ⊢
    refine (List.infix_concat_iff.1 h).resolve_right fun hfront => ?_
    rcases List.suffix_concat_iff.1 ((List.infix_concat_iff.1 hfront).resolve_right hs) with
      rfl | ⟨front, rfl, -⟩
    · exact hs List.nil_infix
    · exact hword List.getLast?_concat

/-- A plain word that a text ends in but for case is one that it ends in but for ASCII case. -/
theorem suffix_map_toLower {word s : Text} (hword : ∀ c ∈ word, IsPlain c)
    (h : word <:+ lowerEach s) : word <:+ s.map Char.toLower := by
  induction word using List.reverseRecOn generalizing s with
  | nil => exact List.nil_suffix
  | append_singleton word d ih =>
    obtain ⟨hword, hd⟩ := List.forall_mem_append.1 hword
    have hd : IsPlain d := hd d (List.mem_singleton_self d)
    induction s using List.reverseRecOn with
    | nil => exact absurd (List.suffix_nil.1 h) (by simp)
    | append_singleton s c =>
      obtain ⟨before, hbefore⟩ := h
      rw [lowerEach_append, lowerEach_singleton] at hbefore
      have hlast : (lower [c]).getLast? = some d := by
        have := congrArg List.getLast? hbefore
        rwa [← List.append_assoc, List.getLast?_concat, List.getLast?_append_of_ne_nil _ (lower_ne_nil c),
          eq_comm] at this
      obtain ⟨hlower, hcase⟩ := lower_of_getLast? hd hlast
      rw [hlower, ← List.append_assoc] at hbefore
      have hrest : word <:+ lowerEach s := ⟨before, List.append_cancel_right hbefore⟩
      obtain ⟨before', hbefore'⟩ := ih hword hrest
      exact ⟨before', by rw [List.map_append, ← hbefore', List.map_singleton, hcase, List.append_assoc]⟩

/-! ## The same but for case -/

/-- What holds of all characters made from the numbers below 128 holds of an ASCII character. -/
theorem of_ascii {p : Char → Prop} (h : ∀ n < 128, p (Char.ofNat n)) {c : Char} (hc : c.toNat < 128) : p c := by
  have hp := h c.toNat hc
  rwa [Char.ofNat_toNat] at hp

theorem hasCase_of_isAlpha {c : Char} (hc : c.toNat < 128) : c.isAlpha = true → hasCase c = true :=
  of_ascii (p := fun c => c.isAlpha = true → hasCase c = true) (by decide +kernel) hc

theorem isAlpha_toLower {c : Char} (hc : c.toNat < 128) : c.toLower.isAlpha = c.isAlpha :=
  of_ascii (p := fun c => c.toLower.isAlpha = c.isAlpha) (by decide +kernel) hc

theorem toNat_toLower_lt {c : Char} (hc : c.toNat < 128) : c.toLower.toNat < 128 := by
  by_cases hupper : c.isUpper = true
  · have := isUpper_iff.1 hupper
    rw [toNat_toLower_of_isUpper hupper]
    omega
  · rwa [toLower_of_not_isUpper (Bool.eq_false_iff.2 hupper)]

/-- No variant of an ASCII letter is an ASCII character. -/
theorem otherSmallForms_beyond :
    otherSmallForms.all (fun entry => decide (entry.1 < 128 → ∀ code ∈ entry.2, 128 ≤ code)) = true := by
  decide +kernel

theorem sameButCase_iff_of_ascii {c d : Char} (hc : c.toNat < 128) (hd : d.toNat < 128) :
    sameButCase c d = true ↔ c.toLower = d.toLower := by
  have hlower : lowerChar c = c.toLower := if_pos hc
  have hlower' : lowerChar d = d.toLower := if_pos hd
  rw [sameButCase, hlower, hlower']
  split
  · have hvariant : ((otherSmallForms.lookup c.toLower.toNat).getD []).contains d.toLower.toNat = false := by
      cases hfound : otherSmallForms.lookup c.toLower.toNat with
      | none => rfl
      | some codes =>
        obtain ⟨front, back, hforms, -⟩ := List.lookup_eq_some_iff.1 hfound
        have hentry : (c.toLower.toNat, codes) ∈ otherSmallForms := by
          rw [hforms]
          exact List.mem_append_right front List.mem_cons_self
        have hbeyond := of_decide_eq_true (List.all_eq_true.1 otherSmallForms_beyond _ hentry)
          (toNat_toLower_lt hc)
        refine Bool.eq_false_iff.2 fun hcode => ?_
        have := hbeyond _ (List.contains_iff_mem.1 hcode)
        have := toNat_toLower_lt hd
        omega
    rw [hvariant, Bool.or_false, beq_iff_eq, eq_comm]
  · rename_i hcaseless
    have hletter : c.isAlpha = false := Bool.eq_false_iff.2 fun hletter =>
      hcaseless (hasCase_of_isAlpha hc hletter)
    have hsame : ∀ {e : Char}, e.isAlpha = false → e.toLower = e := fun h =>
      toLower_of_not_isUpper (Bool.or_eq_false_iff.1 h).1
    rw [beq_iff_eq]
    refine ⟨congrArg Char.toLower, fun h => ?_⟩
    have hletter' : d.isAlpha = false := by rw [← isAlpha_toLower hd, ← h, isAlpha_toLower hc, hletter]
    rwa [hsame hletter, hsame hletter'] at h

end Text

end TemplateAudit
