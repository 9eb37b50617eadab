import Mathlib.Data.List.Infix
import Mathlib.Data.List.TakeWhile
import TemplateAudit.Json.Reader
import TemplateAudit.Proofs.Decimal.Digits
import TemplateAudit.Proofs.Outcome

/-!
# Integers that are too long

Reading stops at an integer only where a text has more decimal digits in a row than an integer may have
(`hasLongInteger_of_read`).  For this each reader is followed in what it leaves over, which is always the
end of the text it was given (`Within`).
-/

namespace TemplateAudit

open Decimal Outcome

namespace Json

variable {s t rest : Text} {α β : Type}

/-- More decimal digits than an integer may have stand in a row. -/
def HasLongInteger (s : Text) : Prop :=
  ∃ digits, digits <:+: s ∧ AllDigits digits ∧ mostDigits < digits.length

theorem HasLongInteger.of_suffix (h : HasLongInteger s) (hend : s <:+ t) : HasLongInteger t := by
  obtain ⟨digits, hdigits, hall, hlong⟩ := h
  exact ⟨digits, hdigits.trans hend.isInfix, hall, hlong⟩

/-- What a reader gives for a text: it leaves over an end of the text, or stops at an integer that is too
long and stands there, or the text is malformed. -/
def Within (s : Text) : Except ReadError (α × Text) → Prop
  | .ok (_, rest) => rest <:+ s
  | .error .malformed => True
  | .error .hugeInteger => HasLongInteger s

namespace Within

variable {x : Except ReadError (α × Text)}

theorem mono (h : Within s x) (hend : s <:+ t) : Within t x := by
  cases x with
  | ok found => exact List.IsSuffix.trans h hend
  | error reason =>
    cases reason with
    | malformed => trivial
    | hugeInteger => exact HasLongInteger.of_suffix h hend

theorem cons (h : Within s x) (c : Char) : Within (c :: s) x :=
  h.mono (List.suffix_cons c s)

/-- Another value is made of the one that was read. -/
theorem map (h : Within s x) (f : α → β) : Within s (x.map fun found => (f found.1, found.2)) := by
  cases x with
  | ok found => exact h
  | error reason => cases reason <;> exact h

/-- A second reader goes on with what the first one left over. -/
theorem bind {f : α × Text → Except ReadError (β × Text)} (h : Within s x)
    (hf : ∀ a rest, Within rest (f (a, rest))) : Within s (x >>= f) := by
  cases x with
  | ok found => exact (hf found.1 found.2).mono h
  | error reason => cases reason <;> exact h

end Within

theorem skipGap_suffix (s : Text) : skipGap s <:+ s :=
  List.dropWhile_suffix _

/-- White space in front does not matter. -/
theorem Within.of_skipGap {x : Except ReadError (α × Text)} (h : Within (skipGap s) x) : Within s x :=
  h.mono (skipGap_suffix s)

/-! ## Strings -/

theorem fourHex?_suffix {n : Nat} (h : fourHex? s = some (n, rest)) : rest <:+ s := by
  unfold fourHex? at h
  split at h
  · split at h
    · cases h
      exact ⟨[_, _, _, _], rfl⟩
    · cases h
  · cases h

theorem unicode?_suffix {c : Char} (h : unicode? s = some (c, rest)) : rest <:+ s := by
  unfold unicode? at h
  split at h
  · cases h
  · rename_i n rest' hfirst
    have hrest := fourHex?_suffix hfirst
    have halone : ∀ {d : Char}, some (d, rest') = some (c, rest) → rest <:+ s := by
      intro d heq
      cases heq
      exact hrest
    simp only at h
    split at h
    · split at h
      · split at h
        · rename_i hsecond
          split at h
          · obtain ⟨-, rfl⟩ := Prod.mk.inj (Option.some.inj h)
            have hmore := (fourHex?_suffix hsecond).trans (List.suffix_cons 'u' _)
            exact (hmore.trans (List.suffix_cons '\\' _)).trans hrest
          · exact halone h
        · exact halone h
      · exact halone h
    · exact halone h

theorem within_readString (fuel : Nat) (s : Text) : Within s (readString fuel s) := by
  fun_induction readString fuel s with
  | case1 => trivial
  | case2 => trivial
  | case3 fuel s => exact List.suffix_cons _ _
  | case4 => trivial
  | case5 fuel s c rest hunicode ih =>
    exact (((ih.map (c :: ·)).mono (unicode?_suffix hunicode)).cons 'u').cons '\\'
  | case6 => trivial
  | case7 fuel c s _ d _ ih => exact ((ih.map (d :: ·)).cons c).cons '\\'
  | case8 => trivial
  | case9 fuel c s _ _ _ _ ih => exact (ih.map (c :: ·)).cons c

/-! ## Numbers -/

theorem wholeDigits?_spec {whole : Text} (h : wholeDigits? s = some (whole, rest)) :
    s = whole ++ rest ∧ AllDigits whole := by
  unfold wholeDigits? at h
  split at h
  · cases h
    exact ⟨rfl, List.forall_mem_singleton.2 rfl⟩
  · split at h
    · rename_i hc
      cases h
      refine ⟨by rw [List.cons_append, List.takeWhile_append_dropWhile], ?_⟩
      exact List.forall_mem_cons.2 ⟨hc, fun d hd => List.mem_takeWhile_imp hd⟩
    · cases h
  · cases h

theorem fractionDigits_suffix (s : Text) : (fractionDigits s).2 <:+ s := by
  unfold fractionDigits
  split
  · split
    · exact ((List.dropWhile_suffix _).trans (List.suffix_cons _ _)).trans (List.suffix_cons _ _)
    · exact List.suffix_refl _
  · exact List.suffix_refl _

theorem sign_suffix (s : Text) : (Decimal.sign s).2 <:+ s := by
  unfold Decimal.sign
  split
  · exact List.suffix_cons _ _
  · exact List.suffix_cons _ _
  · exact List.suffix_refl _

theorem exponentOf_suffix (s : Text) : (exponentOf s).2 <:+ s := by
  unfold exponentOf
  split
  · split
    · simp only
      split
      · exact List.suffix_refl _
      · exact ((List.dropWhile_suffix _).trans (sign_suffix _)).trans (List.suffix_cons _ _)
    · exact List.suffix_refl _
  · exact List.suffix_refl _

theorem within_readUnsigned (negative : Bool) (s : Text) : Within s (readUnsigned negative s) := by
  unfold readUnsigned
  split
  · trivial
  · rename_i whole rest hwhole
    obtain ⟨rfl, hdigits⟩ := wholeDigits?_spec hwhole
    have hrest : (exponentOf (fractionDigits rest).2).2 <:+ whole ++ rest :=
      ((exponentOf_suffix _).trans (fractionDigits_suffix _)).trans (List.suffix_append _ _)
    simp only
    split
    · split
      · rename_i hlong
        exact ⟨whole, (List.prefix_append _ _).isInfix, hdigits, hlong⟩
      · exact hrest
    · exact hrest

/-! ## Values -/

theorem within_readPlain (s : Text) : Within s (readPlain s) := by
  unfold readPlain
  split
  · rename_i found hfound
    obtain ⟨named, -, hvalue⟩ := List.exists_of_findSome?_eq_some hfound
    obtain ⟨rest, hrest, rfl⟩ := Option.map_eq_some_iff.1 hvalue
    exact List.isPrefixOf?_eq_some_iff_append_eq.1 hrest ▸ List.suffix_append _ _
  · split
    · exact (within_readUnsigned true _).cons '-'
    · exact within_readUnsigned false _

/-- Values, items and fields are read within their text. -/
theorem within_read (fuel : Nat) : (∀ s, Within s (readValue fuel s)) ∧
    (∀ s, Within s (readItems fuel s)) ∧ ∀ s, Within s (readFields fuel s) := by
  induction fuel with
  | zero =>
    refine ⟨fun s => ?_, fun s => ?_, fun s => ?_⟩
    · rw [readValue]
      trivial
    · rw [readItems]
      trivial
    · rw [readFields]
      trivial
  | succ fuel ih =>
    obtain ⟨hvalue, hitems, hfields⟩ := ih
    refine ⟨fun s => ?_, fun s => ?_, fun s => ?_⟩
    · unfold readValue
      split
      · trivial
      · exact ((within_readString _ _).map str).cons '"'
      · rename_i heq
        obtain rfl := Nat.succ.inj heq
        refine Within.cons (Within.of_skipGap ?_) '['
        split
        · rename_i heq
          exact heq ▸ List.suffix_cons _ _
        · exact (hitems _).map arr
      · rename_i heq
        obtain rfl := Nat.succ.inj heq
        refine Within.cons (Within.of_skipGap ?_) '\x7b'
        split
        · rename_i heq
          exact heq ▸ List.suffix_cons _ _
        · exact (hfields _).map fun entries => obj (Pairs.ofEntries entries)
      · exact within_readPlain _
    · rw [readItems]
      refine (hvalue s).bind fun item rest => Within.of_skipGap ?_
      simp only
      split
      · rename_i heq
        rw [heq]
        refine Within.cons (Within.of_skipGap ?_) ','
        exact (hitems _).bind fun items rest => List.suffix_refl _
      · rename_i heq
        exact heq ▸ List.suffix_cons _ _
      · trivial
    · unfold readFields
      split
      · trivial
      · rename_i heq
        obtain rfl := Nat.succ.inj heq
        refine Within.cons ((within_readString _ _).bind fun name rest => Within.of_skipGap ?_) '"'
        simp only
        split
        · rename_i heq
          rw [heq]
          refine Within.cons (Within.of_skipGap ?_) ':'
          refine (hvalue _).bind fun value rest => Within.of_skipGap ?_
          simp only
          split
          · rename_i heq
            rw [heq]
            refine Within.cons (Within.of_skipGap ?_) ','
            exact (hfields _).bind fun fields rest => List.suffix_refl _
          · rename_i heq
            exact heq ▸ List.suffix_cons _ _
          · trivial
        · trivial
      · trivial

/-- **Only an integer that is too long stops the reading of a text that is not malformed.** -/
theorem hasLongInteger_of_read (h : read s = .error .hugeInteger) : HasLongInteger s := by
  have hwithin := ((within_read (s.length + 1)).1 (skipGap s)).of_skipGap
  rw [read] at h
  split at h
  · rename_i heq
    obtain rfl := Except.error.inj h
    rw [heq] at hwithin
    exact hwithin
  · split at h <;> cases h

end Json

end TemplateAudit
