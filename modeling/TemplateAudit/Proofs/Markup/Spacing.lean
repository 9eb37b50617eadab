import Mathlib.Data.List.Chain
import TemplateAudit.Markup.Spacing

/-!
# Markup that is clean already

Markup in which no two white space characters stand side by side, and which ends in no space, has nothing to
be cleaned up (`tidy_eq_self`).  A text that ends in no white space is cleaned up by itself, whatever stands behind
it (`TidiesTo`).
-/

namespace TemplateAudit

namespace Markup

variable {s : Text}

/-- Text in which no two white space characters stand side by side. -/
def IsSpaced (s : Text) : Prop :=
  s.IsChain fun c d => Text.isBlank c = true → Text.isBlank d = false

theorem isBlank_of_isSpaceOrTab {c : Char} (h : isSpaceOrTab c = true) : Text.isBlank c = true := by
  rcases Bool.or_eq_true_iff.1 h with h | h <;> obtain rfl := eq_of_beq h <;> decide

instance (s : Text) : Decidable (IsSpaced s) :=
  inferInstanceAs (Decidable (List.IsChain _ s))

/-- Behind a character that is no white space any such text may stand. -/
theorem IsSpaced.append {t : Text} (hs : IsSpaced s) (ht : IsSpaced t)
    (hlast : ∀ c ∈ s.getLast?, Text.isBlank c = false) : IsSpaced (s ++ t) := by
  refine List.isChain_append.2 ⟨hs, ht, fun c hc d _ hblank => ?_⟩
  rw [hlast c hc] at hblank
  cases hblank

theorem isSpaced_of_not_blank (h : ∀ c ∈ s, Text.isBlank c = false) : IsSpaced s := by
  induction s with
  | nil => exact .nil
  | cons c s ih =>
    obtain ⟨hc, hs⟩ := List.forall_mem_cons.1 h
    exact List.isChain_cons.2 ⟨fun d _ hblank => (by rw [hc] at hblank; cases hblank), ih hs⟩

/-- A text in which no space stands in front of a newline is left as it is, and so is its end if no space in it comes
to stand at the end of a line. -/
theorem trimLines_append_of_isChain {t : Text} (hs : s.IsChain fun c d => isSpaceOrTab c = true → d ≠ '\n')
    (hlast : ∀ c ∈ s.getLast?, isSpaceOrTab c = true → isLineEnd (trimLines t) = false) :
    trimLines (s ++ t) = s ++ trimLines t := by
  induction s with
  | nil => rfl
  | cons c s ih =>
    obtain ⟨hnext, hrest⟩ := List.isChain_cons.1 hs
    have hlast' : ∀ d ∈ s.getLast?, isSpaceOrTab d = true → isLineEnd (trimLines t) = false := fun d hd =>
      hlast d (by rw [List.getLast?_cons, Option.mem_def.1 hd]; rfl)
    have hkept : (isSpaceOrTab c && isLineEnd (s ++ trimLines t)) = false := by
      refine Bool.and_eq_false_imp.2 fun hspace => ?_
      cases s with
      | nil => exact hlast c rfl hspace
      | cons d s => exact beq_false_of_ne (hnext d rfl hspace)
    rw [List.cons_append, trimLines, ih hrest hlast', hkept]
    rfl

theorem IsSpaced.isChain (h : IsSpaced s) : s.IsChain fun c d => isSpaceOrTab c = true → d ≠ '\n' :=
  List.IsChain.imp (fun c d hnext hspace hnewline => by
    have hd := hnext (isBlank_of_isSpaceOrTab hspace)
    rw [hnewline] at hd
    cases hd) h

/-- No space stands at the end of a line. -/
theorem trimLines_of_isChain (hs : s.IsChain fun c d => isSpaceOrTab c = true → d ≠ '\n')
    (hlast : ∀ c ∈ s.getLast?, isSpaceOrTab c = false) : trimLines s = s := by
  have hkept := trimLines_append_of_isChain (t := []) hs fun c hc hspace => by
    rw [hlast c hc] at hspace
    cases hspace
  rwa [trimLines, List.append_nil] at hkept

theorem isBlank_squeezeRun {run : Text} (h : ∀ c ∈ run, Text.isBlank c = true) :
    ∀ c ∈ squeezeRun run, Text.isBlank c = true := by
  rw [squeezeRun]
  split
  · exact h
  · refine List.forall_mem_append.2 ⟨List.forall_mem_append.2 ⟨fun c hc => ?_, by decide⟩, fun c hc => ?_⟩
    · exact h c ((List.takeWhile_prefix _).subset hc)
    · exact h c (List.mem_reverse.1 ((List.takeWhile_prefix _).subset (List.mem_reverse.1 hc)))

theorem squeezeRun_of_short {run : Text} (h : run.length ≤ 1) : squeezeRun run = run := by
  have := List.count_le_length (a := '\n') (l := run)
  rw [squeezeRun, Text.newlines, if_pos (by omega)]

/-- A run of one character is no run of empty lines. -/
theorem squeezeFrom_eq {run : Text} (hrun : run.length ≤ 1) (hspaced : IsSpaced s)
    (hnext : run ≠ [] → ∀ c ∈ s.head?, Text.isBlank c = false) : squeezeFrom run s = run.reverse ++ s := by
  have hshort : squeezeRun run.reverse = run.reverse := squeezeRun_of_short (by rwa [List.length_reverse])
  induction s generalizing run with
  | nil => rw [squeezeFrom, hshort, List.append_nil]
  | cons c s ih =>
    obtain ⟨hc, hrest⟩ := List.isChain_cons.1 hspaced
    rw [squeezeFrom]
    split
    · rename_i hblank
      obtain rfl : run = [] := by
        refine by_contra fun hne => ?_
        rw [hnext hne c rfl] at hblank
        cases hblank
      have hone : [c].length ≤ 1 := Nat.le_refl 1
      exact ih hone hrest (fun _ d hd => hc d hd hblank) (squeezeRun_of_short (by simp))
    · have hempty : ([] : Text).length ≤ 1 := Nat.zero_le 1
      have hcontinue := ih hempty hrest (fun hne => absurd rfl hne) rfl
      rw [hshort, hcontinue, List.reverse_nil, List.nil_append]

/-- **Clean markup is left as it is.** -/
theorem tidy_eq_self (hspaced : IsSpaced s) (hlast : ∀ c ∈ s.getLast?, isSpaceOrTab c = false) :
    tidy s = s := by
  rw [tidy, trimLines_of_isChain hspaced.isChain hlast, squeeze]
  exact squeezeFrom_eq (Nat.zero_le 1) hspaced fun hne => absurd rfl hne

/-! ## Parts -/

section Parts

variable {s' : Text} {c : Char}

theorem isSpaceOrTab_of_not_blank (h : Text.isBlank c = false) : isSpaceOrTab c = false :=
  Bool.eq_false_iff.2 fun hspace => by
    rw [isBlank_of_isSpaceOrTab hspace] at h
    cases h

theorem isLineEnd_cons_of_not_blank (h : Text.isBlank c = false) (t : Text) : isLineEnd (c :: t) = false :=
  beq_false_of_ne fun heq => by
    rw [heq] at h
    cases h

theorem trimLines_cons (h : Text.isBlank c = false) (t : Text) : trimLines (c :: t) = c :: trimLines t := by
  rw [trimLines, isSpaceOrTab_of_not_blank h]
  rfl

theorem squeezeFrom_append (h : Text.isBlank c = false) (run s t : Text) :
    squeezeFrom run (s ++ c :: t) = squeezeFrom run s ++ c :: squeeze t := by
  induction s generalizing run with
  | nil => exact if_neg (Bool.eq_false_iff.1 h)
  | cons d s ih =>
    rw [List.cons_append, squeezeFrom, squeezeFrom]
    split
    · exact ih (d :: run)
    · rw [ih, List.append_assoc, List.cons_append]

/-- The text is cleaned up to another one, whatever stands behind it. -/
def TidiesTo (s s' : Text) : Prop :=
  ∀ t, tidy (s ++ t) = s' ++ tidy t

/-- In front of a character that is no white space it is enough to know what becomes of the ends of lines. -/
theorem TidiesTo.of_trimLines (hc : Text.isBlank c = false)
    (hlines : ∀ t, trimLines (s ++ c :: t) = s' ++ c :: trimLines t) : TidiesTo (s ++ [c]) (squeeze s' ++ [c]) := by
  intro t
  rw [← List.append_cons, tidy, hlines t, squeeze, squeezeFrom_append hc, ← List.append_cons]
  rfl

/-- What is clean stays as it is. -/
theorem IsSpaced.tidiesTo (h : IsSpaced s) (hc : Text.isBlank c = false) : TidiesTo (s ++ [c]) (s ++ [c]) := by
  have hlines : ∀ t, trimLines (s ++ c :: t) = s ++ c :: trimLines t := fun t => by
    have hend : isLineEnd (trimLines (c :: t)) = false := by
      rw [trimLines_cons hc]
      exact isLineEnd_cons_of_not_blank hc _
    rw [trimLines_append_of_isChain h.isChain fun _ _ _ => hend, trimLines_cons hc]
  have hsqueeze : squeeze s = s := squeezeFrom_eq (Nat.zero_le 1) h fun hne => absurd rfl hne
  have htidies := TidiesTo.of_trimLines hc hlines
  rwa [hsqueeze] at htidies

theorem TidiesTo.of_not_blank (h : ∀ c ∈ s, Text.isBlank c = false) : TidiesTo s s := by
  obtain rfl | ⟨s, c, rfl⟩ := List.eq_nil_or_concat s
  · exact fun _ => rfl
  · rw [List.concat_eq_append] at h ⊢
    obtain ⟨hs, hc⟩ := List.forall_mem_append.1 h
    exact (isSpaced_of_not_blank hs).tidiesTo (hc c List.mem_cons_self)

end Parts

end Markup

end TemplateAudit
