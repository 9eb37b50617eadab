import Mathlib.Data.List.Chain
import Mathlib.Data.List.Forall2
import Mathlib.Data.List.Count
import Mathlib.Data.List.Infix
import TemplateAudit.Text.Blank
import TemplateAudit.Text.Case
import TemplateAudit.Text.Replace

/-!
# Parts of a text

Where a part stands in a text (`occursIn_iff`), how a text is cut where characters of a kind end
(`takeWhile_append_of_stop`) and where a part stands (`splitOn_append_part`), and what a text begins with
when the case of letters does not count (`afterPrefixButCase?_eq_some_iff`).
-/

namespace TemplateAudit

namespace Text

theorem occursIn_iff {part s : Text} : occursIn part s = true ↔ part <:+: s := by
  induction s with
  | nil => simp [occursIn, List.infix_nil]
  | cons c s ih => rw [occursIn, Bool.or_eq_true, ih, List.isPrefixOf_iff_prefix, List.infix_cons_iff]

/-! ## Cutting -/

/-- What holds of the character that a text is known to begin or to end with holds of whatever it begins or ends
with. -/
theorem forall_mem_of_eq_some {p : Char → Prop} {found : Option Char} {c : Char} (h : found = some c) (hc : p c) :
    ∀ d ∈ found, p d := by
  intro d hd
  rw [h] at hd
  exact Option.some.inj hd ▸ hc

section Stop

variable {p : Char → Bool} {s rest : Text} (hs : ∀ c ∈ s, p c = true)
  (hrest : ∀ c ∈ rest.head?, p c = false)
include hs hrest

theorem takeWhile_append_of_stop : (s ++ rest).takeWhile p = s := by
  rw [List.takeWhile_append_of_pos hs]
  cases rest with
  | nil => rw [List.takeWhile_nil, List.append_nil]
  | cons c rest => rw [List.takeWhile_cons_of_neg (by simp [hrest c rfl]), List.append_nil]

theorem dropWhile_append_of_stop : (s ++ rest).dropWhile p = rest := by
  rw [List.dropWhile_append_of_pos hs]
  cases rest with
  | nil => rfl
  | cons c rest => exact List.dropWhile_cons_of_neg (by simp [hrest c rfl])

end Stop

/-- Where characters of a kind end, a text is cut in one way. -/
theorem append_eq_append_of_stop {p : Char → Bool} {s t rest rest' : Text} (hs : ∀ c ∈ s, p c = true)
    (ht : ∀ c ∈ t, p c = true) (hrest : ∀ c ∈ rest.head?, p c = false)
    (hrest' : ∀ c ∈ rest'.head?, p c = false) (h : s ++ rest = t ++ rest') : s = t ∧ rest = rest' := by
  refine ⟨?_, ?_⟩
  · rw [← takeWhile_append_of_stop hs hrest, h, takeWhile_append_of_stop ht hrest']
  · rw [← dropWhile_append_of_stop hs hrest, h, dropWhile_append_of_stop ht hrest']

/-- A text goes on with a character after the white space it begins with. -/
theorem trimStart_eq_cons_iff {c : Char} (hc : isBlank c = false) {s rest : Text} :
    trimStart s = c :: rest ↔ ∃ space, s = space ++ c :: rest ∧ ∀ d ∈ space, isBlank d = true := by
  constructor
  · intro h
    refine ⟨s.takeWhile isBlank, ?_, List.all_eq_true.1 List.all_takeWhile⟩
    rw [← h, trimStart, List.takeWhile_append_dropWhile]
  · rintro ⟨space, rfl, hspace⟩
    exact dropWhile_append_of_stop hspace fun d hd => by rwa [← Option.some.inj hd]

/-- A text is cut at the mark that no other one stands in front of. -/
theorem cutAtChar_append {mark : Char} {before : Text} (h : mark ∉ before) (after : Text) :
    cutAtChar mark (before ++ mark :: after) = some (before, after) := by
  induction before with
  | nil => exact if_pos rfl
  | cons c before ih =>
    obtain ⟨hc, hbefore⟩ := List.ne_and_not_mem_of_not_mem_cons h
    rw [List.cons_append, cutAtChar, if_neg (Ne.symm hc), ih hbefore, Option.map_some]

/-- In front of the first mark stands one text only. -/
theorem append_mark_inj {mark : Char} {s t rest rest' : Text} (hs : mark ∉ s) (ht : mark ∉ t)
    (h : s ++ mark :: rest = t ++ mark :: rest') : s = t ∧ rest = rest' := by
  have hcut := congrArg (cutAtChar mark) h
  rw [cutAtChar_append hs, cutAtChar_append ht] at hcut
  exact Prod.mk.inj (Option.some.inj hcut)

theorem cutAtChar_eq_none {mark : Char} {s : Text} (h : mark ∉ s) : cutAtChar mark s = none := by
  induction s with
  | nil => rfl
  | cons c s ih =>
    obtain ⟨hc, hs⟩ := List.ne_and_not_mem_of_not_mem_cons h
    rw [cutAtChar, if_neg (Ne.symm hc), ih hs]
    rfl

theorem cutAtLast_eq_none {mark : Char} {s : Text} (h : mark ∉ s) : cutAtLast mark s = none := by
  induction s with
  | nil => rfl
  | cons c s ih =>
    obtain ⟨hc, hs⟩ := List.ne_and_not_mem_of_not_mem_cons h
    rw [cutAtLast, ih hs]
    exact if_neg (Ne.symm hc)

/-- What stands behind a text that is cut stays behind the cut. -/
theorem cutAtChar_append_right {mark : Char} {s before after : Text}
    (h : cutAtChar mark s = some (before, after)) (t : Text) :
    cutAtChar mark (s ++ t) = some (before, after ++ t) := by
  induction s generalizing before with
  | nil => cases h
  | cons c s ih =>
    rw [cutAtChar] at h
    rw [List.cons_append, cutAtChar]
    split at h
    · rename_i hc
      cases h
      rw [if_pos hc]
    · rename_i hc
      obtain ⟨cut, hcut, heq⟩ := Option.map_eq_some_iff.1 h
      cases heq
      rw [if_neg hc, ih hcut]
      rfl

/-- A text with one mark in it is cut at this mark in one way. -/
theorem eq_of_append_mark {mark : Char} {s t before after : Text} (hs : mark ∉ s) (ht : mark ∉ t)
    (h : s ++ mark :: t = before ++ mark :: after) : before = s ∧ after = t := by
  have hcount := congrArg (List.count mark) h
  simp only [List.count_append, List.count_cons_self, List.count_eq_zero.2 hs, List.count_eq_zero.2 ht] at hcount
  have hbefore : mark ∉ before := List.count_eq_zero.1 (by omega)
  have hcut := cutAtChar_append hbefore after
  rw [← h, cutAtChar_append hs t] at hcut
  cases hcut
  exact ⟨rfl, rfl⟩

theorem not_mem_of_cutAtChar {mark : Char} {s before after : Text}
    (h : cutAtChar mark s = some (before, after)) : mark ∉ before := by
  induction s generalizing before with
  | nil => cases h
  | cons c s ih =>
    rw [cutAtChar] at h
    split at h
    · cases h
      exact List.not_mem_nil
    · rename_i hc
      obtain ⟨cut, hcut, heq⟩ := Option.map_eq_some_iff.1 h
      cases heq
      exact List.not_mem_cons_of_ne_of_not_mem (Ne.symm hc) (ih hcut)

/-- Two characters stand nowhere side by side when no character and the next one are these. -/
theorem not_infix_pair_iff {a b : Char} {s : Text} :
    ¬[a, b] <:+: s ↔ s.IsChain fun c d => ¬(c = a ∧ d = b) := by
  rw [List.isChain_iff_forall_rel_of_append_cons_cons]
  constructor
  · rintro h _ _ before after rfl ⟨rfl, rfl⟩
    exact h ⟨before, after, by simp⟩
  · rintro h ⟨before, after, rfl⟩
    have hsplit : before ++ [a, b] ++ after = before ++ a :: b :: after := by simp
    exact h hsplit ⟨rfl, rfl⟩

/-! ## Splitting -/

/-- A text without the part is not split. -/
theorem splitOn_of_not_infix {part s : Text} (h : ¬part <:+: s) : splitOn part s = [s] := by
  induction s with
  | nil => rfl
  | cons c s ih =>
    have hrest := ih fun hinfix => h (List.infix_cons hinfix)
    rw [splitOn, List.cons.injEq] at hrest
    rw [splitOn_cons fun hprefix => h hprefix.isInfix, hrest.1, hrest.2]

section Splitting

variable {first : Char} {more s : Text} (hfirst : first ∉ more)
include hfirst

/-- A part whose first character stands nowhere else in it begins in no text in front of it. -/
theorem not_prefix_append_part {before : Text} (hne : before ≠ []) (hbefore : ¬first :: more <:+: before)
    (after : Text) : ¬first :: more <+: before ++ (first :: more ++ after) := by
  intro hprefix
  rcases Nat.lt_or_ge before.length (first :: more).length with hshort | hlong
  · -- the part would go on with itself
    obtain ⟨rest, hrest⟩ := List.prefix_of_prefix_length_le (List.prefix_append _ _) hprefix hshort.le
    have hsecond : rest <+: first :: more ++ after :=
      (List.prefix_append_right_inj before).1 (by rwa [hrest])
    obtain ⟨c, before, rfl⟩ := List.exists_cons_of_ne_nil hne
    rw [List.cons_append, List.cons.injEq] at hrest
    obtain ⟨rfl, hmore⟩ := hrest
    cases rest with
    | nil =>
      rw [← hmore, List.append_nil] at hshort
      exact absurd hshort (Nat.lt_irrefl _)
    | cons d rest =>
      obtain ⟨rfl, -⟩ := List.cons_prefix_cons.1 hsecond
      exact hfirst (hmore ▸ List.mem_append_right _ List.mem_cons_self)
  · exact hbefore (List.prefix_of_prefix_length_le hprefix (List.prefix_append _ _) hlong).isInfix

/-- A text is split at the first part in it. -/
theorem splitOn_append_part (hs : ¬first :: more <:+: s) (after : Text) :
    splitOn (first :: more) (s ++ (first :: more ++ after)) = s :: splitOn (first :: more) after := by
  induction s with
  | nil => exact splitOn_append (List.cons_ne_nil first more) after
  | cons c s ih =>
    have hnot := not_prefix_append_part hfirst (List.cons_ne_nil c s) hs after
    have hrest := ih fun hinfix => hs (List.infix_cons hinfix)
    rw [splitOn, List.cons.injEq] at hrest
    rw [List.cons_append] at hnot ⊢
    rw [splitOn_cons hnot, hrest.1, hrest.2]

/-- Pieces without the part are got back from what they are joined to. -/
theorem splitOn_join {piece : Text} {pieces : List Text}
    (h : ∀ p ∈ piece :: pieces, ¬first :: more <:+: p) :
    splitOn (first :: more) (join (first :: more) (piece :: pieces)) = piece :: pieces := by
  induction pieces generalizing piece with
  | nil => exact splitOn_of_not_infix (h piece List.mem_cons_self)
  | cons next pieces ih =>
    obtain ⟨hpiece, hpieces⟩ := List.forall_mem_cons.1 h
    rw [join, List.append_assoc, splitOn_append_part hfirst hpiece, ih hpieces]
    exact List.cons_ne_nil next pieces

end Splitting

/-! ## Case apart -/

/-- Are two texts the same character by character, the case of letters apart? -/
def SameButCase (s t : Text) : Prop :=
  List.Forall₂ (fun c d => sameButCase c d = true) s t

theorem sameButCase_self (c : Char) : sameButCase c c = true := by
  unfold sameButCase
  split <;> simp

theorem SameButCase.refl (s : Text) : SameButCase s s :=
  List.forall₂_same.2 fun c _ => sameButCase_self c

/-- What is left of a text is what stands behind a part of it that differs in case only. -/
theorem afterPrefixButCase?_eq_some_iff {part s rest : Text} :
    afterPrefixButCase? part s = some rest ↔ ∃ written, s = written ++ rest ∧ SameButCase part written := by
  induction part generalizing s with
  | nil =>
    rw [afterPrefixButCase?, Option.some_inj]
    refine ⟨fun h => ⟨[], h, .nil⟩, ?_⟩
    rintro ⟨written, rfl, hwritten⟩
    cases hwritten
    rfl
  | cons c part ih =>
    -- what stands in front of the rest begins with a character that differs from the first one in case only
    have hcons : (∃ written, s = written ++ rest ∧ SameButCase (c :: part) written) ↔
        ∃ d s', s = d :: s' ∧ sameButCase c d = true ∧ ∃ written, s' = written ++ rest ∧
          SameButCase part written := by
      constructor
      · rintro ⟨_, rfl, hwritten⟩
        cases hwritten with
        | cons hsame hrest => exact ⟨_, _, rfl, hsame, _, rfl, hrest⟩
      · rintro ⟨d, s', rfl, hsame, written, rfl, hwritten⟩
        exact ⟨d :: written, rfl, .cons hsame hwritten⟩
    rw [hcons]
    cases s with
    | nil => simp [afterPrefixButCase?]
    | cons d s =>
      rw [afterPrefixButCase?]
      split
      · rename_i hsame
        simp [ih, hsame]
      · rename_i hdiffers
        simp [hdiffers]

end Text

end TemplateAudit
