import TemplateAudit.Text.Blank

/-!
# Trimming

Trimming takes all white space off both ends of a text (`isTrimmed_trim`) and nothing else
(`IsTrimmed.trim_eq`).
-/

namespace TemplateAudit

namespace Text

/-! ## One character at an end -/

/-- White space in front is trimmed. -/
theorem trim_cons {c : Char} (h : isBlank c = true) (s : Text) : trim (c :: s) = trim s := by
  rw [trim, trimStart, List.dropWhile_cons_of_pos h]
  rfl

theorem trimEnd_concat {c : Char} (h : isBlank c = true) (s : Text) :
    trimEnd (s ++ [c]) = trimEnd s := by
  rw [trimEnd, List.reverse_append, List.reverse_singleton, List.singleton_append,
    List.dropWhile_cons_of_pos h]
  rfl

theorem trimEnd_concat_of_not {c : Char} (h : isBlank c = false) (s : Text) :
    trimEnd (s ++ [c]) = s ++ [c] := by
  rw [trimEnd, List.reverse_append, List.reverse_singleton, List.singleton_append,
    List.dropWhile_cons_of_neg (by simp [h]), List.reverse_cons, List.reverse_reverse]

/-- White space at the end is trimmed. -/
theorem trim_concat {c : Char} (h : isBlank c = true) (s : Text) : trim (s ++ [c]) = trim s := by
  rw [trim, trim, trimStart, trimStart, List.dropWhile_append]
  split
  · rename_i hnone
    rw [List.isEmpty_iff.1 hnone, List.dropWhile_cons_of_pos h]
    rfl
  · exact trimEnd_concat h _

/-! ## White space at an end -/

theorem trim_append_left {before : Text} (h : ∀ c ∈ before, isBlank c = true) (s : Text) :
    trim (before ++ s) = trim s := by
  induction before with
  | nil => rfl
  | cons c before ih =>
    obtain ⟨hc, hbefore⟩ := List.forall_mem_cons.1 h
    rw [List.cons_append, trim_cons hc, ih hbefore]

theorem trim_append_right {after : Text} (h : ∀ c ∈ after, isBlank c = true) (s : Text) :
    trim (s ++ after) = trim s := by
  induction after generalizing s with
  | nil => rw [List.append_nil]
  | cons c after ih =>
    obtain ⟨hc, hafter⟩ := List.forall_mem_cons.1 h
    rw [List.append_cons, ih hafter, trim_concat hc]

/-- Where something stands, only the white space in front of it is trimmed at the start. -/
theorem exists_trimStart_append {s : Text} (hs : saysNothing s = false) (t : Text) :
    ∃ c more, trimStart s = c :: more ∧ trimStart (s ++ t) = c :: (more ++ t) := by
  induction s with
  | nil => cases hs
  | cons c s ih =>
    rw [trimStart, trimStart, List.cons_append]
    by_cases hc : isBlank c = true
    · rw [List.dropWhile_cons_of_pos hc, List.dropWhile_cons_of_pos hc]
      exact ih (by simpa [saysNothing, hc] using hs)
    · rw [List.dropWhile_cons_of_neg hc, List.dropWhile_cons_of_neg hc]
      exact ⟨c, s, rfl, rfl⟩

theorem trimStart_append_of_blank {s : Text} (hs : saysNothing s = true) (t : Text) :
    trimStart (s ++ t) = trimStart t := by
  rw [trimStart, List.dropWhile_append_of_pos (List.all_eq_true.1 hs)]
  rfl

/-! ## Trimmed texts -/

theorem trimEnd_eq_self {s : Text} (h : ∀ c ∈ s.getLast?, isBlank c = false) : trimEnd s = s := by
  rcases List.eq_nil_or_concat s with rfl | ⟨s, c, rfl⟩
  · rfl
  · rw [List.concat_eq_append] at h ⊢
    exact trimEnd_concat_of_not (h c List.getLast?_concat) s

/-- Trimming at the end goes no further than to a character that is no white space. -/
theorem trimEnd_append {s : Text} (h : ∀ c ∈ s.getLast?, isBlank c = false) (t : Text) :
    trimEnd (s ++ t) = s ++ trimEnd t := by
  have hs := trimEnd_eq_self h
  rw [trimEnd, List.reverse_eq_iff] at hs
  rw [trimEnd, trimEnd, List.reverse_append, List.dropWhile_append]
  split
  · rename_i hnone
    rw [List.isEmpty_iff.1 hnone, hs, List.reverse_reverse, List.reverse_nil, List.append_nil]
  · rw [List.reverse_append, List.reverse_reverse]

/-- A text without white space at its ends stays as it is. -/
theorem IsTrimmed.trim_eq {s : Text} (h : IsTrimmed s) : trim s = s := by
  obtain ⟨hhead, hlast⟩ := h
  have hstart : trimStart s = s := by
    cases s with
    | nil => rfl
    | cons c s => exact List.dropWhile_cons_of_neg (by simp [hhead c rfl])
  rw [trim, hstart, trimEnd_eq_self hlast]

/-- A text without any white space in it. -/
theorem IsTrimmed.of_forall {s : Text} (h : ∀ c ∈ s, isBlank c = false) : IsTrimmed s :=
  ⟨fun c hc => h c (List.mem_of_head? hc), fun c hc => h c (List.mem_of_getLast? hc)⟩

/-- Whatever stands between two trimmed texts, the whole is trimmed. -/
theorem IsTrimmed.around {s t : Text} (hs : IsTrimmed s) (ht : IsTrimmed t) (hs' : s ≠ []) (ht' : t ≠ [])
    (middle : Text) : IsTrimmed (s ++ (middle ++ t)) := by
  refine ⟨fun c hc => hs.1 c ?_, fun c hc => ht.2 c ?_⟩
  · obtain ⟨d, s, rfl⟩ := List.exists_cons_of_ne_nil hs'
    exact hc
  · rw [← List.append_assoc, List.getLast?_append, List.getLast?_eq_some_getLast ht'] at hc
    rwa [List.getLast?_eq_some_getLast ht']

theorem isBlank_of_head?_dropWhile {s : Text} {c : Char} (h : c ∈ (s.dropWhile isBlank).head?) :
    isBlank c = false := by
  have hhead := List.head?_dropWhile_not isBlank s
  rwa [Option.mem_def.1 h] at hhead

theorem isBlank_of_getLast?_trimEnd {s : Text} {c : Char} (h : c ∈ (trimEnd s).getLast?) : isBlank c = false := by
  rw [trimEnd, List.getLast?_reverse] at h
  exact isBlank_of_head?_dropWhile h

theorem trimEnd_prefix (s : Text) : trimEnd s <+: s := by
  have hsuffix : s.reverse.dropWhile isBlank <:+ s.reverse := List.dropWhile_suffix isBlank
  rw [← List.reverse_prefix, List.reverse_reverse] at hsuffix
  exact hsuffix

theorem trimStart_suffix (s : Text) : trimStart s <:+ s :=
  List.dropWhile_suffix _

theorem trim_within (s : Text) : trim s <:+: s := by
  have hend : trim s <+: trimStart s := trimEnd_prefix (trimStart s)
  exact hend.isInfix.trans (trimStart_suffix s).isInfix

theorem trimChar_within (mark : Char) (s : Text) : trimChar mark s <:+: s := by
  refine List.IsInfix.trans ?_ (List.dropWhile_suffix (· == mark)).isInfix
  rw [trimChar, ← List.reverse_infix, List.reverse_reverse]
  exact (List.dropWhile_suffix _).isInfix

/-- What is left after trimming has no white space at its ends. -/
theorem isTrimmed_trim (s : Text) : IsTrimmed (trim s) := by
  constructor
  · intro c hc
    obtain ⟨rest, hrest⟩ := trimEnd_prefix (trimStart s)
    refine isBlank_of_head?_dropWhile (s := s) ?_
    rw [← trimStart, ← hrest, Option.mem_def, List.head?_append, ← trim, Option.mem_def.1 hc]
    rfl
  · intro c hc
    exact isBlank_of_getLast?_trimEnd hc

theorem IsTrimmed.append_trimEnd {s : Text} (h : IsTrimmed s) (hs : s ≠ []) (t : Text) :
    IsTrimmed (s ++ trimEnd t) := by
  obtain ⟨c, s, rfl⟩ := List.exists_cons_of_ne_nil hs
  refine ⟨h.1, fun d hd => ?_⟩
  rw [← trimEnd_append h.2] at hd
  exact isBlank_of_getLast?_trimEnd hd

/-- Trimming at the end takes off white space. -/
theorem exists_behind_trimEnd (s : Text) :
    ∃ after, s = trimEnd s ++ after ∧ ∀ c ∈ after, isBlank c = true := by
  refine ⟨(s.reverse.takeWhile isBlank).reverse, ?_, fun c hc => ?_⟩
  · rw [trimEnd, ← List.reverse_append, List.takeWhile_append_dropWhile, List.reverse_reverse]
  · exact List.all_eq_true.1 List.all_takeWhile c (List.mem_reverse.1 hc)

/-- A text is what is left of it after trimming, and the white space around that. -/
theorem exists_around_trim (s : Text) : ∃ before after, s = before ++ (trim s ++ after) ∧
    (∀ c ∈ before, isBlank c = true) ∧ ∀ c ∈ after, isBlank c = true := by
  obtain ⟨after, heq, hafter⟩ := exists_behind_trimEnd (trimStart s)
  refine ⟨s.takeWhile isBlank, after, ?_, List.all_eq_true.1 List.all_takeWhile, hafter⟩
  rw [trim, ← heq, trimStart, List.takeWhile_append_dropWhile]

end Text

end TemplateAudit
