import TemplateAudit.Text.Inflection

/-!
# Singular and plural

A word that does not end in `s` is got back from its plural, with one exception: the plural of a word in `ie`,
such as `movie`, ends like that of a word in `y`, and is taken for one (`singular_plural_iff`).
-/

namespace TemplateAudit

namespace Text

variable {word start : Text}

/-! ## Endings -/

theorem endsWith_iff {ending s : Text} : endsWith ending s = true ↔ ∃ start, s = start ++ ending := by
  rw [endsWith, List.isSuffixOf_iff_suffix]
  exact ⟨fun ⟨start, h⟩ => ⟨start, h.symm⟩, fun ⟨start, h⟩ => ⟨start, h.symm⟩⟩

theorem withoutEnding?_eq_some_iff {ending s : Text} :
    withoutEnding? ending s = some start ↔ s = start ++ ending := by
  rw [withoutEnding?, Option.ite_none_right_eq_some, endsWith_iff]
  constructor
  · rintro ⟨⟨before, rfl⟩, htake⟩
    rw [List.length_append, Nat.add_sub_cancel, List.take_left] at htake
    rw [Option.some.inj htake]
  · rintro rfl
    refine ⟨⟨start, rfl⟩, ?_⟩
    rw [List.length_append, Nat.add_sub_cancel, List.take_left]

/-- A text ends in `s`. -/
def EndsInS (s : Text) : Prop :=
  s.getLast? = some 's'

instance (s : Text) : Decidable (EndsInS s) :=
  inferInstanceAs (Decidable (_ = _))

theorem endsWith_s_iff {s : Text} : endsWith "s" s = true ↔ EndsInS s := by
  rw [endsWith_iff, EndsInS, List.getLast?_eq_some_iff]
  rfl

/-! ## One and many -/

/-- A word of three letters or more ends in `ie`. -/
def EndsInIe (word : Text) : Prop :=
  ∃ start, start ≠ [] ∧ word = start ++ ['i', 'e']

/-- A word that does not end in `s` names one thing. -/
theorem singular_of_not_s (h : ¬EndsInS word) : singular word = word := by
  have hies : withoutEnding? "ies" word = none := by
    refine Option.eq_none_iff_forall_ne_some.2 fun start hsome => h ?_
    rw [withoutEnding?_eq_some_iff.1 hsome]
    simp [EndsInS]
  rw [singular, hies]
  exact if_neg (by rw [Bool.and_eq_true, endsWith_s_iff]; exact fun hs => h hs.1)

/-- What ends in `ies` comes from a word in `y`, but for `ies` itself. -/
theorem singular_ies (hstart : start ≠ []) : singular (start ++ "ies") = start ++ ['y'] := by
  obtain ⟨c, more, rfl⟩ := List.exists_cons_of_ne_nil hstart
  rw [singular, withoutEnding?_eq_some_iff.2 rfl]

/-- Any other word with an `s` behind it comes from that word. -/
theorem singular_concat_s (hs : ¬EndsInS word) (hie : ¬EndsInIe word) : singular (word ++ ['s']) = word := by
  have hends : endsWith "s" (word ++ ['s']) = true := endsWith_iff.2 ⟨word, rfl⟩
  have hss : endsWith "ss" (word ++ ['s']) = false := by
    refine Bool.eq_false_iff.2 fun hends => hs ?_
    obtain ⟨before, heq⟩ := endsWith_iff.1 hends
    have hword : word = before ++ ['s'] :=
      List.append_cancel_right (heq.trans (by simp) : word ++ ['s'] = before ++ ['s'] ++ ['s'])
    rw [EndsInS, hword, List.getLast?_concat]
  rw [singular]
  split
  · rename_i c more hies
    refine absurd ⟨c :: more, List.cons_ne_nil c more, ?_⟩ hie
    exact List.append_cancel_right
      ((withoutEnding?_eq_some_iff.1 hies).trans (by simp) : word ++ ['s'] = c :: more ++ ['i', 'e'] ++ ['s'])
  · rw [if_pos (by rw [hends, hss]; rfl), List.dropLast_concat]

theorem endsInChangingY_iff :
    endsInChangingY word = true ↔ ∃ before c, c ∉ vowels ∧ word = before ++ [c, 'y'] := by
  rw [endsInChangingY]
  constructor
  · intro h
    split at h
    · rename_i c before heq
      refine ⟨before.reverse, c, by simpa using h, ?_⟩
      rw [← List.reverse_reverse word, heq]
      simp
    · cases h
  · rintro ⟨before, c, hc, rfl⟩
    simpa using hc

/-- A word is got back from its plural unless it ends in `ie`. -/
theorem singular_plural (hs : ¬EndsInS word) (hie : ¬EndsInIe word) : singular (plural word) = word := by
  rw [plural]
  split
  · rename_i hy
    obtain ⟨before, c, -, rfl⟩ := endsInChangingY_iff.1 hy
    have hfront : before ++ [c, 'y'] = before ++ [c] ++ ['y'] := by simp
    rw [hfront, List.dropLast_concat, singular_ies (by simp)]
  · rw [if_neg (mt endsWith_s_iff.1 hs)]
    exact singular_concat_s hs hie

theorem plural_ie (start : Text) : plural (start ++ ['i', 'e']) = start ++ "ies" := by
  have hy : endsInChangingY (start ++ ['i', 'e']) = false := by simp [endsInChangingY]
  have hs : ¬EndsInS (start ++ ['i', 'e']) := by simp [EndsInS]
  rw [plural, hy, if_neg (by decide), if_neg (mt endsWith_s_iff.1 hs), List.append_assoc]
  rfl

/-- The plural of a word in `ie` is taken for that of a word in `y`. -/
theorem singular_plural_iff (hs : ¬EndsInS word) : singular (plural word) = word ↔ ¬EndsInIe word := by
  refine ⟨?_, singular_plural hs⟩
  rintro h ⟨start, hstart, rfl⟩
  rw [plural_ie, singular_ies hstart] at h
  have hlast := congrArg List.getLast? h
  simp at hlast

theorem forall_mem_plural {p : Char → Prop} (h : ∀ c ∈ word, p c) (hends : ∀ c ∈ "ies".toList, p c) :
    ∀ c ∈ plural word, p c := by
  rw [plural]
  split
  · exact List.forall_mem_append.2 ⟨fun c hc => h c (List.dropLast_subset word hc), hends⟩
  · split
    · exact h
    · exact List.forall_mem_append.2 ⟨h, List.forall_mem_singleton.2 (hends 's' (by decide))⟩

theorem plural_ne_nil (hne : word ≠ []) : plural word ≠ [] := by
  rw [plural]
  split
  · simp
  · split
    · exact hne
    · simp

end Text

end TemplateAudit
