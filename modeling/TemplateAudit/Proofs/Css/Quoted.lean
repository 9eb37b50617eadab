import Mathlib.Data.List.Basic
import TemplateAudit.Css.Quoted
import TemplateAudit.Proofs.Text.Parts

/-!
# Strings in selectors are read back

A character of a string is written in one of four ways (`quoteChar_cases`).  Whichever it is, the reader takes it for
a part of the body and for the character it stands for, so that a whole string is read back up to its own quote
(`string?_quote`); only the character with the number zero is replaced.  What stands between the quotes is the body of
a string by itself: no quote in it stands without a backslash, no line ends in it, and its last backslash is not left
alone (`quote_spells`).
-/

namespace TemplateAudit

namespace Css

variable {c : Char} {s t rest digits : Text}

/-! ## Characters -/

/-- The character that a written one is read as: the one with the number zero cannot be written. -/
def readable (c : Char) : Char :=
  if c = '\x00' then '\uFFFD' else c

/-- A character that needs no backslash and may stand in a string. -/
def IsPlain (c : Char) : Prop :=
  c ≠ '"' ∧ c ≠ '\\' ∧ c ≠ '\n' ∧ c ≠ '\r' ∧ c ≠ '\x0c'

instance (c : Char) : Decidable (IsPlain c) :=
  inferInstanceAs (Decidable (_ ∧ _ ∧ _ ∧ _ ∧ _))

/-- The digits of a number that they are read as. -/
structure IsNumberOf (c : Char) (digits : Text) : Prop where
  nonempty : digits ≠ []
  short : digits.length ≤ 2
  all : ∀ d ∈ digits, Html.isHexDigit d = true
  value : charOfNumber (Html.numberOf 16 digits) = c

theorem isNumberOf_hexDigits (hc : c.toNat < 128) (hzero : c ≠ '\x00') : IsNumberOf c (hexDigits c.toNat) := by
  have hall : ∀ n < 128, hexDigits n ≠ [] ∧ (hexDigits n).length ≤ 2 ∧
      (∀ d ∈ hexDigits n, Html.isHexDigit d = true) ∧ Html.numberOf 16 (hexDigits n) = n := by
    decide +kernel
  obtain ⟨hnonempty, hshort, hdigits, hvalue⟩ := hall c.toNat hc
  refine ⟨hnonempty, hshort, hdigits, ?_⟩
  have hne : c.toNat ≠ 0 := fun h => hzero (Char.toNat_inj.1 h)
  have hvalid : c.toNat.isValidChar := c.valid
  rw [hvalue, charOfNumber, if_neg (not_or.2 ⟨hne, not_not.2 hvalid⟩), Char.ofNat_toNat]

/-- A character is written with a backslash, by its number, or as it is. -/
theorem quoteChar_cases (c : Char) :
    (quoteChar c = ['\\', c] ∧ Html.isHexDigit c = false ∧ readable c = c) ∨
      (∃ digits, quoteChar c = '\\' :: (digits ++ [' ']) ∧ IsNumberOf c digits ∧ readable c = c) ∨
      quoteChar c = [readable c] ∧ IsPlain (readable c) := by
  rw [quoteChar]
  split
  · rename_i hmark
    refine .inl ⟨rfl, ?_, ?_⟩ <;> (rcases hmark with rfl | rfl <;> decide)
  · rename_i hmark
    split
    · rename_i hzero
      subst hzero
      exact .inr (.inr ⟨rfl, by decide⟩)
    · rename_i hzero
      have hreadable : readable c = c := if_neg hzero
      split
      · rename_i hcontrol
        exact .inr (.inl ⟨_, rfl, isNumberOf_hexDigits (by omega) hzero, hreadable⟩)
      · rename_i hcontrol
        rw [hreadable]
        refine .inr (.inr ⟨rfl, fun h => hmark (.inl h), fun h => hmark (.inr h), ?_, ?_, ?_⟩) <;>
        · rintro rfl
          exact hcontrol (.inl (by decide))

/-! ## The body of a string -/

theorem stringBody?_plain (hc : IsPlain c) (s : Text) :
    stringBody? (c :: s) = (stringBody? s).map fun found => (c :: found.1, found.2) := by
  obtain ⟨hquote, hslash, hline⟩ := hc
  rw [stringBody?.eq_3 _ _ fun _ _ h => absurd h hslash, if_neg hquote, if_neg (by tauto)]

theorem stringBody?_append (hs : ∀ c ∈ s, IsPlain c) (t : Text) :
    stringBody? (s ++ t) = (stringBody? t).map fun found => (s ++ found.1, found.2) := by
  induction s with
  | nil => cases h : stringBody? t <;> simp [h]
  | cons c s ih =>
    obtain ⟨hc, hs⟩ := List.forall_mem_cons.1 hs
    rw [List.cons_append, stringBody?_plain hc, ih hs, Option.map_map]
    rfl

theorem isPlain_of_isHexDigit (h : Html.isHexDigit c = true) : IsPlain c := by
  refine ⟨?_, ?_, ?_, ?_, ?_⟩ <;>
  · rintro rfl
    revert h
    decide

/-- A written character belongs to the body. -/
theorem stringBody?_quoteChar (c : Char) (t : Text) :
    stringBody? (quoteChar c ++ t) = (stringBody? t).map fun found => (quoteChar c ++ found.1, found.2) := by
  obtain ⟨hquote, -, -⟩ | ⟨digits, hquote, hdigits, -⟩ | ⟨hquote, hplain⟩ := quoteChar_cases c
  · rw [hquote]
    rfl
  · obtain ⟨d, more, rfl⟩ := List.exists_cons_of_ne_nil hdigits.nonempty
    have hrest : ∀ e ∈ more ++ [' '], IsPlain e := List.forall_mem_append.2
      ⟨fun e he => isPlain_of_isHexDigit (hdigits.all e (List.mem_cons_of_mem d he)), by simp [IsPlain]⟩
    rw [hquote, List.cons_append, List.cons_append, List.cons_append, stringBody?, stringBody?_append hrest,
      Option.map_map]
    rfl
  · rw [hquote]
    exact stringBody?_plain hplain t

/-- The body of a written string ends at its quote. -/
theorem stringBody?_quote (s rest : Text) :
    stringBody? (s.flatMap quoteChar ++ '"' :: rest) = some (s.flatMap quoteChar, rest) := by
  induction s with
  | nil => rfl
  | cons c s ih => rw [List.flatMap_cons, List.append_assoc, stringBody?_quoteChar, ih, Option.map_some]

/-! ## What it says -/

theorem decodeFrom_length (s t : Text) : decodeFrom s.length (s ++ t) = decodeFrom 0 t := by
  induction s with
  | nil => rfl
  | cons c s ih => exact ih

/-- The number of a character is read up to the space behind it. -/
theorem readEscape_number (h : IsNumberOf c digits) (t : Text) :
    readEscape (digits ++ ' ' :: t) = ([c], (digits ++ [' ']).length) := by
  have hnumber : numberDigits (digits ++ ' ' :: t) = digits := by
    have hshort := h.short
    obtain ⟨more, hmore⟩ : ∃ more, 6 - digits.length = more + 1 := ⟨5 - digits.length, by omega⟩
    rw [numberDigits, List.take_append, List.take_of_length_le (by omega), hmore, List.take_succ_cons]
    exact Text.takeWhile_append_of_stop h.all (by rintro d ⟨⟩; decide)
  rw [readEscape, hnumber]
  obtain ⟨d, more, rfl⟩ := List.exists_cons_of_ne_nil h.nonempty
  simp [h.value, isNumberEnd]

/-- A written character is read as itself. -/
theorem decodeFrom_quoteChar (c : Char) (t : Text) :
    decodeFrom 0 (quoteChar c ++ t) = readable c :: decodeFrom 0 t := by
  obtain ⟨hquote, hhex, hreadable⟩ | ⟨digits, hquote, hdigits, hreadable⟩ | ⟨hquote, hplain⟩ := quoteChar_cases c
  · have hescape : readEscape (c :: t) = ([c], 1) := by
      have hnone : numberDigits (c :: t) = [] := by
        rw [numberDigits, List.take_succ_cons, List.takeWhile_cons_of_neg (by simp [hhex])]
      rw [readEscape, hnone]
      rfl
    rw [hquote, hreadable]
    simp only [List.cons_append, List.nil_append, decodeFrom, hescape]
  · have hescape := readEscape_number hdigits t
    have hbehind : decodeFrom (digits ++ [' ']).length (digits ++ ' ' :: t) = decodeFrom 0 t := by
      rw [← decodeFrom_length (digits ++ [' ']) t, List.append_assoc, List.singleton_append]
    rw [hquote, hreadable, List.cons_append, List.append_assoc, List.singleton_append, decodeFrom, hescape, hbehind]
    rfl
  · rw [hquote, List.singleton_append, decodeFrom.eq_4 _ _ hplain.2.1]

theorem decode_quote (s : Text) : decode (s.flatMap quoteChar) = s.map readable := by
  rw [decode]
  induction s with
  | nil => rfl
  | cons c s ih => rw [List.flatMap_cons, decodeFrom_quoteChar, ih, List.map_cons]

/-- **A written string is read back, whatever stands behind it.** -/
theorem string?_quote (s rest : Text) : string? (quote s ++ rest) = some (s.map readable, rest) := by
  have hbody : string? (quote s ++ rest) =
      (stringBody? (s.flatMap quoteChar ++ '"' :: rest)).map fun found => (decode found.1, found.2) := by
    rw [quote, List.cons_append, List.append_assoc]
    rfl
  rw [hbody, stringBody?_quote, Option.map_some, decode_quote]

/-! ## What stands between the quotes -/

/-- A text ends in a backslash that protects the next character: the backslashes at its end are odd in number. -/
def EndsProtecting (s : Text) : Prop :=
  (s.reverse.takeWhile (· == '\\')).length % 2 = 1

instance (s : Text) : Decidable (EndsProtecting s) :=
  inferInstanceAs (Decidable (_ = _))

/-- The body of a string: no quote stands in it that is not protected, no line ends in it, and it does not end in a
backslash that would protect the quote behind it. -/
structure IsBody (s : Text) : Prop where
  quotes : ∀ before after, s = before ++ '"' :: after → EndsProtecting before
  lines : ∀ c ∈ s, c ≠ '\n' ∧ c ≠ '\r' ∧ c ≠ '\x0c'
  ends : ¬EndsProtecting s

/-- A backslash protects what stands behind it when it is not protected itself. -/
theorem endsProtecting_concat : EndsProtecting (s ++ [c]) ↔ c = '\\' ∧ ¬EndsProtecting s := by
  rw [EndsProtecting, EndsProtecting, List.reverse_concat]
  by_cases hc : c = '\\'
  · rw [List.takeWhile_cons_of_pos (by simpa using hc), List.length_cons, and_iff_right hc]
    omega
  · rw [List.takeWhile_cons_of_neg (by simpa using hc)]
    simp [hc]

/-- Behind a text that protects nothing a text protects what it protects alone. -/
theorem endsProtecting_append (hs : ¬EndsProtecting s) : EndsProtecting (s ++ t) ↔ EndsProtecting t := by
  induction t using List.reverseRecOn with
  | nil =>
    rw [List.append_nil]
    exact iff_of_false hs (by decide)
  | append_singleton t c ih => rw [← List.append_assoc, endsProtecting_concat, endsProtecting_concat, ih]

namespace IsBody

theorem nil : IsBody [] :=
  ⟨by simp, by simp, by decide⟩

/-- What stands in two bodies stands in one. -/
theorem append (hs : IsBody s) (ht : IsBody t) : IsBody (s ++ t) := by
  refine ⟨fun before after heq => ?_, List.forall_mem_append.2 ⟨hs.lines, ht.lines⟩, ?_⟩
  · rcases List.append_eq_append_iff.1 heq with ⟨inner, rfl, hquote⟩ | ⟨inner, rfl, hquote⟩
    · exact (endsProtecting_append hs.ends).2 (ht.quotes inner after hquote)
    · cases inner with
      | nil => exact absurd (ht.quotes [] after hquote.symm) (by decide)
      | cons d inner =>
        obtain rfl := (List.cons.inj hquote).1
        exact hs.quotes before inner rfl
  · rw [endsProtecting_append hs.ends]
    exact ht.ends

theorem plain (hc : IsPlain c) : IsBody [c] := by
  obtain ⟨hquote, hslash, hlines⟩ := hc
  refine ⟨fun before after heq => ?_, List.forall_mem_singleton.2 hlines, ?_⟩
  · have hmem : '"' ∈ [c] := heq ▸ List.mem_append_right before List.mem_cons_self
    exact absurd (List.mem_singleton.1 hmem).symm hquote
  · rw [← List.nil_append [c], endsProtecting_concat]
    exact fun h => hslash h.1

theorem of_plain (hs : ∀ c ∈ s, IsPlain c) : IsBody s := by
  induction s with
  | nil => exact nil
  | cons c s ih =>
    obtain ⟨hc, hs⟩ := List.forall_mem_cons.1 hs
    exact (plain hc).append (ih hs)

/-- A character with a backslash in front is protected, and so is a quote or a backslash there. -/
theorem escaped (hc : c ≠ '\n' ∧ c ≠ '\r' ∧ c ≠ '\x0c') : IsBody ['\\', c] := by
  refine ⟨fun before after heq => ?_, ?_, ?_⟩
  · match before, heq with
    | [], heq => exact absurd (List.cons.inj heq).1 (by decide)
    | [d], heq =>
      obtain rfl := (List.cons.inj heq).1
      decide
    | _ :: _ :: before, heq => simp at heq
  · simp [hc]
  · have hprotects : EndsProtecting ['\\'] := by decide
    rw [← List.singleton_append, endsProtecting_concat]
    exact fun h => h.2 hprotects

end IsBody

/-- What is written for a character is the body of a string. -/
theorem isBody_quoteChar (c : Char) : IsBody (quoteChar c) := by
  obtain ⟨hquote, -, -⟩ | ⟨digits, hquote, hdigits, -⟩ | ⟨hquote, hplain⟩ := quoteChar_cases c
  · rw [hquote]
    refine IsBody.escaped ⟨?_, ?_, ?_⟩ <;>
    · rintro rfl
      exact absurd hquote (by decide)
  · obtain ⟨d, more, rfl⟩ := List.exists_cons_of_ne_nil hdigits.nonempty
    have hfirst : IsBody ['\\', d] :=
      IsBody.escaped (isPlain_of_isHexDigit (hdigits.all d List.mem_cons_self)).2.2
    have hrest : ∀ e ∈ more ++ [' '], IsPlain e := List.forall_mem_append.2
      ⟨fun e he => isPlain_of_isHexDigit (hdigits.all e (List.mem_cons_of_mem d he)), by simp [IsPlain]⟩
    rw [hquote]
    exact hfirst.append (IsBody.of_plain hrest)
  · rw [hquote]
    exact IsBody.plain hplain

theorem isBody_quote (s : Text) : IsBody (s.flatMap quoteChar) := by
  induction s with
  | nil => exact IsBody.nil
  | cons c s ih => exact (isBody_quoteChar c).append ih

/-- **A written string spells its value.**  Between its quotes stands the body of a string, and read by the rules for
escapes this body is the value, with the replacement character for every character with the number zero. -/
theorem quote_spells (s : Text) :
    ∃ body, quote s = '"' :: (body ++ ['"']) ∧ IsBody body ∧
      decode body = s.map fun c => if c = '\x00' then '\uFFFD' else c :=
  ⟨s.flatMap quoteChar, rfl, isBody_quote s, decode_quote s⟩

end Css

end TemplateAudit
