import Mathlib.Data.Nat.Init
import Mathlib.Tactic.IntervalCases
import TemplateAudit.Json.Reader
import TemplateAudit.Json.Writer

/-!
# Strings are read back

A string that is written, with characters beyond ASCII by their numbers or as they stand, is read back as itself,
whatever stands behind its quote (`readString_writeString`).  One character is read back at a time: a letter
after a backslash, a number, the two numbers of the halves of a character, or the character as it stands.
-/

namespace TemplateAudit

namespace Json

/-! ## Four hexadecimal digits -/

theorem hexValue_digitChar {d : Nat} (h : d < 16) :
    Html.isHexDigit d.digitChar = true ∧ Html.hexValue d.digitChar = d := by
  interval_cases d <;> decide

theorem numberOf_concat (base : Nat) (s : Text) (c : Char) :
    Html.numberOf base (s ++ [c]) = Html.numberOf base s * base + Html.hexValue c := by
  rw [Html.numberOf, List.foldl_append]
  rfl

/-- The digits of a number to the base 16 are such digits and count the number. -/
theorem hexDigits_spec (n : Nat) :
    (∀ c ∈ Css.hexDigits n, Html.isHexDigit c) ∧ Html.numberOf 16 (Css.hexDigits n) = n := by
  induction n using Nat.strongRecOn with
  | ind n ih =>
    by_cases hlt : n < 16
    · obtain ⟨hdigit, hvalue⟩ := hexValue_digitChar hlt
      have hdigits : Css.hexDigits n = [n.digitChar] := Nat.toDigits_of_lt_base hlt
      rw [hdigits]
      exact ⟨List.forall_mem_singleton.2 hdigit, by simp [Html.numberOf, hvalue]⟩
    · obtain ⟨hall, hcount⟩ := ih (n / 16) (by omega)
      obtain ⟨hdigit, hvalue⟩ := hexValue_digitChar (Nat.mod_lt n (show 0 < 16 by decide))
      have hdigits : Css.hexDigits n = Css.hexDigits (n / 16) ++ [(n % 16).digitChar] :=
        Nat.toDigits_of_base_le (by decide) (by omega)
      rw [hdigits, numberOf_concat, hcount, hvalue]
      exact ⟨List.forall_mem_append.2 ⟨hall, List.forall_mem_singleton.2 hdigit⟩, by omega⟩

theorem numberOf_zeros_append (k : Nat) (s : Text) :
    Html.numberOf 16 (List.replicate k '0' ++ s) = Html.numberOf 16 s := by
  induction k with
  | zero => rfl
  | succ k ih => rw [← ih]; rfl

/-- Four digits are read back. -/
theorem fourHex?_fourHex {n : Nat} (h : n < 65536) (rest : Text) :
    fourHex? (fourHex n ++ rest) = some (n, rest) := by
  obtain ⟨hall, hcount⟩ := hexDigits_spec n
  have hlength : (Css.hexDigits n).length ≤ 4 :=
    (Nat.length_toDigits_le_iff (by decide) (by decide)).2 h
  have hfour : (fourHex n).length = 4 := by
    rw [fourHex, List.length_append, List.length_replicate]
    omega
  have hallFour : ∀ c ∈ fourHex n, Html.isHexDigit c := by
    refine List.forall_mem_append.2 ⟨fun c hc => ?_, hall⟩
    rw [List.eq_of_mem_replicate hc]
    rfl
  have hvalue : Html.numberOf 16 (fourHex n) = n := by
    rw [fourHex, numberOf_zeros_append, hcount]
  generalize fourHex n = digits at *
  match digits, hfour with
  | [a, b, c, d], _ =>
    have hfits : [a, b, c, d].all Html.isHexDigit = true := List.all_eq_true.2 hallFour
    simp only [List.cons_append, List.nil_append, fourHex?, hfits, if_true, hvalue]

/-! ## Characters by their numbers -/

/-- The numbers of characters leave out those of half a character. -/
theorem toNat_bounds (c : Char) :
    c.toNat < 0xD800 ∨ 0xDFFF < c.toNat ∧ c.toNat < 0x110000 :=
  c.valid

theorem charOf_toNat (c : Char) : charOf c.toNat = c := by
  have hvalid : c.toNat.isValidChar := c.valid
  rw [charOf, if_pos hvalid, Char.ofNat_toNat]

/-- A character that was written by its number is read back. -/
theorem unicode?_numberedChar (c : Char) (rest : Text) :
    ∃ s, numberedChar c ++ rest = '\\' :: 'u' :: s ∧ unicode? s = some (c, rest) := by
  have hbounds := toNat_bounds c
  have hchar : charOf c.toNat = c := charOf_toNat c
  have hback : Char.ofNat c.toNat = c := Char.ofNat_toNat c
  generalize hn : c.toNat = n at *
  rw [numberedChar, hn]
  by_cases hsmall : n < 0x10000
  · -- one number
    refine ⟨fourHex n ++ rest, by rw [if_pos hsmall]; rfl, ?_⟩
    have half : isHighHalf n = false := by
      simp only [isHighHalf, Bool.and_eq_false_iff, decide_eq_false_iff_not]
      omega
    simp only [unicode?, fourHex?_fourHex hsmall, half, Bool.false_eq_true, if_false, hchar]
  · -- the numbers of two halves
    obtain ⟨high, hhigh⟩ : ∃ high, high = 0xD800 + (n - 0x10000) / 0x400 := ⟨_, rfl⟩
    obtain ⟨low, hlow⟩ : ∃ low, low = 0xDC00 + (n - 0x10000) % 0x400 := ⟨_, rfl⟩
    rw [if_neg hsmall, ← hhigh, ← hlow]
    refine ⟨fourHex high ++ ('\\' :: 'u' :: (fourHex low ++ rest)), ?_, ?_⟩
    · simp [numbered]
    · have hhighHalf : isHighHalf high = true := by
        simp only [isHighHalf, Bool.and_eq_true, decide_eq_true_eq]
        omega
      have hlowHalf : isLowHalf low = true := by
        simp only [isLowHalf, Bool.and_eq_true, decide_eq_true_eq]
        omega
      have hsum : 0x10000 + (high - 0xD800) * 0x400 + (low - 0xDC00) = n := by omega
      rw [unicode?, fourHex?_fourHex (by omega)]
      simp only [hhighHalf, if_true, fourHex?_fourHex (show low < 65536 by omega), hlowHalf, hsum,
        hback]

/-! ## Strings -/

/-- The characters that a letter stands for after a backslash. -/
theorem letterFor?_cases {c letter : Char} (h : letterFor? c = some letter) :
    c = '"' ∧ letter = '"' ∨ c = '\\' ∧ letter = '\\' ∨ c = '\n' ∧ letter = 'n' ∨
      c = '\r' ∧ letter = 'r' ∨ c = '\t' ∧ letter = 't' ∨ c = '\x08' ∧ letter = 'b' ∨
      c = '\x0c' ∧ letter = 'f' := by
  obtain ⟨before, after, htable, -⟩ := List.lookup_eq_some_iff.1 h
  have hmem : (c, letter) ∈ before ++ (c, letter) :: after :=
    List.mem_append_right _ List.mem_cons_self
  rw [← htable] at hmem
  simpa only [List.mem_cons, List.not_mem_nil, or_false, Prod.mk.injEq] using hmem

variable {ascii : Bool}

/-- One character of a string is read back. -/
theorem readString_writeChar (fuel : Nat) (c : Char) (rest : Text) :
    readString (fuel + 1) (writeChar ascii c ++ rest) =
      (readString fuel rest).map fun found => (c :: found.1, found.2) := by
  cases hletter : letterFor? c with
  | some letter =>
    rcases letterFor?_cases hletter with ⟨rfl, -⟩ | ⟨rfl, -⟩ | ⟨rfl, -⟩ | ⟨rfl, -⟩ | ⟨rfl, -⟩ |
      ⟨rfl, -⟩ | ⟨rfl, -⟩ <;> rfl
  | none =>
    rw [writeChar, hletter]
    simp only
    split
    · obtain ⟨s, htext, hread⟩ := unicode?_numberedChar c rest
      rw [htext, readString, hread]
    · rename_i hplain
      have hquote : c ≠ '"' := by
        rintro rfl
        cases hletter
      have hslash : c ≠ '\\' := by
        rintro rfl
        cases hletter
      have hread : ¬(c.toNat < 0x20 ∨ c = '\\') := by
        rintro (hlow | hslash')
        · exact hplain (Or.inl hlow)
        · exact hslash hslash'
      rw [List.singleton_append, readString, if_neg hread]
      · exact hquote
      · exact fun _ h _ => hslash h
      · exact fun _ _ h _ => hslash h

theorem writeChar_ne_nil (c : Char) : writeChar ascii c ≠ [] := by
  rw [writeChar]
  split
  · exact List.cons_ne_nil _ _
  · split
    · obtain ⟨s, htext, -⟩ := unicode?_numberedChar c []
      rw [List.append_nil] at htext
      rw [htext]
      exact List.cons_ne_nil _ _
    · exact List.cons_ne_nil _ _

/-- A string does not get shorter when it is written. -/
theorem length_le_length_flatMap_writeChar (ascii : Bool) (text : Text) :
    text.length ≤ (text.flatMap (writeChar ascii)).length := by
  induction text with
  | nil => exact Nat.le_refl _
  | cons c text ih =>
    have hc : 0 < (writeChar ascii c).length := List.length_pos_iff.2 (writeChar_ne_nil c)
    rw [List.flatMap_cons, List.length_append, List.length_cons]
    omega

/-- A string is read back, and what stands behind its quote is left. -/
theorem readString_writeString (text rest : Text) {fuel : Nat} (h : text.length < fuel) :
    readString fuel (text.flatMap (writeChar ascii) ++ '"' :: rest) = .ok (text, rest) := by
  induction text generalizing fuel with
  | nil =>
    obtain ⟨fuel, rfl⟩ := Nat.exists_eq_add_of_lt h
    rfl
  | cons c text ih =>
    obtain ⟨fuel, rfl⟩ := Nat.exists_eq_add_of_lt h
    rw [List.flatMap_cons, List.append_assoc, readString_writeChar,
      ih (by rw [List.length_cons]; omega)]
    rfl

/-- What is written for strings tells them apart, and where they end. -/
theorem writeString_append_inj {s t rest rest' : Text}
    (h : writeString ascii s ++ rest = writeString ascii t ++ rest') : s = t ∧ rest = rest' := by
  simp only [writeString, List.cons_append, List.append_assoc, List.nil_append] at h
  have hread : readString (s.length + t.length + 1) (s.flatMap (writeChar ascii) ++ '"' :: rest) =
      .ok (s, rest) := readString_writeString s rest (by omega)
  rw [(List.cons.inj h).2, readString_writeString t rest' (by omega)] at hread
  cases hread
  exact ⟨rfl, rfl⟩

/-! ## Lines -/

/-- A digit to the base 16 is no character that ends a line. -/
theorem not_mem_fourHex (n : Nat) : '\r' ∉ fourHex n := by
  intro hmem
  rcases List.mem_append.1 hmem with hzero | hdigit
  · exact absurd (List.eq_of_mem_replicate hzero) (by decide)
  · exact absurd ((hexDigits_spec n).1 _ hdigit) (by decide)

theorem not_mem_numbered (n : Nat) : '\r' ∉ numbered n := by
  intro hmem
  rcases List.mem_cons.1 hmem with hslash | hmem
  · exact absurd hslash (by decide)
  · rcases List.mem_cons.1 hmem with hletter | hmem
    · exact absurd hletter (by decide)
    · exact not_mem_fourHex n hmem

theorem not_mem_writeChar (c : Char) : '\r' ∉ writeChar true c := by
  rw [writeChar]
  cases hletter : letterFor? c with
  | some letter =>
    show '\r' ∉ ['\\', letter]
    rcases letterFor?_cases hletter with ⟨-, rfl⟩ | ⟨-, rfl⟩ | ⟨-, rfl⟩ | ⟨-, rfl⟩ | ⟨-, rfl⟩ |
      ⟨-, rfl⟩ | ⟨-, rfl⟩ <;> decide
  | none =>
    simp only
    split
    · rw [numberedChar]
      split
      · exact not_mem_numbered _
      · exact fun hmem => (List.mem_append.1 hmem).elim (not_mem_numbered _) (not_mem_numbered _)
    · rename_i hplain
      intro hmem
      obtain rfl := List.mem_singleton.1 hmem
      exact hplain (Or.inl (by decide))

/-- A written string holds no carriage return. -/
theorem not_mem_writeString (text : Text) : '\r' ∉ writeString true text := by
  intro hmem
  rcases List.mem_cons.1 hmem with hquote | hmem
  · exact absurd hquote (by decide)
  · rcases List.mem_append.1 hmem with hmem | hquote
    · obtain ⟨c, -, hc⟩ := List.mem_flatMap.1 hmem
      exact not_mem_writeChar c hc
    · exact absurd (List.mem_singleton.1 hquote) (by decide)

end Json

end TemplateAudit
