import TemplateAudit.Json.Reader
import TemplateAudit.Proofs.Decimal.Digits
import TemplateAudit.Proofs.Decimal.Shortest

/-!
# Numbers are read back

A canonical number that is set out in the layout of files is read back as itself, whatever stands behind
it (`readPlain_write`).
-/

namespace TemplateAudit

open Decimal

namespace Json

/-! ## The parts of a number -/

/-- What stands behind a number and does not belong to it. -/
def EndsNumber (rest : Text) : Prop :=
  ∀ c ∈ rest.head?, ¬c.isDigit ∧ c ≠ '.' ∧ c ≠ 'e' ∧ c ≠ 'E'

theorem takeWhile_digits {digits rest : Text} (h : AllDigits digits)
    (hrest : ∀ c ∈ rest.head?, ¬c.isDigit) :
    (digits ++ rest).takeWhile Char.isDigit = digits ∧
      (digits ++ rest).dropWhile Char.isDigit = rest := by
  rw [List.takeWhile_append_of_pos h, List.dropWhile_append_of_pos h]
  cases rest with
  | nil => simp
  | cons c rest =>
    have hc : ¬c.isDigit := hrest c rfl
    simp [hc]

/-- Digits that may stand before the point. -/
def IsWhole (digits : Text) : Prop :=
  digits = ['0'] ∨ AllDigits digits ∧ ∃ c s, digits = c :: s ∧ c ≠ '0'

theorem wholeDigits?_append {digits rest : Text} (h : IsWhole digits)
    (hrest : ∀ c ∈ rest.head?, ¬c.isDigit) : wholeDigits? (digits ++ rest) = some (digits, rest) := by
  rcases h with rfl | ⟨hdigits, c, s, rfl, hc⟩
  · rfl
  · obtain ⟨htake, hdrop⟩ :=
      takeWhile_digits (fun d hd => hdigits d (List.mem_cons_of_mem _ hd)) hrest
    rw [List.cons_append, wholeDigits?, if_pos (hdigits c List.mem_cons_self), htake, hdrop]
    exact fun h => hc h

/-- Digits after the point, with the point. -/
def pointed (digits : Text) : Text :=
  if digits.isEmpty then [] else '.' :: digits

theorem fractionDigits_append {digits rest : Text} (h : AllDigits digits)
    (hrest : ∀ c ∈ rest.head?, ¬c.isDigit ∧ c ≠ '.') :
    fractionDigits (pointed digits ++ rest) = (digits, rest) := by
  cases digits with
  | nil =>
    have hhead : ∀ c t, rest ≠ '.' :: c :: t := fun c t heq => (hrest '.' (by rw [heq]; rfl)).2 rfl
    have hpointed : pointed [] ++ rest = rest := rfl
    rw [hpointed, fractionDigits]
    exact hhead
  | cons c digits =>
    obtain ⟨htake, hdrop⟩ := takeWhile_digits (fun d hd => h d (List.mem_cons_of_mem _ hd))
      fun d hd => (hrest d hd).1
    have hpointed : pointed (c :: digits) ++ rest = '.' :: c :: (digits ++ rest) := rfl
    rw [hpointed, fractionDigits, if_pos (h c List.mem_cons_self), htake, hdrop]

/-- An exponent with its sign. -/
def powered : Option (Bool × Text) → Text
  | none => []
  | some (negative, digits) => 'e' :: (if negative then '-' else '+') :: digits

theorem exponentOf_append {exponent : Option (Bool × Text)} {rest : Text}
    (h : ∀ e ∈ exponent, e.2 ≠ [] ∧ AllDigits e.2) (hrest : EndsNumber rest) :
    exponentOf (powered exponent ++ rest) = (exponent.map fun e => intOf e.1 e.2, rest) := by
  cases exponent with
  | none =>
    cases rest with
    | nil => rfl
    | cons c rest =>
      obtain ⟨-, -, he, hE⟩ := hrest c rfl
      have hnot : ¬(c = 'e' ∨ c = 'E') := fun h => h.elim he hE
      rw [powered, List.nil_append, exponentOf, if_neg hnot]
      rfl
  | some signed =>
    obtain ⟨negative, digits⟩ := signed
    obtain ⟨hne, hdigits⟩ := h _ rfl
    obtain ⟨htake, hdrop⟩ := takeWhile_digits hdigits fun d hd => (hrest d hd).1
    have hsign : sign ((if negative then '-' else '+') :: (digits ++ rest)) =
        (negative, digits ++ rest) := by
      cases negative <;> rfl
    have hpowered : powered (some (negative, digits)) ++ rest =
        'e' :: (if negative then '-' else '+') :: (digits ++ rest) := rfl
    rw [hpowered, exponentOf, if_pos (Or.inl rfl)]
    simp only [hsign, htake, hdrop, List.isEmpty_iff, hne, if_false, Option.map_some]

theorem head?_powered_append (exponent : Option (Bool × Text)) {rest : Text}
    (hrest : EndsNumber rest) : ∀ c ∈ (powered exponent ++ rest).head?, ¬c.isDigit ∧ c ≠ '.' := by
  cases exponent with
  | none => exact fun c hc => ⟨(hrest c hc).1, (hrest c hc).2.1⟩
  | some signed =>
    intro c hc
    obtain rfl : 'e' = c := Option.some.inj hc
    decide

theorem head?_pointed_append {fraction rest : Text}
    (hrest : ∀ c ∈ rest.head?, ¬c.isDigit ∧ c ≠ '.') :
    ∀ c ∈ (pointed fraction ++ rest).head?, ¬c.isDigit := by
  cases fraction with
  | nil => exact fun c hc => (hrest c hc).1
  | cons d fraction =>
    intro c hc
    obtain rfl : '.' = c := Option.some.inj hc
    decide

/-- A number with a fraction or an exponent is read as its parts say. -/
theorem readUnsigned_append (negative : Bool) {whole fraction rest : Text}
    {exponent : Option (Bool × Text)} (hwhole : IsWhole whole) (hfraction : AllDigits fraction)
    (hexponent : ∀ e ∈ exponent, e.2 ≠ [] ∧ AllDigits e.2)
    (hsome : fraction ≠ [] ∨ exponent.isSome) (hrest : EndsNumber rest) :
    readUnsigned negative (whole ++ (pointed fraction ++ (powered exponent ++ rest))) =
      .ok (.float (doubleOf negative whole fraction ((exponent.map fun e => intOf e.1 e.2).getD 0)),
        rest) := by
  have hpowered := head?_powered_append exponent hrest
  have hfloat : (fraction.isEmpty && (exponent.map fun e => intOf e.1 e.2).isNone) = false := by
    rcases hsome with h | h
    · simp [h]
    · obtain ⟨e, rfl⟩ := Option.isSome_iff_exists.1 h
      simp
  rw [readUnsigned, wholeDigits?_append hwhole (head?_pointed_append hpowered)]
  simp only [fractionDigits_append hfraction hpowered, exponentOf_append hexponent hrest, hfloat,
    Bool.false_eq_true, if_false]

/-! ## What digits are rounded to -/

/-- Eight is less than ten. -/
theorem two_pow_three_mul_le (n : Nat) : (2 : ℚ) ^ (3 * n : Int) ≤ 10 ^ (n : Int) := by
  rw [zpow_mul, zpow_natCast, zpow_natCast]
  exact pow_le_pow_left₀ (by positivity) (by norm_num) n

/-- How many digits count, when zeros in front do not. -/
theorem natOfDigits_bounds {digits : Text} (h : AllDigits digits) (hne : natOfDigits digits ≠ 0) :
    natOfDigits digits < 10 ^ (digits.dropWhile (· == '0')).length ∧
      10 ^ ((digits.dropWhile (· == '0')).length - 1) ≤ natOfDigits digits := by
  have hhead := List.head?_dropWhile_not (· == '0') digits
  have hrest : AllDigits (digits.dropWhile (· == '0')) := fun c hc =>
    h c ((List.dropWhile_sublist _).subset hc)
  rw [← natOfDigits_dropWhile_zero] at hne ⊢
  cases hdigits : digits.dropWhile (· == '0') with
  | nil =>
    rw [hdigits] at hne
    exact absurd rfl hne
  | cons c s =>
    rw [hdigits] at hhead hrest
    have hc : c ≠ '0' := by simpa using hhead
    exact ⟨natOfDigits_lt hrest, pow_le_natOfDigits (hrest c List.mem_cons_self) hc⟩

/-- Digits that are nearest to a canonical number stand for it. -/
theorem doubleOf_eq {negative : Bool} {m : Nat} {e : Int} {whole fraction : Text} {exponent : Int}
    (hm : 0 < m) (hcanonical : (Double.finite negative m e).Canonical)
    (hdigits : AllDigits (whole ++ fraction)) (hne : natOfDigits (whole ++ fraction) ≠ 0)
    (hrounds : Double.Rounds m e
      (natOfDigits (whole ++ fraction) * 10 ^ (exponent - fraction.length))) :
    doubleOf negative whole fraction exponent = .finite negative m e := by
  obtain ⟨hlt, hle⟩ := natOfDigits_bounds hdigits hne
  have hm' : (1 : ℚ) ≤ m := by exact_mod_cast hm
  have hpow : (0 : ℚ) < 2 ^ e := by positivity
  simp only [doubleOf]
  generalize ((whole ++ fraction).dropWhile (· == '0')).length = count at *
  generalize natOfDigits (whole ++ fraction) = n at *
  generalize exponent - (fraction.length : Int) = k at *
  have hk : (0 : ℚ) < 10 ^ k := by positivity
  -- the digits count neither too much nor too little
  have hhuge : ¬k + count > 400 := by
    intro hhuge
    have hlower : (10 : ℚ) ^ ((400 : Nat) : Int) ≤ n * 10 ^ k := by
      calc (10 : ℚ) ^ ((400 : Nat) : Int) ≤ 10 ^ (((count - 1 : Nat) : Int) + k) :=
            zpow_le_zpow_right₀ (by norm_num) (by omega)
        _ = 10 ^ (count - 1) * 10 ^ k := by rw [zpow_add₀ (by norm_num), zpow_natCast]
        _ ≤ n * 10 ^ k := by
            gcongr
            exact_mod_cast hle
    have hpowers := (two_pow_three_mul_le 400).trans (hlower.trans (hrounds.lt hm hcanonical).le)
    exact absurd ((zpow_le_zpow_iff_right₀ one_lt_two).1 hpowers) (by decide)
  have htiny : ¬k + count < -400 := by
    intro htiny
    have hupper : (n : ℚ) * 10 ^ k < (10 ^ ((401 : Nat) : Int))⁻¹ := by
      calc (n : ℚ) * 10 ^ k < 10 ^ count * 10 ^ k := by
            gcongr
            exact_mod_cast hlt
        _ = 10 ^ ((count : Int) + k) := by rw [zpow_add₀ (by norm_num), zpow_natCast]
        _ ≤ 10 ^ (-((401 : Nat) : Int)) := zpow_le_zpow_right₀ (by norm_num) (by push_cast; omega)
        _ = (10 ^ ((401 : Nat) : Int))⁻¹ := zpow_neg ..
    have hpowers := (hrounds.ge hm hcanonical).trans
      (hupper.le.trans (inv_anti₀ (by positivity) (two_pow_three_mul_le 401)))
    rw [← zpow_neg] at hpowers
    exact absurd ((zpow_le_zpow_iff_right₀ one_lt_two).1 hpowers) (by decide)
  rw [Double.ofDecimal, if_neg hne, if_neg hhuge, if_neg htiny]
  refine Double.ofRatio_eq hm hcanonical (scaledByTen_snd_pos _ _) ?_
  rwa [value_scaledByTen]

/-! ## The parts of what is written -/

/-- A text consists of the parts of a number that count `value`. -/
def IsSetOut (text : Text) (value : ℚ) : Prop :=
  ∃ whole fraction exponent, text = whole ++ (pointed fraction ++ powered exponent) ∧
    IsWhole whole ∧ AllDigits (whole ++ fraction) ∧ (∀ e ∈ exponent, e.2 ≠ [] ∧ AllDigits e.2) ∧
    (fraction ≠ [] ∨ exponent.isSome) ∧ natOfDigits (whole ++ fraction) ≠ 0 ∧
    (natOfDigits (whole ++ fraction) : ℚ) *
      10 ^ ((exponent.map fun e => intOf e.1 e.2).getD 0 - fraction.length) = value

section Point

variable {digits : Nat} {text : Text} {c : Char} {s : Text} {count : Int}

/-- The point stands in front of all digits. -/
theorem isSetOut_point_before (hall : AllDigits text) (hvalue : natOfDigits text = digits)
    (hdigits : digits ≠ 0) (hne : text ≠ []) (h : count ≤ 0) :
    IsSetOut (withPoint text count) (digits * 10 ^ (count - text.length)) := by
  have hsame : natOfDigits (['0'] ++ (List.replicate count.natAbs '0' ++ text)) = digits := by
    rw [natOfDigits_append, natOfDigits_append, natOfDigits_zeros, hvalue]
    simp [natOfDigits]
  refine ⟨['0'], List.replicate count.natAbs '0' ++ text, none, ?_, Or.inl rfl, ?_, by simp,
    by simp [hne], by rwa [hsame], ?_⟩
  · rw [withPoint, if_pos h, pointed, if_neg (by simp [hne])]
    simp [powered]
  · exact AllDigits.append (List.forall_mem_singleton.2 rfl) ((allDigits_zeros _).append hall)
  · rw [hsame, List.length_append, List.length_replicate, Option.map_none, Option.getD_none]
    congr 2
    omega

/-- The point stands among the digits. -/
theorem isSetOut_point_among (hall : AllDigits text) (hvalue : natOfDigits text = digits)
    (hdigits : digits ≠ 0) (htext : text = c :: s) (hc : c ≠ '0') (h : 0 < count)
    (hlen : count.toNat < text.length) :
    IsSetOut (withPoint text count) (digits * 10 ^ (count - text.length)) := by
  have hsame : natOfDigits (text.take count.toNat ++ text.drop count.toNat) = digits := by
    rw [List.take_append_drop, hvalue]
  have hrest : text.drop count.toNat ≠ [] := by simpa using hlen
  refine ⟨text.take count.toNat, text.drop count.toNat, none, ?_, ?_, ?_, by simp, Or.inl hrest,
    by rwa [hsame], ?_⟩
  · rw [withPoint, if_neg h.not_ge]
    simp only [Nat.sub_eq_zero_of_le hlen.le, List.replicate_zero, List.append_nil, pointed,
      List.isEmpty_iff, if_neg hrest, powered]
  · refine Or.inr ⟨fun d hd => hall d (List.mem_of_mem_take hd), c, s.take (count.toNat - 1), ?_, hc⟩
    rw [htext, List.take_cons (by omega)]
  · rwa [List.take_append_drop]
  · rw [hsame, List.length_drop, Option.map_none, Option.getD_none]
    congr 2
    omega

/-- The point stands behind all digits. -/
theorem isSetOut_point_after (hall : AllDigits text) (hvalue : natOfDigits text = digits)
    (hdigits : digits ≠ 0) (htext : text = c :: s) (hc : c ≠ '0') (h : 0 < count)
    (hlen : text.length ≤ count.toNat) :
    IsSetOut (withPoint text count) (digits * 10 ^ (count - text.length)) := by
  obtain ⟨zeros, hzeros⟩ : ∃ zeros : Nat, zeros = count.toNat - text.length := ⟨_, rfl⟩
  have hsame : natOfDigits (text ++ List.replicate zeros '0' ++ ['0']) = digits * 10 ^ (zeros + 1) := by
    rw [natOfDigits_append, natOfDigits_append, natOfDigits_zeros, hvalue, List.length_replicate,
      pow_succ]
    simp [natOfDigits, mul_assoc]
  refine ⟨text ++ List.replicate zeros '0', ['0'], none, ?_, ?_, ?_, by simp, by simp, ?_, ?_⟩
  · rw [withPoint, if_neg h.not_ge, hzeros]
    simp [List.take_of_length_le hlen, List.drop_of_length_le hlen, pointed, powered]
  · refine Or.inr ⟨hall.append (allDigits_zeros _), c, s ++ List.replicate zeros '0', ?_, hc⟩
    rw [htext, List.cons_append]
  · exact (hall.append (allDigits_zeros _)).append (List.forall_mem_singleton.2 rfl)
  · rw [hsame]
    positivity
  · rw [hsame, Option.map_none, Option.getD_none]
    push_cast
    rw [mul_assoc, ← zpow_natCast, ← zpow_add₀ (by norm_num)]
    congr 2
    simp only [List.length_singleton]
    omega

end Point

/-- Digits with a point count the power of ten that says where the point stands. -/
theorem isSetOut_withPoint {digits : Nat} (hdigits : digits ≠ 0) (count : Int) :
    IsSetOut (withPoint (Text.ofNat digits) count)
      (digits * 10 ^ (count - (Text.ofNat digits).length)) := by
  obtain ⟨c, s, htext, -, hc⟩ := ofNat_eq_cons hdigits
  have hall := allDigits_ofNat digits
  have hvalue := natOfDigits_ofNat digits
  rcases le_or_gt count 0 with h | h
  · exact isSetOut_point_before hall hvalue hdigits (by simp [htext]) h
  · rcases Nat.lt_or_ge count.toNat (Text.ofNat digits).length with hlen | hlen
    · exact isSetOut_point_among hall hvalue hdigits htext hc h hlen
    · exact isSetOut_point_after hall hvalue hdigits htext hc h hlen

/-- An exponent that was set out consists of a sign and digits. -/
theorem exists_powered {layout : Layout} (hsign : layout.positiveSign = ['+']) (first : Int) :
    ∃ signed, 'e' :: layout.exponent first = powered (some signed) ∧ signed.2 ≠ [] ∧
      AllDigits signed.2 ∧ intOf signed.1 signed.2 = first := by
  obtain ⟨digits, hdigits⟩ : ∃ digits : Text, digits =
      List.replicate (layout.exponentDigits - (Text.ofNat first.natAbs).length) '0' ++
        Text.ofNat first.natAbs := ⟨_, rfl⟩
  have hvalue : natOfDigits digits = first.natAbs := by
    rw [hdigits, natOfDigits_append, natOfDigits_zeros, natOfDigits_ofNat, Nat.zero_mul, Nat.zero_add]
  have hall : AllDigits digits := hdigits ▸ (allDigits_zeros _).append (allDigits_ofNat _)
  have hne : digits ≠ [] := by
    rw [hdigits, Text.ofNat]
    simp
  rw [Layout.exponent, hsign, List.append_assoc, ← hdigits]
  by_cases h : first < 0
  · refine ⟨(true, digits), by rw [if_pos h]; rfl, hne, hall, ?_⟩
    simp only [intOf, if_true, hvalue]
    omega
  · refine ⟨(false, digits), by rw [if_neg h]; rfl, hne, hall, ?_⟩
    simp only [intOf, Bool.false_eq_true, if_false, hvalue]
    omega

/-- Digits that were set out count the power of ten that was asked for. -/
theorem isSetOut_digits {layout : Layout} (hsign : layout.positiveSign = ['+']) {digits : Nat}
    (hdigits : digits ≠ 0) (power : Int) :
    IsSetOut (layout.digits digits power) (digits * 10 ^ power) := by
  simp only [Layout.digits]
  split
  · have hpointed := isSetOut_withPoint hdigits (power + (Text.ofNat digits).length - 1 + 1)
    have hpower : power + (Text.ofNat digits).length - 1 + 1 - (Text.ofNat digits).length = power := by
      omega
    rwa [hpower] at hpointed
  · obtain ⟨c, s, htext, hdigit, hc⟩ := ofNat_eq_cons hdigits
    have hall := allDigits_ofNat digits
    have hvalue := natOfDigits_ofNat digits
    rw [htext] at hall hvalue ⊢
    -- the exponent is that of the first digit
    obtain ⟨signed, htail, hne, hsigned, hread⟩ :=
      exists_powered hsign (power + (c :: s).length - 1)
    rw [htail]
    refine ⟨[c], s, some signed, ?_, ?_, hall, ?_, Or.inr rfl, ?_, ?_⟩
    · cases s <;> rfl
    · exact Or.inr ⟨List.forall_mem_singleton.2 hdigit, c, [], rfl, hc⟩
    · intro e he
      obtain rfl := Option.some.inj he
      exact ⟨hne, hsigned⟩
    · rwa [List.singleton_append, hvalue]
    · rw [List.singleton_append, hvalue, Option.map_some, Option.getD_some, hread]
      congr 2
      rw [List.length_cons]
      omega

/-! ## Names and signs -/

/-- No name begins with a digit, or with a minus sign and a digit. -/
theorem findSome?_namedValues {c : Char} (hc : c.isDigit) (s : Text) :
    (namedValues.findSome? fun named => (named.1.isPrefixOf? (c :: s)).map (named.2, ·)) = none ∧
      (namedValues.findSome? fun named =>
        (named.1.isPrefixOf? ('-' :: c :: s)).map (named.2, ·)) = none := by
  have hne : ∀ d : Char, d.isDigit = false → d ≠ c := by
    rintro d hd rfl
    rw [hc] at hd
    cases hd
  have hn := hne 'n' rfl
  have ht := hne 't' rfl
  have hf := hne 'f' rfl
  have hN := hne 'N' rfl
  have hI := hne 'I' rfl
  have hminus := hne '-' rfl
  constructor
  · simp [namedValues, List.isPrefixOf?, hn, ht, hf, hN, hI, hminus]
  · simp [namedValues, List.isPrefixOf?, hI]

theorem readPlain_digit {c : Char} {s : Text} (hc : c.isDigit) :
    readPlain (c :: s) = readUnsigned false (c :: s) := by
  rw [readPlain, (findSome?_namedValues hc s).1]
  intro t heq
  obtain ⟨rfl, -⟩ := List.cons.inj heq
  cases hc

theorem readPlain_minus {c : Char} {s : Text} (hc : c.isDigit) :
    readPlain ('-' :: c :: s) = readUnsigned true (c :: s) := by
  rw [readPlain, (findSome?_namedValues hc s).2]

/-- A sign in front of digits is read as the sign of the number. -/
theorem readPlain_signed (negative : Bool) {c : Char} {s : Text} (hc : c.isDigit) :
    readPlain ((if negative then ['-'] else []) ++ c :: s) = readUnsigned negative (c :: s) := by
  cases negative with
  | false => exact readPlain_digit hc
  | true => exact readPlain_minus hc

/-- What was set out begins with a digit. -/
theorem IsSetOut.eq_cons {text : Text} {value : ℚ} (h : IsSetOut text value) :
    ∃ c s, text = c :: s ∧ c.isDigit := by
  obtain ⟨whole, fraction, exponent, rfl, hwhole, -⟩ := h
  rcases hwhole with rfl | ⟨hdigits, c, s, rfl, -⟩
  · exact ⟨'0', _, rfl, rfl⟩
  · exact ⟨c, _, rfl, hdigits c List.mem_cons_self⟩

/-- The parts of a number are read as the canonical number that they are nearest to. -/
theorem readUnsigned_isSetOut {negative : Bool} {m : Nat} {e : Int} {text rest : Text} {value : ℚ}
    (hm : 0 < m) (hcanonical : (Double.finite negative m e).Canonical) (htext : IsSetOut text value)
    (hrounds : Double.Rounds m e value) (hrest : EndsNumber rest) :
    readUnsigned negative (text ++ rest) = .ok (.float (.finite negative m e), rest) := by
  obtain ⟨whole, fraction, exponent, rfl, hwhole, hall, hexponent, hsome, hne, rfl⟩ := htext
  rw [List.append_assoc, List.append_assoc, readUnsigned_append negative hwhole
    (fun d hd => hall d (List.mem_append_right _ hd)) hexponent hsome hrest,
    doubleOf_eq hm hcanonical hall hne hrounds]

/-- **A number is read back.**  What a canonical number is written as in a file is read as the number,
and what stands behind it is left. -/
theorem readPlain_write {x : Double} (hx : x.Canonical) {rest : Text} (hrest : EndsNumber rest) :
    readPlain (fileLayout.write x ++ rest) = .ok (.float x, rest) := by
  cases x with
  | nan => rfl
  | infinite negative => cases negative <;> rfl
  | finite negative m e =>
    by_cases hm : m = 0
    · -- zero
      subst hm
      obtain ⟨-, hleast, -, hfull⟩ := hx
      have he : e = Double.leastExponent := by
        by_contra hne
        exact absurd (hfull (by omega)) (by decide)
      have hnone : ∀ signed ∈ (none : Option (Bool × Text)), signed.2 ≠ [] ∧ AllDigits signed.2 :=
        fun signed hsigned => by cases hsigned
      have hzero := readUnsigned_append negative (Or.inl rfl) (List.forall_mem_singleton.2 rfl)
        hnone (Or.inl (List.cons_ne_nil '0' [])) hrest
      rw [Layout.write, if_pos rfl, List.append_assoc, he]
      exact (readPlain_signed negative rfl).trans hzero
    · obtain ⟨hrounds, hne⟩ := shortest_rounds (Nat.pos_of_ne_zero hm) hx
      have hsign : fileLayout.positiveSign = ['+'] := rfl
      have hsetOut := isSetOut_digits hsign hne (shortest m e).2
      obtain ⟨c, s, htext, hc⟩ := hsetOut.eq_cons
      have hread := readUnsigned_isSetOut (Nat.pos_of_ne_zero hm) hx hsetOut hrounds hrest
      rw [Layout.write, if_neg hm, List.append_assoc]
      rw [htext] at hread ⊢
      exact (readPlain_signed negative hc).trans hread

/-! ## Lines -/

theorem not_mem_of_allDigits {digits : Text} (h : AllDigits digits) : '\r' ∉ digits :=
  fun hmem => absurd (h _ hmem) (by decide)

/-- The parts of a number hold no carriage return. -/
theorem IsSetOut.not_mem {text : Text} {value : ℚ} (h : IsSetOut text value) : '\r' ∉ text := by
  obtain ⟨whole, fraction, exponent, rfl, -, hall, hexponent, -⟩ := h
  obtain ⟨hwhole, hfraction⟩ := List.forall_mem_append.1 hall
  have hpointed : '\r' ∉ pointed fraction := by
    unfold pointed
    split
    · exact List.not_mem_nil
    · exact List.not_mem_cons_of_ne_of_not_mem (by decide) (not_mem_of_allDigits hfraction)
  have hpowered : '\r' ∉ powered exponent := by
    cases exponent with
    | none => exact List.not_mem_nil
    | some signed =>
      obtain ⟨negative, digits⟩ := signed
      have hdigits := not_mem_of_allDigits (hexponent _ rfl).2
      refine List.not_mem_cons_of_ne_of_not_mem (by decide)
        (List.not_mem_cons_of_ne_of_not_mem ?_ hdigits)
      cases negative <;> decide
  simp only [List.mem_append, not_or]
  exact ⟨not_mem_of_allDigits hwhole, hpointed, hpowered⟩

/-- A canonical number in a file holds no carriage return. -/
theorem not_mem_write {x : Double} (hx : x.Canonical) : '\r' ∉ fileLayout.write x := by
  cases x with
  | nan => decide
  | infinite negative => cases negative <;> decide
  | finite negative m e =>
    have hminus : '\r' ∉ (if negative then ['-'] else [] : Text) := by
      cases negative <;> decide
    rw [Layout.write]
    split
    · exact fun hmem => (List.mem_append.1 hmem).elim hminus (by decide)
    · rename_i hm
      have hne := (shortest_rounds (Nat.pos_of_ne_zero hm) hx).2
      have hsign : fileLayout.positiveSign = ['+'] := rfl
      have hsetOut := isSetOut_digits hsign hne (shortest m e).2
      exact fun hmem => (List.mem_append.1 hmem).elim hminus hsetOut.not_mem

end Json

end TemplateAudit
