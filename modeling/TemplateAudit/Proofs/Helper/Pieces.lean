import Mathlib.Data.List.Forall2
import TemplateAudit.Helper.Printer
import TemplateAudit.Proofs.Text.Trim

/-!
# Texts that stay in one piece

A text stays whole when the scanner for separators passes over it and goes on behind it as if nothing had
stood there; it stands alone when that is so outside of all brackets.  Texts that stand alone are got back from
their join (`pieces_join`), whatever white space stands around it; white space around a text changes none of
its pieces (`pieces_around`).  The scanner for the closing parenthesis is treated alike
(`closingParen?_parens`).
-/

namespace TemplateAudit

namespace Helper

variable {separator mark c : Char} {least : Nat} {text text' : Text}

/-! ## Staying whole -/

/-- The pieces with a text put in front of the first of them. -/
def prepend (text : Text) (pieces : Text × List Text) : Text × List Text :=
  (text ++ pieces.1, pieces.2)

theorem onFirst_eq_prepend (c : Char) (pieces : Text × List Text) :
    onFirst c pieces = prepend [c] pieces := rfl

theorem prepend_prepend (text text' : Text) (pieces : Text × List Text) :
    prepend text (prepend text' pieces) = prepend (text ++ text') pieces := by
  simp only [prepend, List.append_assoc]

/-- Inside of at least so many brackets no separator is found in the text, and what comes after it is
scanned as if it stood alone. -/
def StaysWhole (separator : Char) (least : Nat) (text : Text) : Prop :=
  ∀ depth, least ≤ depth → ∀ rest, piecesFrom separator none depth (text ++ rest) =
    prepend text (piecesFrom separator none depth rest)

/-- A character that means nothing to the scanners: no mark of a string, no bracket and no separator. -/
def IsPlain (separator c : Char) : Prop :=
  isQuote c = false ∧ isOpening c = false ∧ isClosing c = false ∧ c ≠ separator

instance (separator c : Char) : Decidable (IsPlain separator c) :=
  inferInstanceAs (Decidable (_ ∧ _ ∧ _ ∧ _))

namespace StaysWhole

theorem nil : StaysWhole separator least [] := fun _ _ _ => rfl

theorem append (h : StaysWhole separator least text) (h' : StaysWhole separator least text') :
    StaysWhole separator least (text ++ text') := by
  intro depth hdepth rest
  rw [List.append_assoc, h depth hdepth, h' depth hdepth, prepend_prepend]

theorem mono {more : Nat} (h : StaysWhole separator least text) (hmore : least ≤ more) :
    StaysWhole separator more text :=
  fun depth hdepth => h depth (Nat.le_trans hmore hdepth)

/-- One plain character stays whole. -/
theorem plain (hc : IsPlain separator c) : StaysWhole separator least [c] := by
  obtain ⟨hquote, hopening, hclosing, hseparator⟩ := hc
  intro depth _ rest
  simp only [List.singleton_append, piecesFrom, hquote, hopening, hclosing, hseparator,
    Bool.false_eq_true, false_and, if_false]
  rfl

/-- Inside of brackets a separator stays whole as well. -/
theorem enclosed (hplain : isQuote separator = false ∧ isOpening separator = false ∧
    isClosing separator = false) : StaysWhole separator 1 [separator] := by
  obtain ⟨hquote, hopening, hclosing⟩ := hplain
  intro depth hdepth rest
  have hdepth' : depth ≠ 0 := by omega
  simp only [List.singleton_append, piecesFrom, hquote, hopening, hclosing, hdepth',
    Bool.false_eq_true, and_false, if_false]
  rfl

/-- A text of plain characters stays whole. -/
theorem of_plain (h : ∀ c ∈ text, IsPlain separator c) : StaysWhole separator least text := by
  induction text with
  | nil => exact nil
  | cons c text ih =>
    obtain ⟨hc, htext⟩ := List.forall_mem_cons.1 h
    exact (plain hc).append (ih htext)

/-- Braces hold together what stays whole inside of brackets. -/
theorem braces (h : StaysWhole separator 1 text) :
    StaysWhole separator least ('\x7b' :: (text ++ ['\x7d'])) := by
  intro depth _ rest
  have hopens : isQuote '\x7b' = false ∧ isOpening '\x7b' = true := by decide
  have hcloses : isQuote '\x7d' = false ∧ isOpening '\x7d' = false ∧ isClosing '\x7d' = true := by decide
  rw [List.cons_append, List.append_assoc, List.singleton_append]
  simp only [piecesFrom, hopens, hcloses, h (depth + 1) (Nat.le_add_left 1 depth),
    Nat.add_sub_cancel, Bool.false_eq_true, if_false, if_true]
  rw [onFirst_eq_prepend, onFirst_eq_prepend, prepend_prepend, prepend_prepend]
  rfl

/-- Inside of brackets the commas of a join are no separators. -/
theorem join {texts : List Text} (h : ∀ text ∈ texts, StaysWhole ',' 1 text) :
    StaysWhole ',' 1 (Text.join ", " texts) := by
  induction texts with
  | nil => exact nil
  | cons first texts ih =>
    obtain ⟨hfirst, hrest⟩ := List.forall_mem_cons.1 h
    cases texts with
    | nil => exact hfirst
    | cons second texts =>
      have hcomma : StaysWhole ',' 1 ([','] ++ [' ']) :=
        (enclosed (by decide)).append (plain (by decide))
      exact (hfirst.append hcomma).append (ih hrest)

end StaysWhole

/-! ## Strings -/

/-- What stands between the marks of a string is passed over up to the mark that ends it. -/
theorem piecesFrom_escape (hmark : mark ≠ '\\') (depth : Nat) (text rest : Text) :
    piecesFrom separator (some mark) depth (escape mark text ++ mark :: rest) =
      prepend (escape mark text ++ [mark]) (piecesFrom separator none depth rest) := by
  induction text with
  | nil =>
    rw [escape_nil, List.nil_append, piecesFrom.eq_3 _ _ _ _ _ (by grind), if_pos rfl]
    rfl
  | cons c text ih =>
    rw [escape_cons, List.append_assoc]
    by_cases hc : c = mark ∨ c = '\\'
    · rw [quoteChar, if_pos hc, List.cons_append, List.singleton_append, piecesFrom, ih]
      rfl
    · obtain ⟨hne, hslash⟩ := not_or.1 hc
      rw [quoteChar, if_neg hc, List.singleton_append, piecesFrom.eq_3 _ _ _ _ _ (by grind),
        if_neg hne, ih]
      rfl

/-- A string stays whole. -/
theorem StaysWhole.quote (hmark : isQuote mark = true) (text : Text) :
    StaysWhole separator least (quote mark text) := by
  have hslash : mark ≠ '\\' := by rintro rfl; revert hmark; decide
  intro depth _ rest
  rw [Helper.quote, List.cons_append, List.append_assoc, List.singleton_append, piecesFrom,
    if_pos hmark, piecesFrom_escape hslash]
  rfl

/-! ## Standing alone -/

/-- Outside of all brackets no separator is found in the text, and what comes after it is scanned as if it stood
alone. -/
def StandsAlone (separator : Char) (text : Text) : Prop :=
  ∀ rest, piecesFrom separator none 0 (text ++ rest) = prepend text (piecesFrom separator none 0 rest)

theorem StaysWhole.standsAlone (h : StaysWhole separator 0 text) : StandsAlone separator text :=
  h 0 (Nat.le_refl 0)

theorem StandsAlone.append (h : StandsAlone separator text) (h' : StandsAlone separator text') :
    StandsAlone separator (text ++ text') := by
  intro rest
  rw [List.append_assoc, h, h', prepend_prepend]

/-! ## Cutting a join -/

/-- White space means nothing to the scanners. -/
theorem isPlain_of_isBlank (hseparator : Text.isBlank separator = false) (hc : Text.isBlank c = true) :
    IsPlain separator c := by
  refine ⟨?_, ?_, ?_, by rintro rfl; simp [hc] at hseparator⟩ <;>
  · refine Bool.eq_false_iff.2 fun hmark => ?_
    simp only [isQuote, isOpening, isClosing, Bool.or_eq_true, beq_iff_eq] at hmark
    rcases hmark with (rfl | rfl) | rfl <;> revert hc <;> decide

/-- White space stays whole. -/
theorem StaysWhole.of_blank (hseparator : Text.isBlank separator = false)
    (h : ∀ c ∈ text, Text.isBlank c = true) : StaysWhole separator least text :=
  of_plain fun c hc => isPlain_of_isBlank hseparator (h c hc)

theorem StandsAlone.of_blank (hseparator : Text.isBlank separator = false)
    (h : ∀ c ∈ text, Text.isBlank c = true) : StandsAlone separator text :=
  (StaysWhole.of_blank hseparator h).standsAlone

/-- A comma and a space between texts that stand alone: the pieces are these texts, and white space around
them, which is trimmed. -/
theorem map_trim_piecesFrom_join {first : Text} {texts : List Text}
    (halone : ∀ text ∈ first :: texts, StandsAlone ',' text)
    (htrimmed : ∀ text ∈ first :: texts, Text.IsTrimmed text) {before after : Text}
    (hbefore : ∀ c ∈ before, Text.isBlank c = true) (hafter : ∀ c ∈ after, Text.isBlank c = true) :
    let found := piecesFrom ',' none 0 (before ++ (Text.join ", " (first :: texts) ++ after))
    (found.1 :: found.2).map Text.trim = first :: texts := by
  have hcomma : Text.isBlank ',' = false := by decide
  induction texts generalizing first before with
  | nil =>
    obtain ⟨hfirst, -⟩ := List.forall_mem_cons.1 halone
    have hwritten := ((StandsAlone.of_blank hcomma hbefore).append hfirst).append
      (StandsAlone.of_blank hcomma hafter) []
    rw [List.append_nil, List.append_assoc] at hwritten
    simp only [Text.join, hwritten, prepend, piecesFrom, List.append_nil, List.map_cons, List.map_nil]
    rw [Text.trim_append_left hbefore, Text.trim_append_right hafter,
      (htrimmed first List.mem_cons_self).trim_eq]
  | cons second texts ih =>
    obtain ⟨hfirst, halone⟩ := List.forall_mem_cons.1 halone
    obtain ⟨htrim, htrimmed⟩ := List.forall_mem_cons.1 htrimmed
    have hwritten := ((StandsAlone.of_blank hcomma hbefore).append hfirst)
      (',' :: ([' '] ++ (Text.join ", " (second :: texts) ++ after)))
    have hcut : piecesFrom ',' none 0 (',' :: ([' '] ++ (Text.join ", " (second :: texts) ++ after))) =
        ([], (piecesFrom ',' none 0 ([' '] ++ (Text.join ", " (second :: texts) ++ after))).1 ::
          (piecesFrom ',' none 0 ([' '] ++ (Text.join ", " (second :: texts) ++ after))).2) := rfl
    have hspace : ∀ c ∈ [' '], Text.isBlank c = true := by decide
    have hrest := ih halone htrimmed hspace
    have htext : before ++ (Text.join ", " (first :: second :: texts) ++ after) =
        before ++ first ++ (',' :: ([' '] ++ (Text.join ", " (second :: texts) ++ after))) := by
      simp [Text.join]
    rw [htext, hwritten, hcut]
    simp only [prepend, List.append_nil, List.map_cons] at hrest ⊢
    rw [Text.trim_append_left hbefore, htrim.trim_eq, hrest]

/-- Texts that stand alone are the pieces of their join. -/
theorem pieces_join {texts : List Text} (halone : ∀ text ∈ texts, StandsAlone ',' text)
    (htrimmed : ∀ text ∈ texts, Text.IsTrimmed text) (hnonempty : ∀ text ∈ texts, text ≠ [])
    {before after : Text} (hbefore : ∀ c ∈ before, Text.isBlank c = true)
    (hafter : ∀ c ∈ after, Text.isBlank c = true) :
    pieces ',' (before ++ (Text.join ", " texts ++ after)) = texts := by
  cases texts with
  | nil =>
    have hblank : ∀ c ∈ before ++ after, Text.isBlank c = true := fun c hc =>
      (List.mem_append.1 hc).elim (hbefore c) (hafter c)
    have hcomma : Text.isBlank ',' = false := by decide
    have hwritten := StandsAlone.of_blank hcomma hblank []
    have htrim := Text.trim_append_left hblank []
    rw [List.append_nil] at hwritten htrim
    simp only [pieces, Text.join, List.nil_append, hwritten, prepend, piecesFrom, List.append_nil,
      List.map_cons, List.map_nil, htrim]
    rfl
  | cons first texts =>
    rw [pieces, map_trim_piecesFrom_join halone htrimmed hbefore hafter, List.filter_eq_self]
    intro text htext
    simp [hnonempty text htext]

/-! ## White space around a text -/

/-- Is the one piece the other, perhaps with white space behind it? -/
def SameButBlanks (piece piece' : Text) : Prop :=
  ∃ space, piece' = piece ++ space ∧ ∀ c ∈ space, Text.isBlank c = true

theorem SameButBlanks.refl (piece : Text) : SameButBlanks piece piece :=
  ⟨[], (List.append_nil piece).symm, by simp⟩

theorem SameButBlanks.cons {piece piece' : Text} (h : SameButBlanks piece piece') (c : Char) :
    SameButBlanks (c :: piece) (c :: piece') := by
  obtain ⟨space, rfl, hspace⟩ := h
  exact ⟨space, rfl, hspace⟩

/-- Are the pieces the same, perhaps with white space behind them? -/
def SamePieces (found found' : Text × List Text) : Prop :=
  List.Forall₂ SameButBlanks (found.1 :: found.2) (found'.1 :: found'.2)

theorem SamePieces.onFirst {found found' : Text × List Text} (h : SamePieces found found') (c : Char) :
    SamePieces (onFirst c found) (onFirst c found') := by
  obtain ⟨hfirst, hrest⟩ := List.forall₂_cons.1 h
  exact .cons (hfirst.cons c) hrest

/-- White space is one piece, in a string or not. -/
theorem piecesFrom_blank (hseparator : Text.isBlank separator = false) {space : Text}
    (hspace : ∀ c ∈ space, Text.isBlank c = true) (quote : Option Char) (depth : Nat) :
    piecesFrom separator quote depth space = (space, []) := by
  induction space generalizing quote with
  | nil => cases quote <;> rfl
  | cons c space ih =>
    cases quote with
    | none =>
      have hwhole := StaysWhole.of_blank hseparator hspace depth (Nat.zero_le depth) []
      rw [List.append_nil] at hwhole
      simp [hwhole, prepend, piecesFrom]
    | some mark =>
      obtain ⟨hc, hspace⟩ := List.forall_mem_cons.1 hspace
      have hslash : c ≠ '\\' := by
        rintro rfl
        exact absurd hc (by decide)
      rw [piecesFrom.eq_3 _ _ _ _ _ fun _ _ h => absurd h hslash, ih hspace]
      rfl

/-- A character and white space behind it are one piece in a string, even if the character is a backslash that
protects the white space. -/
theorem piecesFrom_cons_blank (hseparator : Text.isBlank separator = false) {space : Text}
    (hspace : ∀ c ∈ space, Text.isBlank c = true) (mark : Char) (depth : Nat) (c : Char) :
    piecesFrom separator (some mark) depth (c :: space) = (c :: space, []) := by
  have hplain : (∀ d s, c = '\\' → space ≠ d :: s) →
      piecesFrom separator (some mark) depth (c :: space) = (c :: space, []) := fun hslash => by
    rw [piecesFrom.eq_3 _ _ _ _ _ fun d s hc hspace => hslash d s hc hspace,
      piecesFrom_blank hseparator hspace]
    rfl
  cases space with
  | nil => exact hplain fun d s _ => (List.cons_ne_nil d s).symm
  | cons d space =>
    by_cases hc : c = '\\'
    · subst hc
      rw [piecesFrom, piecesFrom_blank hseparator (List.forall_mem_cons.1 hspace).2]
      rfl
    · exact hplain fun _ _ h => absurd h hc

/-- White space behind a text stays behind its last piece. -/
theorem piecesFrom_append_blank (hseparator : Text.isBlank separator = false) {space : Text}
    (hspace : ∀ c ∈ space, Text.isBlank c = true) (quote : Option Char) (depth : Nat) (text : Text) :
    SamePieces (piecesFrom separator quote depth text) (piecesFrom separator quote depth (text ++ space)) := by
  fun_induction piecesFrom separator quote depth text with
  | case1 quote depth =>
    rw [List.nil_append, piecesFrom_blank hseparator hspace]
    exact .cons ⟨space, rfl, hspace⟩ .nil
  | case2 mark depth c s ih =>
    rw [List.cons_append, List.cons_append, piecesFrom]
    exact (ih.onFirst c).onFirst '\\'
  | case3 mark depth c s hslash ih =>
    cases s with
    | nil =>
      have hleft : piecesFrom separator (if c = mark then none else some mark) depth [] = ([], []) :=
        piecesFrom_blank hseparator (by simp) _ depth
      rw [List.singleton_append, piecesFrom_cons_blank hseparator hspace, hleft]
      exact .cons ⟨space, rfl, hspace⟩ .nil
    | cons d s =>
      rw [List.cons_append, piecesFrom.eq_3 _ _ _ _ _ fun _ _ hc _ => hslash _ _ hc rfl]
      exact ih.onFirst c
  | case4 depth c s hquote ih =>
    rw [List.cons_append, piecesFrom, if_pos hquote]
    exact ih.onFirst c
  | case5 depth c s hquote hopens ih =>
    rw [List.cons_append, piecesFrom, if_neg hquote, if_pos hopens]
    exact ih.onFirst c
  | case6 depth c s hquote hopens hcloses ih =>
    rw [List.cons_append, piecesFrom, if_neg hquote, if_neg hopens, if_pos hcloses]
    exact ih.onFirst c
  | case7 depth c s hquote hopens hcloses hcuts _ ih =>
    rw [List.cons_append, piecesFrom, if_neg hquote, if_neg hopens, if_neg hcloses, if_pos hcuts]
    exact .cons (.refl []) ih
  | case8 depth c s hquote hopens hcloses hcuts ih =>
    rw [List.cons_append, piecesFrom, if_neg hquote, if_neg hopens, if_neg hcloses, if_neg hcuts]
    exact ih.onFirst c

theorem map_trim_of_sameButBlanks {found found' : List Text} (h : List.Forall₂ SameButBlanks found found') :
    found'.map Text.trim = found.map Text.trim := by
  induction h with
  | nil => rfl
  | cons hsame _ ih =>
    obtain ⟨space, rfl, hspace⟩ := hsame
    rw [List.map_cons, List.map_cons, ih, Text.trim_append_right hspace]

/-- White space around a text changes none of its pieces. -/
theorem pieces_around (hseparator : Text.isBlank separator = false) {before after : Text}
    (hbefore : ∀ c ∈ before, Text.isBlank c = true) (hafter : ∀ c ∈ after, Text.isBlank c = true) (s : Text) :
    pieces separator (before ++ (s ++ after)) = pieces separator s := by
  have hstart := StandsAlone.of_blank hseparator hbefore (s ++ after)
  have hend := map_trim_of_sameButBlanks (piecesFrom_append_blank hseparator hafter none 0 s)
  simp only [List.map_cons, List.cons.injEq] at hend
  rw [pieces, pieces, hstart]
  simp only [prepend, List.map_cons, Text.trim_append_left hbefore, hend]

theorem pieces_trim (hseparator : Text.isBlank separator = false) (s : Text) :
    pieces separator (Text.trim s) = pieces separator s := by
  obtain ⟨before, after, heq, hbefore, hafter⟩ := Text.exists_around_trim s
  conv_rhs => rw [heq]
  exact (pieces_around hseparator hbefore hafter _).symm

/-! ## The closing parenthesis -/

/-- The scanner for the closing parenthesis passes over the text. -/
def StaysInside (text : Text) : Prop :=
  ∀ depth index rest, closingFrom none depth index (text ++ rest) =
    closingFrom none depth (index + text.length) rest

namespace StaysInside

theorem nil : StaysInside [] := fun _ _ _ => rfl

theorem append (h : StaysInside text) (h' : StaysInside text') : StaysInside (text ++ text') := by
  intro depth index rest
  rw [List.append_assoc, h, h', List.length_append, Nat.add_assoc]

/-- A character that is no mark of a string and no parenthesis. -/
theorem char (hquote : isQuote c = false) (hopens : c ≠ '(') (hcloses : c ≠ ')') : StaysInside [c] := by
  intro depth index rest
  simp only [List.singleton_append, closingFrom, hquote, hopens, hcloses, Bool.false_eq_true, if_false]
  rfl

theorem of_forall (h : ∀ c ∈ text, isQuote c = false ∧ c ≠ '(' ∧ c ≠ ')') : StaysInside text := by
  induction text with
  | nil => exact nil
  | cons c text ih =>
    obtain ⟨⟨hquote, hopens, hcloses⟩, htext⟩ := List.forall_mem_cons.1 h
    exact (char hquote hopens hcloses).append (ih htext)

/-- A join of such texts. -/
theorem join {texts : List Text} (h : ∀ text ∈ texts, StaysInside text) :
    StaysInside (Text.join ", " texts) := by
  induction texts with
  | nil => exact nil
  | cons first texts ih =>
    obtain ⟨hfirst, hrest⟩ := List.forall_mem_cons.1 h
    cases texts with
    | nil => exact hfirst
    | cons second texts => exact (hfirst.append (of_forall (by decide))).append (ih hrest)

end StaysInside

theorem closingFrom_escape (hmark : mark ≠ '\\') (depth : Int) (index : Nat) (text rest : Text) :
    closingFrom (some mark) depth index (escape mark text ++ mark :: rest) =
      closingFrom none depth (index + (escape mark text).length + 1) rest := by
  induction text generalizing index with
  | nil => rw [escape_nil, List.nil_append, closingFrom.eq_3 _ _ _ _ _ (by grind), if_pos rfl]; rfl
  | cons c text ih =>
    rw [escape_cons, List.append_assoc, List.length_append]
    by_cases hc : c = mark ∨ c = '\\'
    · rw [quoteChar, if_pos hc, List.cons_append, List.singleton_append, closingFrom, ih]
      congr 1
      simp only [List.length_cons, List.length_nil]
      omega
    · obtain ⟨hne, hslash⟩ := not_or.1 hc
      rw [quoteChar, if_neg hc, List.singleton_append, closingFrom.eq_3 _ _ _ _ _ (by grind),
        if_neg hne, ih]
      congr 1
      simp only [List.length_cons, List.length_nil]
      omega

/-- A string is passed over whatever stands in it. -/
theorem StaysInside.quote (hmark : isQuote mark = true) (text : Text) :
    StaysInside (quote mark text) := by
  have hslash : mark ≠ '\\' := by rintro rfl; revert hmark; decide
  intro depth index rest
  rw [Helper.quote, List.cons_append, List.append_assoc, List.singleton_append, closingFrom,
    if_pos hmark, closingFrom_escape hslash]
  congr 1
  simp only [List.length_cons, List.length_append, List.length_nil]
  omega

/-- Parentheses around a text that is passed over are closed at the second one. -/
theorem closingParen?_parens (h : StaysInside text) (rest : Text) :
    closingParen? ('(' :: (text ++ ')' :: rest)) = some (text.length + 1) := by
  have hopens : isQuote '(' = false := by decide
  have hcloses : isQuote ')' = false ∧ ')' ≠ '(' := by decide
  simp only [closingParen?, closingFrom, hopens, Bool.false_eq_true, if_false, if_true]
  rw [h]
  simp only [closingFrom, hcloses, Bool.false_eq_true, if_false, Int.zero_add, if_true]
  rw [Nat.zero_add, Nat.add_comm]

end Helper

end TemplateAudit
