import TemplateAudit.Text.Blank

/-!
# The arguments of a call

Commas part arguments only outside of quotes and brackets.  This file holds the scanners that know
about quotes, escapes in quotes, and brackets: one cuts a text at its top-level separators, the
other finds the parenthesis that closes the first one.
-/

namespace TemplateAudit

namespace Helper

/-- The marks that begin and end a string. -/
def isQuote (c : Char) : Bool :=
  c == '\'' || c == '"'

/-- The brackets that open. -/
def isOpening (c : Char) : Bool :=
  c == '(' || c == '[' || c == '{'

/-- The brackets that close. -/
def isClosing (c : Char) : Bool :=
  c == ')' || c == ']' || c == '}'

/-! ## Cutting at separators -/

/-- The pieces with a character put in front of the first of them. -/
def onFirst (c : Char) (pieces : Text × List Text) : Text × List Text :=
  (c :: pieces.1, pieces.2)

/-- The pieces of a text between its top-level separators, the first piece apart.  The scan is inside
a string when `quote` gives the mark that ends it, and inside as many brackets as `depth` says; a
bracket that closes nothing is passed over, and in a string a backslash protects the next
character. -/
def piecesFrom (separator : Char) : Option Char → Nat → Text → Text × List Text
  | _, _, [] => ([], [])
  | some quote, depth, '\\' :: c :: s =>
    onFirst '\\' (onFirst c (piecesFrom separator (some quote) depth s))
  | some quote, depth, c :: s =>
    onFirst c (piecesFrom separator (if c = quote then none else some quote) depth s)
  | none, depth, c :: s =>
    if isQuote c then onFirst c (piecesFrom separator (some c) depth s)
    else if isOpening c then onFirst c (piecesFrom separator none (depth + 1) s)
    else if isClosing c then onFirst c (piecesFrom separator none (depth - 1) s)
    else if c = separator ∧ depth = 0 then
      let pieces := piecesFrom separator none depth s
      ([], pieces.1 :: pieces.2)
    else onFirst c (piecesFrom separator none depth s)

/-- The pieces of a text between its top-level separators, trimmed, without the empty ones. -/
def pieces (separator : Char) (s : Text) : List Text :=
  let found := piecesFrom separator none 0 s
  ((found.1 :: found.2).map Text.trim).filter fun piece => !piece.isEmpty

theorem length_piecesFrom_le (separator : Char) (quote : Option Char) (depth : Nat) (s : Text) :
    ∀ piece ∈ (piecesFrom separator quote depth s).1 :: (piecesFrom separator quote depth s).2,
      piece.length ≤ s.length := by
  fun_induction piecesFrom separator quote depth s <;>
    simp_all only [onFirst, List.mem_cons, List.not_mem_nil, or_false, forall_eq_or_imp,
      List.length_nil, List.length_cons, Nat.le_refl, forall_eq, Nat.zero_le, true_and,
      Nat.add_le_add_iff_right] <;>
    grind

/-- No piece is longer than the text. -/
theorem length_le_of_mem_pieces {separator : Char} {s piece : Text}
    (h : piece ∈ pieces separator s) : piece.length ≤ s.length := by
  simp only [pieces, List.mem_filter, List.mem_map] at h
  obtain ⟨⟨raw, hraw, rfl⟩, -⟩ := h
  exact Nat.le_trans (Text.length_trim_le raw) (length_piecesFrom_le separator none 0 s raw hraw)

/-! ## The closing parenthesis -/

/-- The index of the parenthesis at which the depth comes down to zero, counted from `index` on. -/
def closingFrom : Option Char → Int → Nat → Text → Option Nat
  | _, _, _, [] => none
  | some quote, depth, index, '\\' :: _ :: s => closingFrom (some quote) depth (index + 2) s
  | some quote, depth, index, c :: s =>
    closingFrom (if c = quote then none else some quote) depth (index + 1) s
  | none, depth, index, c :: s =>
    if isQuote c then closingFrom (some c) depth (index + 1) s
    else if c = '(' then closingFrom none (depth + 1) (index + 1) s
    else if c = ')' then
      if depth = 1 then some index else closingFrom none (depth - 1) (index + 1) s
    else closingFrom none depth (index + 1) s

/-- The index of the parenthesis that closes the first one of a text. -/
def closingParen? (s : Text) : Option Nat :=
  closingFrom none 0 0 s

end Helper

end TemplateAudit
