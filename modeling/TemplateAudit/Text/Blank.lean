import TemplateAudit.Text.Basic

/-!
# White space

The characters that separate words, in every script, and what is done with them: trimming a text
and cutting it into words.
-/

namespace TemplateAudit

namespace Text

/-! ## The characters -/

/-- White space: the control characters for tabs, line ends and the four separators, the spaces
of all widths, and the line and paragraph separators. -/
def isBlank (c : Char) : Bool :=
  let n := c.toNat
  (9 ≤ n && n ≤ 13) || (28 ≤ n && n ≤ 32) || n = 0x85 || n = 0xA0 || n = 0x1680 ||
    (0x2000 ≤ n && n ≤ 0x200A) || n = 0x2028 || n = 0x2029 || n = 0x202F || n = 0x205F || n = 0x3000

/-! ## Trimming -/

/-- A text without the white space it begins with. -/
def trimStart (s : Text) : Text :=
  s.dropWhile isBlank

/-- A text without the white space it ends with. -/
def trimEnd (s : Text) : Text :=
  (s.reverse.dropWhile isBlank).reverse

/-- A text without the white space around it. -/
def trim (s : Text) : Text :=
  trimEnd (trimStart s)

/-- Does a text neither begin nor end with white space? -/
def IsTrimmed (s : Text) : Prop :=
  (∀ c ∈ s.head?, isBlank c = false) ∧ ∀ c ∈ s.getLast?, isBlank c = false

instance (s : Text) : Decidable (IsTrimmed s) :=
  @instDecidableAnd _ _ s.head?.decidableForallMem s.getLast?.decidableForallMem

theorem length_dropWhile_le (p : Char → Bool) (s : Text) : (s.dropWhile p).length ≤ s.length :=
  (List.dropWhile_sublist p).length_le

theorem length_trimStart_le (s : Text) : (trimStart s).length ≤ s.length :=
  length_dropWhile_le _ s

theorem length_trimEnd_le (s : Text) : (trimEnd s).length ≤ s.length := by
  simpa [trimEnd] using length_dropWhile_le isBlank s.reverse

theorem length_trim_le (s : Text) : (trim s).length ≤ s.length :=
  Nat.le_trans (length_trimEnd_le _) (length_trimStart_le s)

/-- A text that is empty or white space only says nothing. -/
def saysNothing (s : Text) : Bool :=
  s.all isBlank

/-- A text without the `mark`s around it. -/
def trimChar (mark : Char) (s : Text) : Text :=
  ((s.dropWhile (· == mark)).reverse.dropWhile (· == mark)).reverse

/-! ## Words -/

/-- The word a text begins with, and the words after it. -/
def wordsFrom (separates : Char → Bool) : Text → Text × List Text
  | [] => ([], [])
  | c :: s =>
    let found := wordsFrom separates s
    if separates c then ([], if found.1.isEmpty then found.2 else found.1 :: found.2)
    else (c :: found.1, found.2)

/-- The non-empty runs of characters that do not separate. -/
def wordsBy (separates : Char → Bool) (s : Text) : List Text :=
  let found := wordsFrom separates s
  if found.1.isEmpty then found.2 else found.1 :: found.2

/-- The words of a text. -/
def words (s : Text) : List Text :=
  wordsBy isBlank s

/-- A text with its words one space apart and nothing around them. -/
def oneSpaced (s : Text) : Text :=
  join [' '] (words s)

end Text

end TemplateAudit
