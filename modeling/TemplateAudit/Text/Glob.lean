import TemplateAudit.Text.Basic

/-!
# Patterns for names

A pattern stands for names: `*` for any characters, `?` for one, and `[…]` for one of a set, which may
hold ranges and be negated by `!`.  Anything else stands for itself, a bracket that is not closed
included.
-/

namespace TemplateAudit

namespace Glob

/-- A piece of a pattern. -/
inductive Piece where
  /-- Any characters. -/
  | many
  /-- Any one character. -/
  | one
  /-- One given character. -/
  | exactly (c : Char)
  /-- One character in some ranges, or in none of them. -/
  | among (negated : Bool) (ranges : List (Char × Char))
  deriving DecidableEq, Repr

/-! ## Reading -/

/-- The ranges that the text of a set lists; a range from a later character to an earlier one is
empty. -/
def rangesOf : Text → List (Char × Char)
  | c :: '-' :: d :: s => (c, d) :: rangesOf s
  | c :: s => (c, c) :: rangesOf s
  | [] => []

/-- Is a range empty? -/
def isEmptyRange (range : Char × Char) : Bool :=
  range.2 < range.1

/-- The set of some ranges.  Empty ranges at the front say nothing, and what is left is read anew: a
`!` that comes first then negates the set, and takes the meaning away from a hyphen after it. -/
def setOf (negated : Bool) (ranges : List (Char × Char)) : Piece :=
  let kept := ranges.dropWhile isEmptyRange
  if negated || kept.length == ranges.length then .among negated ranges
  else
    match kept with
    | ('!', '!') :: more => .among true more
    | ('!', d) :: more => .among true (('-', '-') :: (d, d) :: more)
    | kept => .among false kept

/-- The set after an opening bracket, and the text after it.  A closing bracket that comes first
belongs to the set. -/
def set? (s : Text) : Option (Piece × Text) :=
  let negated := s.head? = some '!'
  let body := if negated then s.drop 1 else s
  match body with
  | [] => none
  | c :: rest =>
    (Text.cutAtChar ']' rest).map fun cut => (setOf negated (rangesOf (c :: cut.1)), cut.2)

/-- The pieces of a pattern; `skip` characters of the last set still have to be passed over. -/
def piecesFrom : Nat → Text → List Piece
  | _, [] => []
  | skip + 1, _ :: s => piecesFrom skip s
  | 0, '*' :: s => .many :: piecesFrom 0 s
  | 0, '?' :: s => .one :: piecesFrom 0 s
  | 0, '[' :: s =>
    match set? s with
    | some (piece, rest) => piece :: piecesFrom (s.length - rest.length) s
    | none => .exactly '[' :: piecesFrom 0 s
  | 0, c :: s => .exactly c :: piecesFrom 0 s

/-- The pattern that a text writes. -/
def ofText (s : Text) : List Piece :=
  piecesFrom 0 s

/-! ## Matching -/

/-- Does a piece for one character stand for it? -/
def Piece.admits : Piece → Char → Bool
  | many, _ => false
  | one, _ => true
  | exactly c, d => c == d
  | among negated ranges, d =>
    negated != ranges.any fun range => range.1.toNat ≤ d.toNat && d.toNat ≤ range.2.toNat

/-- Does a pattern stand for a name? -/
def fits : List Piece → Text → Bool
  | [], s => s.isEmpty
  | .many :: pieces, [] => fits pieces []
  | .many :: pieces, c :: s => fits pieces (c :: s) || fits (.many :: pieces) s
  | _ :: _, [] => false
  | piece :: pieces, c :: s => piece.admits c && fits pieces s
termination_by pieces s => (pieces.length, s.length)

end Glob

end TemplateAudit
