import TemplateAudit.Decimal.Numeral

/-!
# Messages with places to fill

A message holds directives that begin with a percent sign and say how a value is to be set out:
optionally flags, a width, a count of places and a size letter without a meaning, and at the end the
letter of a conversion.  Two percent signs stand for one.
-/

namespace TemplateAudit

namespace Log

/-- A number in a directive: written there, or taken from the values. -/
inductive Amount where
  | fixed (n : Nat)
  | taken
  deriving DecidableEq, Repr

/-- How a value is to be set out. -/
structure Directive where
  /-- The signs `-`, `+`, `#`, `0` and the space, in any order. -/
  flags : Text
  /-- The least count of characters. -/
  width : Option Amount
  /-- The count of places. -/
  places : Option Amount
  /-- The letter of the conversion. -/
  letter : Char
  deriving DecidableEq, Repr

/-- A piece of a message. -/
inductive Piece where
  | literal (c : Char)
  | directive (d : Directive)
  deriving DecidableEq, Repr

/-! ## Reading a directive -/

/-- The greatest number that a directive may hold. -/
def greatestAmount : Nat := 2147483647

/-- The number that digits write, when it is not too great. -/
def amountOf (digits : Text) : Option Amount :=
  let n := Decimal.natOfDigits digits
  if n ≤ greatestAmount then some (.fixed n) else none

/-- The width, where there is one. -/
def readWidth : Text → Option (Option Amount × Text)
  | '*' :: s => some (some .taken, s)
  | s =>
    let digits := s.takeWhile Char.isDigit
    if digits.isEmpty then some (none, s)
    else (amountOf digits).map fun n => (some n, s.dropWhile Char.isDigit)

/-- The count of places after a point, where there is one; a point alone counts none. -/
def readPlaces : Text → Option (Option Amount × Text)
  | '.' :: '*' :: s => some (some .taken, s)
  | '.' :: s => (amountOf (s.takeWhile Char.isDigit)).map fun n => (some n, s.dropWhile Char.isDigit)
  | s => some (none, s)

/-- The text after a size letter. -/
def afterSize : Text → Text
  | 'h' :: s => s
  | 'l' :: s => s
  | 'L' :: s => s
  | s => s

/-- Is the character a flag? -/
def isFlag (c : Char) : Bool :=
  "-+ #0".toList.contains c

/-- The directive that a text begins with, after the percent sign, and the text after it. -/
def Directive.read (s : Text) : Option (Directive × Text) := do
  let flags := s.takeWhile isFlag
  let (width, s) ← readWidth (s.dropWhile isFlag)
  let (places, s) ← readPlaces s
  match afterSize s with
  | [] => none
  | letter :: rest => some (⟨flags, width, places, letter⟩, rest)

/-! ## Reading a message -/

/-- The pieces of a message, from a place where `skip` characters of the last directive still have
to be passed over; none when a directive does not end. -/
def piecesFrom : Nat → Text → Option (List Piece)
  | _, [] => some []
  | skip + 1, _ :: s => piecesFrom skip s
  | 0, '%' :: '%' :: s => (piecesFrom 0 s).map (.literal '%' :: ·)
  | 0, '%' :: s => do
    let (d, rest) ← Directive.read s
    let pieces ← piecesFrom (s.length - rest.length) s
    return .directive d :: pieces
  | 0, c :: s => (piecesFrom 0 s).map (.literal c :: ·)

/-- The pieces of a message; none when a directive does not end. -/
def pieces (message : Text) : Option (List Piece) :=
  piecesFrom 0 message

end Log

end TemplateAudit
