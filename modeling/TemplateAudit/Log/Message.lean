import TemplateAudit.Decimal.Places
import TemplateAudit.Json.Shown
import TemplateAudit.Log.Directive

/-!
# Filling a message

The directives of a message take values one after the other.  A message that cannot be filled (a
value too many or too few, one of the wrong kind, a directive that is not known) is no message.
-/

namespace TemplateAudit

namespace Log

/-! ## Setting a value out -/

/-- A directive whose width and places are known. -/
structure Outline where
  /-- Is the value put to the left? -/
  left : Bool
  /-- Has a number that is not negative a plus sign? -/
  signed : Bool
  /-- Has a number that is not negative a space in place of a sign? -/
  spaced : Bool
  /-- Has a number its mark or its point in any case? -/
  alternate : Bool
  /-- Is a number filled up with zeros? -/
  zeros : Bool
  width : Nat
  places : Option Nat
  deriving DecidableEq, Repr

/-- A text filled up with spaces. -/
def Outline.fill (o : Outline) (s : Text) : Text :=
  let spaces := List.replicate (o.width - s.length) ' '
  if o.left then s ++ spaces else spaces ++ s

/-- A number with its sign and a mark in front of its digits, filled up. -/
def Outline.number (o : Outline) (negative : Bool) (mark digits : Text) : Text :=
  let sign : Text :=
    if negative then ['-'] else if o.signed then ['+'] else if o.spaced then [' '] else []
  let front := sign ++ mark
  if o.zeros && !o.left then
    front ++ List.replicate (o.width - (front.length + digits.length)) '0' ++ digits
  else o.fill (front ++ digits)

/-- The digits of a natural number, at least as many as there are places. -/
def Outline.digits (o : Outline) (base n : Nat) : Text :=
  let digits := Nat.toDigits base n
  List.replicate (o.places.getD 0 - digits.length) '0' ++ digits

/-- An integer to a base. -/
def Outline.integer (o : Outline) (base : Nat) (mark : Text) (n : Int) : Text :=
  o.number (n < 0) (if o.alternate then mark else []) (o.digits base n.natAbs)

/-- A text cut to the places and filled up. -/
def Outline.cut (o : Outline) (s : Text) : Text :=
  o.fill (match o.places with
    | some n => s.take n
    | none => s)

/-- A number in a setting, with six places where none are asked for. -/
def Outline.decimal (o : Outline) (form : Decimal.Setting) (x : Decimal.Double) : Text :=
  let written := form.write o.alternate (o.places.getD 6) x
  o.number written.1 [] written.2

/-- Capitals for the letters of the alphabet. -/
def capitals (s : Text) : Text :=
  s.map Char.toUpper

/-! ## Values of a kind -/

/-- The integer that a value is; a truth value counts as one or zero. -/
def integer? : Json → Option Int
  | .int n => some n
  | .bool holds => some (if holds then 1 else 0)
  | _ => none

/-- The integer part of a number. -/
def wholePart? : Json → Option Int
  | .float x => x.truncate?
  | value => integer? value

/-- The number with a binary point that a value is, when it is not too great for one. -/
def binary? : Json → Option Decimal.Double
  | .float x => some x
  | value =>
    match (integer? value).map Decimal.Double.ofInt with
    | some (.infinite _) => none
    | found => found

/-- The character that a value is, or whose number it is. -/
def character? : Json → Option Char
  | .str [c] => some c
  | .str _ => none
  | value =>
    match integer? value with
    | some (.ofNat n) => if n.isValidChar then some (Char.ofNat n) else none
    | _ => none

/-- A text whose characters beyond ASCII are written by their numbers. -/
def plainAscii (s : Text) : Text :=
  s.flatMap fun c => if c.toNat < 0x80 then [c] else Text.numberedUnseen c

/-- A value set out as the letter of a conversion says; none when it is of the wrong kind or the
letter is not known. -/
def Outline.convert (o : Outline) (letter : Char) (value : Json) : Option Text :=
  match letter with
  | 's' => some (o.cut value.plain)
  | 'r' => some (o.cut value.shown)
  | 'a' => some (o.cut (plainAscii value.shown))
  | 'd' | 'i' | 'u' => (wholePart? value).map (o.integer 10 [])
  | 'o' => (integer? value).map (o.integer 8 "0o")
  | 'x' => (integer? value).map (o.integer 16 "0x")
  | 'X' => (integer? value).map fun n => capitals (o.integer 16 "0x" n)
  | 'f' => (binary? value).map (o.decimal .fixed)
  | 'F' => (binary? value).map fun x => capitals (o.decimal .fixed x)
  | 'e' => (binary? value).map (o.decimal .scientific)
  | 'E' => (binary? value).map fun x => capitals (o.decimal .scientific x)
  | 'g' => (binary? value).map (o.decimal .general)
  | 'G' => (binary? value).map fun x => capitals (o.decimal .general x)
  | 'c' => (character? value).map fun c => o.fill [c]
  | _ => none

/-! ## Taking values -/

/-- The number that an amount is, and the values left after it, of which one may be taken. -/
def Amount.take? : Option Amount → List Json → Option (Option Int × List Json)
  | none, values => some (none, values)
  | some (.fixed n), values => some (some n, values)
  | some .taken, [] => none
  | some .taken, value :: values => do
    let n ← integer? value
    if n.natAbs ≤ greatestAmount then some (some n, values) else none

/-- The outline of a directive; a negative width puts the value to the left, a negative count of
places is none at all. -/
def Directive.outline (d : Directive) (width places : Option Int) : Outline :=
  let width := width.getD 0
  ⟨d.flags.contains '-' || width < 0, d.flags.contains '+', d.flags.contains ' ',
    d.flags.contains '#', d.flags.contains '0', width.natAbs, places.map Int.toNat⟩

/-- The text for a directive, and the values left after it. -/
def Directive.fill (d : Directive) (values : List Json) : Option (Text × List Json) := do
  let (width, values) ← Amount.take? d.width values
  let (places, values) ← Amount.take? d.places values
  match values with
  | [] => none
  | value :: values => return (← (d.outline width places).convert d.letter value, values)

/-- The text for pieces; every value has to be taken. -/
def fillPieces : List Json → List Piece → Option Text
  | values, [] => if values.isEmpty then some [] else none
  | values, .literal c :: pieces => (fillPieces values pieces).map (c :: ·)
  | values, .directive d :: pieces => do
    let (text, values) ← d.fill values
    return text ++ (← fillPieces values pieces)

/-- A message filled with values; without values it stands as it is. -/
def fill (message : Text) (values : List Json) : Option Text :=
  if values.isEmpty then some message
  else do fillPieces values (← pieces message)

end Log

end TemplateAudit
