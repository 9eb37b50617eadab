import TemplateAudit.Decimal.Double

/-!
# The shortest decimal text of a number

A number of the binary format is written with the fewest digits that read back as the same number,
and among those with the digits nearest to it.  How the digits are set out is decided by a layout.
-/

namespace TemplateAudit

namespace Decimal

/-! ## The digits -/

/-- The ratios that read back as a number: between two bounds, which are given over one denominator
and belong to the range if `closed` says so. -/
structure Range where
  low : Nat
  value : Nat
  high : Nat
  den : Nat
  closed : Bool
  deriving Repr

/-- The range of ratios that read back as the positive number `mantissa * 2 ^ exponent`. -/
def rangeOf (mantissa : Nat) (exponent : Int) : Range :=
  let unit := scaled 1 (exponent - 2)
  let below := if mantissa = Double.leastMantissa ∧ Double.leastExponent < exponent then 1 else 2
  ⟨(4 * mantissa - below) * unit.1, 4 * mantissa * unit.1, (4 * mantissa + 2) * unit.1, unit.2,
    mantissa % 2 = 0⟩

/-- Does `digits * 10 ^ exponent` read back as the number? -/
def Range.holds (range : Range) (digits : Nat) (exponent : Int) : Bool :=
  let ratio := scaledByTen digits exponent
  let point := ratio.1 * range.den
  let low := range.low * ratio.2
  let high := range.high * ratio.2
  if range.closed then low ≤ point && point ≤ high else low < point && point < high

/-- How far `digits * 10 ^ exponent` is from the number, over a denominator that depends on the
exponent only. -/
def Range.distance (range : Range) (digits : Nat) (exponent : Int) : Nat :=
  let ratio := scaledByTen digits exponent
  let point := ratio.1 * range.den
  let value := range.value * ratio.2
  (point - value) + (value - point)

/-- The greatest power of ten that is not above the number, found from a guess at most one off. -/
def Range.magnitude (range : Range) : Int :=
  let atMost := fun (e : Int) =>
    let power := scaledByTen 1 e
    decide (power.1 * range.den ≤ range.value * power.2)
  let guess : Int := ((range.value.log2 : Int) - range.den.log2) * 30103 / 100000
  if atMost (guess + 2) then guess + 2
  else if atMost (guess + 1) then guess + 1
  else if atMost guess then guess
  else if atMost (guess - 1) then guess - 1
  else guess - 2

/-- The better of the two neighbours of the number on a decimal grid that reads back as it. -/
def Range.nearest? (range : Range) (exponent : Int) : Option Nat :=
  let unit := scaledByTen 1 exponent
  let below := range.value * unit.2 / (range.den * unit.1)
  let above := below + 1
  match range.holds below exponent && below != 0, range.holds above exponent with
  | false, false => none
  | true, false => some below
  | false, true => some above
  | true, true =>
    let toBelow := range.distance below exponent
    let toAbove := range.distance above exponent
    if toBelow < toAbove then some below
    else if toAbove < toBelow then some above
    else if below % 2 = 0 then some below else some above

/-- Digits and the power of ten they count, on the first grid from `exponent` down that has a point
which reads back. -/
def Range.search (range : Range) : Nat → Int → Nat × Int
  | 0, exponent => ((range.nearest? exponent).getD 0, exponent)
  | fuel + 1, exponent =>
    match range.nearest? exponent with
    | some digits => (digits, exponent)
    | none => range.search fuel (exponent - 1)

/-- Digits without the zeros they end in, and the power of ten they count. -/
def withoutZeros : Nat → Nat → Int → Nat × Int
  | 0, digits, exponent => (digits, exponent)
  | fuel + 1, digits, exponent =>
    if digits ≠ 0 ∧ digits % 10 = 0 then withoutZeros fuel (digits / 10) (exponent + 1)
    else (digits, exponent)

/-- The fewest digits that read back as the positive number `mantissa * 2 ^ exponent`, and the power
of ten they count. -/
def shortest (mantissa : Nat) (exponent : Int) : Nat × Int :=
  let range := rangeOf mantissa exponent
  let found := range.search 17 range.magnitude
  withoutZeros 20 found.1 found.2

/-! ## The layout -/

/-- How a number is set out: the powers of ten of the first digit between which no exponent is
written, how an exponent is written, and the texts for what is no finite number. -/
structure Layout where
  leastPlain : Int
  greatestPlain : Int
  positiveSign : Text
  exponentDigits : Nat
  infinite : Text
  negativeInfinite : Text
  nan : Text
  deriving Repr

/-- An exponent with its sign and at least as many digits as the layout asks for. -/
def Layout.exponent (layout : Layout) (e : Int) : Text :=
  let digits := Text.ofNat e.natAbs
  (if e < 0 then ['-'] else layout.positiveSign) ++
    List.replicate (layout.exponentDigits - digits.length) '0' ++ digits

/-- Digits with a point after the first `count` of them; where there are no digits there are
zeros. -/
def withPoint (digits : Text) (count : Int) : Text :=
  if count ≤ 0 then '0' :: '.' :: (List.replicate count.natAbs '0' ++ digits)
  else
    let whole := digits.take count.toNat
    let zeros := List.replicate (count.toNat - digits.length) '0'
    let fraction := digits.drop count.toNat
    whole ++ zeros ++ '.' :: (if fraction.isEmpty then ['0'] else fraction)

/-- Digits that count a power of ten, set out. -/
def Layout.digits (layout : Layout) (digits : Nat) (exponent : Int) : Text :=
  let text := Text.ofNat digits
  let first := exponent + text.length - 1
  if layout.leastPlain ≤ first && first ≤ layout.greatestPlain then withPoint text (first + 1)
  else
    let mantissa := match text with
      | [] => []
      | [c] => [c]
      | c :: rest => c :: '.' :: rest
    mantissa ++ 'e' :: layout.exponent first

/-- A number, set out. -/
def Layout.write (layout : Layout) : Double → Text
  | .nan => layout.nan
  | .infinite negative => if negative then layout.negativeInfinite else layout.infinite
  | .finite negative mantissa exponent =>
    let sign : Text := if negative then ['-'] else []
    if mantissa = 0 then sign ++ "0.0"
    else
      let found := shortest mantissa exponent
      sign ++ layout.digits found.1 found.2

/-- The layout of numbers in the record of a scan: an exponent below the fourth decimal place and
from seventeen digits on, with a sign and at least two digits. -/
def recordLayout : Layout :=
  ⟨-4, 15, ['+'], 2, "inf", "-inf", "nan"⟩

/-- The layout of numbers in a file of the record, where what is no finite number has a name. -/
def fileLayout : Layout :=
  { recordLayout with infinite := "Infinity", negativeInfinite := "-Infinity", nan := "NaN" }

/-- The layout of numbers in the key of a finding: an exponent below the fifth decimal place and
from seventeen digits on, with a sign and no more digits than it needs; what is no finite number is
not told apart. -/
def keyLayout : Layout :=
  ⟨-5, 15, ['+'], 1, "null", "null", "null"⟩

end Decimal

end TemplateAudit
