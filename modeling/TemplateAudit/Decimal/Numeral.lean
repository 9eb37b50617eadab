import TemplateAudit.Decimal.Double
import TemplateAudit.Text.Blank
import TemplateAudit.Text.Letter

/-!
# Numbers written as text

How a text is read as a number: padding around it does not matter, digits may come from any script,
and single underscores may stand between digits.
-/

namespace TemplateAudit

namespace Decimal

/-! ## Padding -/

/-- White space that may stand around a number; the four separators among the control characters
do not count. -/
def isPadding (c : Char) : Bool :=
  Text.isBlank c && !(28 ≤ c.toNat && c.toNat ≤ 31)

/-- A text without the padding around it. -/
def withoutPadding (s : Text) : Text :=
  ((s.dropWhile isPadding).reverse.dropWhile isPadding).reverse

/-! ## Digits -/

/-- The number that ASCII digits write. -/
def natOfDigits (digits : Text) : Nat :=
  digits.foldl (fun n c => n * 10 + (c.toNat - '0'.toNat)) 0

/-- A text with decimal digits of any script as ASCII digits. -/
def withPlainDigits (s : Text) : Text :=
  s.map fun c =>
    match Text.digitValue? c with
    | some n => Char.ofNat ('0'.toNat + n)
    | none => c

/-- A text without its underscores, when each stands between two digits; `before` is the character
in front. -/
def withoutUnderscoresAfter? (before : Char) : Text → Option Text
  | [] => some []
  | '_' :: c :: s =>
    if before.isDigit && c.isDigit then (withoutUnderscoresAfter? c s).map (c :: ·) else none
  | c :: s => if c = '_' then none else (withoutUnderscoresAfter? c s).map (c :: ·)

/-- A text without padding, with plain digits and without underscores. -/
def plain? (s : Text) : Option Text :=
  withoutUnderscoresAfter? ' ' (withPlainDigits (withoutPadding s))

/-- The sign a text begins with, `true` for minus, and the text after it. -/
def sign : Text → Bool × Text
  | '-' :: s => (true, s)
  | '+' :: s => (false, s)
  | s => (false, s)

/-! ## Integers -/

/-- The integer with a given sign and digits. -/
def intOf (negative : Bool) (digits : Text) : Int :=
  if negative then -(natOfDigits digits : Int) else natOfDigits digits

/-- The greatest number of digits of an integer that is read. -/
def mostDigits : Nat := 4300

/-- The integer that a text writes. -/
def integer? (s : Text) : Option Int :=
  match plain? s with
  | none => none
  | some s =>
    let signed := sign s
    if !signed.2.isEmpty && signed.2.all Char.isDigit && signed.2.length ≤ mostDigits then
      some (intOf signed.1 signed.2)
    else none

/-! ## Numbers with a fraction or an exponent -/

/-- The exponent that a text consists of. -/
def exponent? (s : Text) : Option Int :=
  let signed := sign s
  if !signed.2.isEmpty && signed.2.all Char.isDigit then some (intOf signed.1 signed.2) else none

/-- The number with the given digits before and after the point, times a power of ten. -/
def doubleOf (negative : Bool) (whole fraction : Text) (exponent : Int) : Double :=
  let digits := whole ++ fraction
  Double.ofDecimal negative (natOfDigits digits) (digits.dropWhile (· == '0')).length
    (exponent - fraction.length)

/-- The number that a text without a sign writes in decimal notation. -/
def unsigned? (negative : Bool) (s : Text) : Option Double :=
  let whole := s.takeWhile Char.isDigit
  let afterWhole := s.dropWhile Char.isDigit
  let afterPoint := match afterWhole with
    | '.' :: rest => rest
    | rest => rest
  let fraction := if afterPoint.length < afterWhole.length then afterPoint.takeWhile Char.isDigit else []
  let rest := afterPoint.drop fraction.length
  if whole.isEmpty && fraction.isEmpty then none
  else
    match rest with
    | [] => some (doubleOf negative whole fraction 0)
    | c :: rest =>
      if c = 'e' ∨ c = 'E' then (exponent? rest).map (doubleOf negative whole fraction) else none

/-- The number that a text writes, the names of the infinities and of no number included. -/
def number? (s : Text) : Option Double :=
  match plain? s with
  | none => none
  | some s =>
    let signed := sign s
    let name := signed.2.map Char.toLower
    if name = "inf" ∨ name = "infinity" then some (.infinite signed.1)
    else if name = "nan" then some .nan
    else unsigned? signed.1 signed.2

end Decimal

end TemplateAudit
