import TemplateAudit.Decimal.Shortest

/-!
# A number to a given count of places

A number of the binary format is rounded once, in exact arithmetic, to the places that are asked for;
a half goes to the even neighbour.  It is set out with a fixed count of digits after the point, with
an exponent, or in whichever of the two ways suits its size.
-/

namespace TemplateAudit

namespace Decimal

/-- How a number is set out to a count of places. -/
inductive Setting where
  /-- With the places counted after the point. -/
  | fixed
  /-- With one digit in front of the point, the places after it, and an exponent. -/
  | scientific
  /-- With the places counting all digits, and an exponent where the point is far away. -/
  | general
  deriving DecidableEq, Repr

namespace Setting

/-- The point and the digits after it; a point with no digit after it is written when `pointed`
asks for it. -/
def fraction (pointed : Bool) (digits : Text) : Text :=
  if digits.isEmpty && !pointed then [] else '.' :: digits

/-- Digits with the last `places` of them after the point. -/
def split (pointed : Bool) (places digits : Nat) : Text :=
  let text := Text.ofNat digits
  let text := List.replicate (places + 1 - text.length) '0' ++ text
  let whole := text.length - places
  text.take whole ++ fraction pointed (text.drop whole)

/-- The multiples of `10 ^ unit` that are nearest to `mantissa * 2 ^ exponent`. -/
def multiples (mantissa : Nat) (exponent unit : Int) : Nat :=
  let value := scaled mantissa exponent
  let grid := scaledByTen 1 unit
  roundEven (value.1 * grid.2) (value.2 * grid.1)

/-- The first `count + 1` digits of `mantissa * 2 ^ exponent`, and the power of ten of the first of
them. -/
def leading (mantissa : Nat) (exponent : Int) (count : Nat) : Nat × Int :=
  if mantissa = 0 then (0, 0)
  else
    let power := (rangeOf mantissa exponent).magnitude
    let digits := multiples mantissa exponent (power - count)
    if digits = Nat.pow 10 (count + 1) then (Nat.pow 10 count, power + 1) else (digits, power)

/-- An exponent with its sign and at least two digits. -/
def exponentText (power : Int) : Text :=
  'e' :: recordLayout.exponent power

/-- Text without the zeros that end it. -/
def withoutFinalZeros (s : Text) : Text :=
  (s.reverse.dropWhile (· = '0')).reverse

/-- The number `mantissa * 2 ^ exponent` in whichever way suits its size, to `count + 1` digits;
zeros at the end are written when `pointed` asks for the point. -/
def generalText (pointed : Bool) (count mantissa : Nat) (exponent : Int) : Text :=
  let found := leading mantissa exponent count
  let text := Text.ofNat found.1
  let text := text ++ List.replicate (count + 1 - text.length) '0'
  let kept := fun (s : Text) => if pointed then s else withoutFinalZeros s
  if found.2 < -4 ∨ (count : Int) < found.2 then
    text.take 1 ++ fraction pointed (kept (text.drop 1)) ++ exponentText found.2
  else if found.2 < 0 then
    '0' :: fraction pointed (List.replicate (found.2.natAbs - 1) '0' ++ kept text)
  else
    let whole := found.2.toNat + 1
    text.take whole ++ fraction pointed (kept (text.drop whole))

/-- The number `mantissa * 2 ^ exponent` to a count of places. -/
def finiteText (pointed : Bool) (places mantissa : Nat) (exponent : Int) : Setting → Text
  | fixed => split pointed places (multiples mantissa exponent (-places))
  | scientific =>
    let found := leading mantissa exponent places
    split pointed places found.1 ++ exponentText found.2
  | general => generalText pointed (places - 1) mantissa exponent

/-- Is a number negative, and how is it set out without its sign? -/
def write (form : Setting) (pointed : Bool) (places : Nat) : Double → Bool × Text
  | .nan => (false, recordLayout.nan)
  | .infinite negative => (negative, recordLayout.infinite)
  | .finite negative mantissa exponent =>
    (negative, finiteText pointed places mantissa exponent form)

end Setting

end Decimal

end TemplateAudit
