import TemplateAudit.Text.Basic

/-!
# Numbers with a binary point

The numbers of the 64 bit binary format: a sign, a mantissa of at most 53 bits and an exponent, with
two infinities and one value that is no number.  Everything is done in exact arithmetic on natural
numbers; only `ofRatio` rounds, to the nearest number of the format and of two that are equally near
to the one with the even mantissa.  Sums and products are rounded by it once.
-/

namespace TemplateAudit

namespace Decimal

/-- A number of the 64 bit binary format. -/
inductive Double where
  /-- The number `mantissa * 2 ^ exponent`, negated if `negative` says so. -/
  | finite (negative : Bool) (mantissa : Nat) (exponent : Int)
  /-- A number beyond all others. -/
  | infinite (negative : Bool)
  /-- No number. -/
  | nan
  deriving DecidableEq, Repr, Inhabited

/-! ## Ratios -/

/-- The ratio `n * 2 ^ e` as a numerator and a denominator. -/
def scaled (n : Nat) (e : Int) : Nat × Nat :=
  if 0 ≤ e then (n * Nat.pow 2 e.toNat, 1) else (n, Nat.pow 2 e.natAbs)

/-- The ratio `n * 10 ^ e` as a numerator and a denominator. -/
def scaledByTen (n : Nat) (e : Int) : Nat × Nat :=
  if 0 ≤ e then (n * Nat.pow 10 e.toNat, 1) else (n, Nat.pow 10 e.natAbs)

/-- The quotient rounded to the nearest integer, a half to the even one. -/
def roundEven (num den : Nat) : Nat :=
  let q := num / den
  let r := num % den
  if 2 * r < den then q
  else if 2 * r > den then q + 1
  else if q % 2 = 0 then q else q + 1

namespace Double

/-- The least exponent of the format. -/
def leastExponent : Int := -1074

/-- The greatest exponent of the format. -/
def greatestExponent : Int := 971

/-- The least mantissa of a number that has 53 bits. -/
def leastMantissa : Nat := 4503599627370496

/-- Zero. -/
def zeroWith (negative : Bool) : Double :=
  finite negative 0 leastExponent

/-- The number of the format nearest to `num / den`. -/
def ofRatio (negative : Bool) (num den : Nat) : Double :=
  if num = 0 then zeroWith negative
  else
    let shift : Int := (num.log2 : Int) - den.log2 - 53
    let mantissaAt := fun (e : Int) =>
      let unit := scaled 1 (-e)
      (num * unit.1, den * unit.2)
    let low := max leastExponent shift
    let atLow := mantissaAt low
    let exponent := if atLow.1 / atLow.2 < 2 * leastMantissa then low else low + 1
    let ratio := mantissaAt exponent
    let rounded := roundEven ratio.1 ratio.2
    let carried := rounded = 2 * leastMantissa
    let exponent := if carried then exponent + 1 else exponent
    if greatestExponent < exponent then infinite negative
    else finite negative (if carried then leastMantissa else rounded) exponent

/-- The number of the format nearest to `digits * 10 ^ exponent`, where `digits` has `count`
digits. -/
def ofDecimal (negative : Bool) (digits count : Nat) (exponent : Int) : Double :=
  if digits = 0 then zeroWith negative
  else if exponent + count > 400 then infinite negative
  else if exponent + count < -400 then zeroWith negative
  else
    let ratio := scaledByTen digits exponent
    ofRatio negative ratio.1 ratio.2

/-- The number of the format nearest to an integer. -/
def ofInt (n : Int) : Double :=
  ofRatio (n < 0) n.natAbs 1

/-- Are two numbers equal?  No number equals `nan`, and the two zeros are equal. -/
def equals : Double → Double → Bool
  | finite n m e, finite n' m' e' => (m == 0 && m' == 0) || (n == n' && m == m' && e == e')
  | infinite n, infinite n' => n == n'
  | _, _ => false

theorem equals_comm (x y : Double) : x.equals y = y.equals x := by
  cases x <;> cases y <;> simp only [equals, Bool.beq_comm, Bool.and_comm]

theorem equals_trans {x y z : Double} (h : x.equals y) (h' : y.equals z) : x.equals z := by
  cases x <;> cases y <;> cases z <;>
    simp only [equals, Bool.or_eq_true, Bool.and_eq_true, beq_iff_eq, Bool.false_eq_true] at h h' ⊢
  · grind
  · grind

/-- The integer part of a finite number. -/
def truncate? : Double → Option Int
  | finite negative m e =>
    let ratio := scaled m e
    some (if negative then -(ratio.1 / ratio.2 : Nat) else (ratio.1 / ratio.2 : Nat))
  | _ => none

/-- The integer that a number is. -/
def integer? : Double → Option Int
  | finite negative m e =>
    let ratio := scaled m e
    if ratio.1 % ratio.2 = 0 then (finite negative m e).truncate? else none
  | _ => none

/-- The greatest integer that is not above a finite number. -/
def floor? : Double → Option Int
  | finite negative m e =>
    let ratio := scaled m e
    some ((if negative then -(ratio.1 : Int) else ratio.1) / (ratio.2 : Int))
  | _ => none

/-- Is it a number, and not beyond all others? -/
def isFinite : Double → Bool
  | finite _ _ _ => true
  | _ => false

/-! ## Rounded sums and products -/

/-- The number of the format nearest to `n * 2 ^ e`. -/
def ofScaled (n e : Int) : Double :=
  let ratio := scaled n.natAbs e
  ofRatio (n < 0) ratio.1 ratio.2

/-- The integer that a finite number counts, as a multiple of `2 ^ e` where `e` is at most its
exponent. -/
def multipleOf (e : Int) (negative : Bool) (mantissa : Nat) (exponent : Int) : Int :=
  let n := (scaled mantissa (exponent - e)).1
  if negative then -(n : Int) else n

/-- The sum of two finite numbers, rounded. -/
def plus? : Double → Double → Option Double
  | finite n m e, finite n' m' e' =>
    let least := min e e'
    some (ofScaled (multipleOf least n m e + multipleOf least n' m' e') least)
  | _, _ => none

/-- The product of two finite numbers, rounded. -/
def times? : Double → Double → Option Double
  | finite n m e, finite n' m' e' =>
    let product := scaled (m * m') (e + e')
    some (ofRatio (n != n') product.1 product.2)
  | _, _ => none

end Double

end Decimal

end TemplateAudit
