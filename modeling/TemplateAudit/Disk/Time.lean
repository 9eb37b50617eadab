import TemplateAudit.Decimal.Double

/-!
# Times on a disk

A disk keeps the time of a change in whole seconds and nanoseconds.  A time is set and told as a number
of seconds, so what is told may lie a little below what was set: setting drops the part of a nanosecond,
and every step of the arithmetic is rounded.
-/

namespace TemplateAudit

namespace Disk

/-- A time: whole seconds, and the nanoseconds after them. -/
structure Time where
  seconds : Int
  nanoseconds : Nat
  deriving DecidableEq, Repr, Inhabited

namespace Time

/-- The nanoseconds of a second. -/
def inSecond : Nat := 1000000000

/-- The nanoseconds in the part `rest / unit` of a second: the product is rounded and then taken down to
a whole number, which is negative for a negative part. -/
def nanosecondsOf (negative : Bool) (rest unit : Nat) : Int :=
  let part := Decimal.Double.ofRatio negative rest unit
  let scaled := part.times? (.ofInt inSecond)
  (scaled.bind Decimal.Double.floor?).getD 0

/-- The time that a finite number of seconds sets. -/
def ofDouble? : Decimal.Double → Option Time
  | .finite negative mantissa exponent =>
    let ratio := Decimal.scaled mantissa exponent
    let whole : Int := if negative then -(ratio.1 / ratio.2 : Nat) else (ratio.1 / ratio.2 : Nat)
    let found := nanosecondsOf negative (ratio.1 % ratio.2) ratio.2
    if found < 0 then some ⟨whole - 1, (found + inSecond).toNat⟩
    else if found < inSecond then some ⟨whole, found.toNat⟩
    else some ⟨whole + 1, (found - inSecond).toNat⟩
  | _ => none

/-- The number of seconds that a time is told as. -/
def toDouble (time : Time) : Decimal.Double :=
  let part := (Decimal.Double.ofDecimal false 1 1 (-9)).times? (.ofInt time.nanoseconds)
  (part.bind (Decimal.Double.ofInt time.seconds).plus?).getD .nan

end Time

end Disk

end TemplateAudit
