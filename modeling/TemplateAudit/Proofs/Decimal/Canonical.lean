import TemplateAudit.Decimal.Numeral
import TemplateAudit.Disk.Time
import TemplateAudit.Proofs.Decimal.Rounding

/-!
# What is read or computed is canonical

Integers, decimal numbers, sums and products are all rounded in one place, so what comes of them is
canonical.  The same holds of every number that is read from a text and of the time that a disk
tells.
-/

namespace TemplateAudit

namespace Decimal

namespace Double

theorem canonical_zeroWith (negative : Bool) : (zeroWith negative).Canonical :=
  ⟨by decide, le_refl _, by decide, fun h => absurd h (lt_irrefl _)⟩

theorem canonical_ofInt (n : Int) : (ofInt n).Canonical :=
  canonical_ofRatio _ _ 1 one_pos

theorem canonical_ofDecimal (negative : Bool) (digits count : Nat) (exponent : Int) :
    (ofDecimal negative digits count exponent).Canonical := by
  rw [ofDecimal]
  split
  · exact canonical_zeroWith negative
  · split
    · trivial
    · split
      · exact canonical_zeroWith negative
      · exact canonical_ofRatio _ _ _ (scaledByTen_snd_pos _ _)

theorem canonical_of_plus? {x y z : Double} (h : x.plus? y = some z) : z.Canonical := by
  cases x with
  | finite n m e =>
    cases y with
    | finite n' m' e' =>
      obtain rfl := Option.some.inj h
      exact canonical_ofRatio _ _ _ (scaled_snd_pos _ _)
    | infinite _ => cases h
    | nan => cases h
  | infinite _ => cases h
  | nan => cases h

/-- A finite number equals itself. -/
theorem equals_self {x : Double} (h : x.isFinite) : x.equals x := by
  cases x with
  | finite n m e => simp [equals]
  | infinite _ => cases h
  | nan => cases h

end Double

/-! ## Numbers in texts -/

theorem canonical_of_unsigned? {negative : Bool} {s : Text} {x : Double}
    (h : unsigned? negative s = some x) : x.Canonical := by
  unfold unsigned? at h
  extract_lets whole afterWhole afterPoint fraction rest at h
  clear_value rest
  split at h
  · cases h
  · split at h
    · obtain rfl := Option.some.inj h
      exact Double.canonical_ofDecimal ..
    · split at h
      · obtain ⟨exponent, -, rfl⟩ := Option.map_eq_some_iff.1 h
        exact Double.canonical_ofDecimal ..
      · cases h

/-- A number that a text writes is canonical. -/
theorem canonical_of_number? {s : Text} {x : Double} (h : number? s = some x) : x.Canonical := by
  rw [number?] at h
  split at h
  · cases h
  · simp only at h
    split at h
    · obtain rfl := Option.some.inj h
      trivial
    · split at h
      · obtain rfl := Option.some.inj h
        trivial
      · exact canonical_of_unsigned? h

end Decimal

namespace Disk

open Decimal

/-- The time that a disk tells is canonical. -/
theorem Time.canonical_toDouble (time : Time) : time.toDouble.Canonical := by
  rw [toDouble]
  cases hsum : ((Double.ofDecimal false 1 1 (-9)).times? (.ofInt time.nanoseconds)).bind
      (Double.ofInt time.seconds).plus? with
  | none => trivial
  | some x =>
    obtain ⟨part, -, hsum⟩ := Option.bind_eq_some_iff.1 hsum
    exact Double.canonical_of_plus? hsum

end Disk

end TemplateAudit
