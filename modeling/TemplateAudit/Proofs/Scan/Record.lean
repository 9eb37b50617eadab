import TemplateAudit.Proofs.Decimal.Canonical
import TemplateAudit.Proofs.Outcome
import TemplateAudit.Scan.Record

/-!
# What a record says has changed

The candidates that have changed are those that are there and whose time is not the one in the record
(`changedIn_eq_ok`).
-/

namespace TemplateAudit

open Outcome

namespace Scan

namespace Record

variable {disk : Disk} {record : Record}

/-! ## Changed candidates -/

/-- Has what the path of a text leads to another time than the record says? -/
def isChanged (disk : Disk) (record : Record) (path : Text) : Bool :=
  (disk.findText? path).any fun entry => isStale record path entry.modified.toDouble

theorem modified?_eq_ok {path : Text} {time : Option Decimal.Double}
    (h : modified? disk path = .ok time) :
    time = (disk.findText? path).map fun entry => entry.modified.toDouble := by
  rw [modified?] at h
  split at h
  · cases h
  · exact (Except.ok.inj h).symm

/-- The candidates that have changed, in order. -/
theorem changedIn_eq_ok {paths changed : List Text} (h : changedIn disk record paths = .ok changed) :
    changed = paths.filter (isChanged disk record) := by
  induction paths generalizing changed with
  | nil => exact (Except.ok.inj h).symm
  | cons path paths ih =>
    obtain ⟨time, htime, h⟩ := bind_eq_ok.1 h
    obtain ⟨rest, hrest, h⟩ := bind_eq_ok.1 h
    obtain rfl := Except.ok.inj h
    have hany : time.any (isStale record path) = isChanged disk record path := by
      rw [modified?_eq_ok htime, Option.any_map]
      rfl
    rw [List.filter_cons, hany, ih hrest]

theorem modified?_eq_of_isPossible {path : Text} (h : path.contains '\x00' = false) :
    modified? disk path = .ok ((disk.findText? path).map fun entry => entry.modified.toDouble) := by
  rw [modified?, h]
  rfl

theorem isPossible_of_modified? {path : Text} {time : Option Decimal.Double}
    (h : modified? disk path = .ok time) : path.contains '\x00' = false := by
  rw [modified?] at h
  split at h
  · cases h
  · rename_i hnot
    simpa using hnot

/-- When the candidates were looked up once, they can be looked up again. -/
theorem isPossible_of_changedIn {paths changed : List Text}
    (h : changedIn disk record paths = .ok changed) : ∀ path ∈ paths, path.contains '\x00' = false := by
  induction paths generalizing changed with
  | nil => exact fun path hpath => nomatch hpath
  | cons path paths ih =>
    obtain ⟨time, htime, h⟩ := bind_eq_ok.1 h
    obtain ⟨rest, hrest, -⟩ := bind_eq_ok.1 h
    exact List.forall_mem_cons.2 ⟨isPossible_of_modified? htime, ih hrest⟩

theorem exists_changedIn (disk : Disk) (record : Record) {paths : List Text}
    (h : ∀ path ∈ paths, path.contains '\x00' = false) :
    ∃ changed, changedIn disk record paths = .ok changed := by
  induction paths with
  | nil => exact ⟨[], rfl⟩
  | cons path paths ih =>
    obtain ⟨hpath, hpaths⟩ := List.forall_mem_cons.1 h
    obtain ⟨rest, hrest⟩ := ih hpaths
    rw [changedIn, modified?_eq_of_isPossible hpath, ok_bind, hrest, ok_bind]
    exact ⟨_, rfl⟩

/-- A time that the record does not hold for a path, but is not the time it holds either. -/
theorem isStale_of_not_equals {path : Text} {time time' : Decimal.Double}
    (h : isStale record path time = false) (hdiffer : time.equals time' = false) :
    isStale record path time' = true := by
  unfold isStale at h ⊢
  split at h
  · rename_i known _
    have hknown : known.equals time = true := by simpa using h
    cases hnew : known.equals time' with
    | false => rfl
    | true =>
      rw [Decimal.Double.equals_comm] at hknown
      rw [Decimal.Double.equals_trans hknown hnew] at hdiffer
      cases hdiffer
  · cases h

/-- Only what the record holds for a path counts. -/
theorem isStale_congr {record' : Record} {path : Text}
    (h : Pairs.get? path record' = Pairs.get? path record) (time : Decimal.Double) :
    isStale record' path time = isStale record path time := by
  rw [isStale, isStale, h]

theorem isStale_of_get? {path : Text} {time : Decimal.Double} (hfinite : time.isFinite)
    (h : Pairs.get? path record = some time) : isStale record path time = false := by
  rw [isStale, h]
  exact congrArg not (Decimal.Double.equals_self hfinite)

/-! ## Recorded times -/

/-- The record has the times that the listed files have now, as far as they are there. -/
theorem get?_refresh {files : List Text} {refreshed : Record}
    (h : refresh disk record files = .ok refreshed) (path : Text) :
    Pairs.get? path refreshed =
      if path ∈ files then
        ((disk.findText? path).map fun entry => entry.modified.toDouble).or (Pairs.get? path record)
      else Pairs.get? path record := by
  induction files generalizing record with
  | nil =>
    obtain rfl := Except.ok.inj h
    rfl
  | cons file files ih =>
    obtain ⟨time, htime, h⟩ := bind_eq_ok.1 h
    have htime := modified?_eq_ok htime
    cases time with
    | none =>
      rw [ih h]
      by_cases hfile : path = file
      · subst hfile
        rw [if_pos List.mem_cons_self, ← htime, Option.none_or, ite_self]
      · simp [hfile]
    | some time =>
      rw [ih h, Pairs.get?_put]
      by_cases hfile : path = file
      · subst hfile
        rw [if_pos List.mem_cons_self, if_pos rfl, ← htime, Option.some_or, Option.some_or, ite_self]
      · simp [hfile, Ne.symm hfile]

end Record

end Scan

end TemplateAudit
