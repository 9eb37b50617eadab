import Mathlib.Data.List.Induction
import Mathlib.Tactic.ByContra
import TemplateAudit.Disk.Basic
import TemplateAudit.Proofs.Path

/-!
# Proper disks

On a proper disk everything stands in a directory and has a name that a path can name.  So each place
is reached by its own path: `find?_place` and `findText?_place` turn what a path or its text leads to
into what stands at a place.
-/

namespace TemplateAudit

namespace Disk

/-! ## Names -/

/-- A name that something on a disk can have. -/
def IsName (name : Text) : Prop :=
  Path.IsPart name ∧ name ≠ "..".toList ∧ '\x00' ∉ name

/-- A place that is made of names. -/
def Named (place : Place) : Prop :=
  ∀ name ∈ place, IsName name

instance (name : Text) : Decidable (IsName name) :=
  inferInstanceAs (Decidable ((name ≠ [] ∧ name ≠ ['.'] ∧ '/' ∉ name) ∧ name ≠ "..".toList ∧
    '\x00' ∉ name))

instance (place : Place) : Decidable (Named place) :=
  inferInstanceAs (Decidable (∀ name ∈ place, IsName name))

theorem Named.isPart {place : Place} (h : Named place) : ∀ name ∈ place, Path.IsPart name :=
  fun name hname => (h name hname).1

theorem Named.rooted {place : Place} (h : Named place) : (Path.mk 1 place).Rooted :=
  ⟨rfl, h.isPart⟩

theorem named_nil : Named [] :=
  fun _ hname => nomatch hname

theorem named_concat {place : Place} {name : Text} :
    Named (place ++ [name]) ↔ Named place ∧ IsName name := by
  simp only [Named, List.forall_mem_append, List.forall_mem_singleton]

/-- A disk where everything has a place of its own in a directory. -/
structure Proper (disk : Disk) : Prop where
  /-- Relative paths start from a place. -/
  here : Named disk.here
  /-- Everything has a name. -/
  named : ∀ entry ∈ disk.entries, entry.1 ≠ [] ∧ Named entry.1
  /-- Everything stands in a directory. -/
  inDirectory : ∀ entry ∈ disk.entries, disk.isDirectoryAt entry.1.dropLast
  /-- Nothing stands where something else stands. -/
  distinct : (disk.entries.map Prod.fst).Nodup

instance (disk : Disk) : Decidable disk.Proper :=
  decidable_of_iff (Named disk.here ∧ (∀ entry ∈ disk.entries, entry.1 ≠ [] ∧ Named entry.1) ∧
      (∀ entry ∈ disk.entries, disk.isDirectoryAt entry.1.dropLast = true) ∧
      (disk.entries.map Prod.fst).Nodup)
    ⟨fun h => ⟨h.1, h.2.1, h.2.2.1, h.2.2.2⟩, fun h => ⟨h.here, h.named, h.inDirectory, h.distinct⟩⟩

variable {disk : Disk}

/-! ## Looking a place up -/

theorem Proper.hereClean (h : disk.Proper) : disk.HereClean :=
  h.here.isPart

theorem at?_of_ne_nil {place : Place} (h : place ≠ []) :
    disk.at? place = Pairs.get? place disk.entries := by
  cases place with
  | nil => exact absurd rfl h
  | cons name names => rfl

@[simp]
theorem isDirectoryAt_nil : disk.isDirectoryAt [] = true := rfl

theorem isSome_at?_of_isDirectoryAt {place : Place} (h : disk.isDirectoryAt place) :
    (disk.at? place).isSome := by
  obtain ⟨entry, hentry, -⟩ := (Option.any_eq_true _ _).1 h
  simp [hentry]

/-- What stands at a place other than the root is one of the entries. -/
theorem exists_mem_of_at? {place : Place} (hne : place ≠ []) (h : (disk.at? place).isSome) :
    ∃ entry ∈ disk.entries, entry.1 = place := by
  rw [at?_of_ne_nil hne] at h
  obtain ⟨entry, hentry⟩ := Option.isSome_iff_exists.1 h
  exact ⟨_, Pairs.mem_of_get? hentry, rfl⟩

/-- An entry is what stands at its place. -/
theorem Proper.at?_of_mem (h : disk.Proper) {place : Place} {entry : Entry}
    (hmem : (place, entry) ∈ disk.entries) : disk.at? place = some entry := by
  rw [at?_of_ne_nil (h.named _ hmem).1]
  exact Pairs.get?_of_mem h.distinct hmem

theorem Proper.named_of_at? (h : disk.Proper) {place : Place} (hat : (disk.at? place).isSome) :
    Named place := by
  by_cases hne : place = []
  · exact hne ▸ named_nil
  · obtain ⟨entry, hentry, rfl⟩ := exists_mem_of_at? hne hat
    exact (h.named entry hentry).2

/-- Whatever stands somewhere stands in a directory. -/
theorem Proper.isDirectoryAt_dropLast (h : disk.Proper) {place : Place}
    (hat : (disk.at? place).isSome) : disk.isDirectoryAt place.dropLast := by
  by_cases hne : place = []
  · exact hne ▸ rfl
  · obtain ⟨entry, hentry, rfl⟩ := exists_mem_of_at? hne hat
    exact h.inDirectory entry hentry

/-! ## Following a path -/

/-- A name leads from a directory to what has this name in it. -/
theorem step?_name {place : Place} {name : Text} (hdir : disk.isDirectoryAt place)
    (hname : IsName name) :
    disk.step? place name = (disk.at? (place ++ [name])).map fun _ => place ++ [name] := by
  obtain ⟨⟨hne, hdot, -⟩, hup, -⟩ := hname
  have hup : name ≠ ['.', '.'] := hup
  simp [step?, hdir, hne, hdot, hup]

theorem step?_of_not_isDirectoryAt {place : Place} (part : Text) (h : ¬disk.isDirectoryAt place) :
    disk.step? place part = none := by
  rw [step?, if_neg h]

theorem walk?_append (place : Place) (parts others : List Text) :
    disk.walk? place (parts ++ others) = (disk.walk? place parts).bind fun next => disk.walk? next others := by
  induction parts generalizing place with
  | nil => rfl
  | cons first parts ih =>
    rw [List.cons_append, walk?, walk?]
    cases disk.step? place first with
    | none => rfl
    | some next => exact ih next

theorem walk?_concat (place : Place) (parts : List Text) (part : Text) :
    disk.walk? place (parts ++ [part]) =
      (disk.walk? place parts).bind fun next => disk.step? next part := by
  rw [walk?_append]
  congr 1
  funext next
  rw [walk?]
  cases disk.step? next part <;> rfl

/-- The names of a place lead to it where something stands, and nowhere else. -/
theorem Proper.walk?_place (h : disk.Proper) {place : Place} (hplace : Named place) :
    disk.walk? [] place = (disk.at? place).map fun _ => place := by
  induction place using List.reverseRecOn with
  | nil => rfl
  | append_singleton place name ih =>
    obtain ⟨hplace, hname⟩ := named_concat.1 hplace
    rw [walk?_concat, ih hplace]
    by_cases hdir : disk.isDirectoryAt place
    · obtain ⟨entry, hentry⟩ := Option.isSome_iff_exists.1 (isSome_at?_of_isDirectoryAt hdir)
      rw [hentry, Option.map_some, Option.bind_some, step?_name hdir hname]
    · have hnone : disk.at? (place ++ [name]) = none := by
        by_contra hsome
        have hin := h.isDirectoryAt_dropLast (Option.isSome_iff_ne_none.2 hsome)
        rw [List.dropLast_concat] at hin
        exact hdir hin
      rw [hnone, Option.map_none]
      cases disk.at? place with
      | none => rfl
      | some entry => exact step?_of_not_isDirectoryAt name hdir

/-- The path of a place leads to what stands there. -/
theorem Proper.find?_place (h : disk.Proper) {place : Place} (hplace : Named place) :
    disk.find? ⟨1, place⟩ = disk.at? place := by
  have hlocate : disk.locate? ⟨1, place⟩ = disk.walk? [] place := rfl
  rw [find?, hlocate, h.walk?_place hplace]
  cases hentry : disk.at? place with
  | none => rfl
  | some entry => exact hentry

/-! ## Paths as text -/

theorem toText_eq_cons (parts : List Text) :
    Path.toText ⟨1, parts⟩ = '/' :: Text.join ['/'] parts := by
  simp [Path.toText]

theorem not_mem_toText {place : Place} (hplace : Named place) : '\x00' ∉ Path.toText ⟨1, place⟩ := by
  rw [toText_eq_cons]
  exact List.not_mem_cons_of_ne_of_not_mem (by decide)
    (Text.not_mem_join (by decide) fun name hname => (hplace name hname).2.2)

/-- The text of the path of a place leads where the path leads. -/
theorem findText?_toText {place : Place} (hplace : Named place) :
    disk.findText? (Path.toText ⟨1, place⟩) = disk.find? ⟨1, place⟩ := by
  have hwalk : disk.walk? [] (Text.splitAtChar '/' (Path.toText ⟨1, place⟩)) =
      disk.walk? [] place := by
    rw [toText_eq_cons, Text.splitAtChar, if_pos rfl]
    cases place with
    | nil => rfl
    | cons name names =>
      rw [Text.splitAtChar_join fun n hn => (hplace.isPart n hn).2.2]
      rfl
  have hlocate : disk.locate? ⟨1, place⟩ = disk.walk? [] place := rfl
  rw [findText?, find?, hlocate, ← hwalk, toText_eq_cons]
  rfl

/-- The text of the path of a place leads to what stands there. -/
theorem Proper.findText?_place (h : disk.Proper) {place : Place} (hplace : Named place) :
    disk.findText? (Path.toText ⟨1, place⟩) = disk.at? place := by
  rw [findText?_toText hplace, h.find?_place hplace]

/-- A path of names stays as it is. -/
theorem resolve_place (disk : Disk) {place : Place} (hplace : Named place) :
    disk.resolve ⟨1, place⟩ = ⟨1, place⟩ :=
  congrArg (Path.mk 1) (Path.simplify_eq_self fun hup => (hplace _ hup).2.1 rfl)

theorem isPossible_place {place : Place} (hplace : Named place) :
    (Path.mk 1 place).isPossible = true := by
  simp only [Path.isPossible, Bool.not_eq_true', List.any_eq_false]
  intro name hname
  simpa using (hplace name hname).2.2

end Disk

end TemplateAudit
