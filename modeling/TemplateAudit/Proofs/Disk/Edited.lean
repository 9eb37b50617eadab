import Mathlib.Data.List.Forall2
import TemplateAudit.Page.Views
import TemplateAudit.Proofs.Disk.Proper

/-!
# Edited disks

`Disk.Edited` says that the files at some paths were given another text at another time, and that nothing
else was done.  Such a disk has the shape it had before, so every path leads where it led
(`SameShape.walk?_eq`), the templates are the same (`SameShape.templates_eq`), and what stands at a
place is the same or edited (`Edited.at?_cases`).
-/

namespace TemplateAudit

namespace Disk

/-! ## Shapes -/

/-- The places of everything on a disk, and whether directories stand there. -/
def kinds (disk : Disk) : List (Place × Bool) :=
  disk.entries.map fun entry => (entry.1, entry.2.isDirectory)

/-- Two disks differ at most in what their files hold and in times. -/
structure SameShape (disk disk' : Disk) : Prop where
  here : disk'.here = disk.here
  kinds : disk'.kinds = disk.kinds

namespace SameShape

variable {disk disk' : Disk}

theorem map_at? (h : SameShape disk disk') (place : Place) :
    (disk'.at? place).map Entry.isDirectory = (disk.at? place).map Entry.isDirectory := by
  by_cases hne : place = []
  · subst hne
    rfl
  · rw [at?_of_ne_nil hne, at?_of_ne_nil hne, ← Pairs.get?_map, ← Pairs.get?_map]
    exact congrArg (Pairs.get? place) h.kinds

theorem isSome_at? (h : SameShape disk disk') (place : Place) :
    (disk'.at? place).isSome = (disk.at? place).isSome := by
  have hmap := congrArg Option.isSome (h.map_at? place)
  rwa [Option.isSome_map, Option.isSome_map] at hmap

theorem isDirectoryAt_eq (h : SameShape disk disk') (place : Place) :
    disk'.isDirectoryAt place = disk.isDirectoryAt place := by
  have hany := congrArg (Option.any id) (h.map_at? place)
  rwa [Option.any_map, Option.any_map] at hany

theorem step?_eq (h : SameShape disk disk') (place : Place) (part : Text) :
    disk'.step? place part = disk.step? place part := by
  have hnext : ((disk'.at? (place ++ [part])).map fun _ => place ++ [part]) =
      (disk.at? (place ++ [part])).map fun _ => place ++ [part] := by
    have hsome := h.isSome_at? (place ++ [part])
    cases hnew : disk'.at? (place ++ [part]) <;> cases hold : disk.at? (place ++ [part]) <;>
      simp_all
  rw [step?, step?, h.isDirectoryAt_eq, hnext]

/-- A path leads to the same place. -/
theorem walk?_eq (h : SameShape disk disk') (place : Place) (parts : List Text) :
    disk'.walk? place parts = disk.walk? place parts := by
  induction parts generalizing place with
  | nil => rfl
  | cons part parts ih =>
    rw [walk?, walk?, h.step?_eq]
    cases disk.step? place part with
    | none => rfl
    | some next => exact ih next

theorem locate?_eq (h : SameShape disk disk') (path : Path) :
    disk'.locate? path = disk.locate? path := by
  rw [locate?, locate?, startOf, startOf, h.here, h.walk?_eq]

theorem resolve_eq (h : SameShape disk disk') (path : Path) :
    disk'.resolve path = disk.resolve path := by
  rw [resolve, resolve, h.here]

theorem filesBelow_eq (h : SameShape disk disk') (place : Place) :
    disk'.filesBelow place = disk.filesBelow place := by
  have hkinds : ∀ disk : Disk, disk.filesBelow place = disk.kinds.filterMap fun kind =>
      if place.isPrefixOf kind.1 && !kind.2 then some kind.1 else none := by
    intro disk
    rw [filesBelow, Disk.kinds, List.filterMap_map]
    rfl
  rw [hkinds, hkinds, h.kinds]

theorem proper (h : SameShape disk disk') (hproper : disk.Proper) : disk'.Proper := by
  have hplaces : disk'.entries.map Prod.fst = disk.entries.map Prod.fst := by
    have hmap := congrArg (List.map Prod.fst) h.kinds
    simpa [Disk.kinds, Function.comp_def] using hmap
  have hmem : ∀ entry ∈ disk'.entries, ∃ old ∈ disk.entries, old.1 = entry.1 := fun entry hentry =>
    List.mem_map.1 (hplaces ▸ List.mem_map_of_mem hentry)
  refine ⟨?_, ?_, ?_, ?_⟩
  · rw [h.here]
    exact hproper.here
  · intro entry hentry
    obtain ⟨old, hold, hplace⟩ := hmem entry hentry
    exact hplace ▸ hproper.named old hold
  · intro entry hentry
    obtain ⟨old, hold, hplace⟩ := hmem entry hentry
    rw [h.isDirectoryAt_eq, ← hplace]
    exact hproper.inDirectory old hold
  · rw [hplaces]
    exact hproper.distinct

/-! ## Templates -/

variable {root : Path} {settings : Settings}

theorem templates_eq (h : SameShape disk disk') :
    (Page.Views.mk disk' root settings).templates = (Page.Views.mk disk root settings).templates := by
  simp only [Page.Views.templates, h.locate?_eq, h.isDirectoryAt_eq, h.filesBelow_eq, h.resolve_eq]

end SameShape

end Disk

/-! ## Edits -/

/-- A file has got another text at another time, as far as times are told. -/
inductive Entry.Edited : Entry → Entry → Prop where
  | file {content content' : ByteArray} {time time' : Disk.Time}
      (htime : time.toDouble.equals time'.toDouble = false) :
      Edited (.file content time) (.file content' time')

namespace Disk

/-- The files at some paths were edited, and nothing else was. -/
structure Edited (modified : List Path) (disk disk' : Disk) : Prop where
  here : disk'.here = disk.here
  entries : List.Forall₂ (fun old new => new.1 = old.1 ∧
    if ⟨1, old.1⟩ ∈ modified then Entry.Edited old.2 new.2 else new.2 = old.2)
    disk.entries disk'.entries

variable {modified : List Path} {disk disk' : Disk}

theorem Edited.sameShape (h : Edited modified disk disk') : SameShape disk disk' where
  here := h.here
  kinds := by
    have hsame : List.Forall₂ (· = ·) disk.kinds disk'.kinds := by
      rw [Disk.kinds, Disk.kinds, List.forall₂_map_left_iff, List.forall₂_map_right_iff]
      refine h.entries.imp fun old new hentry => ?_
      obtain ⟨hplace, hedit⟩ := hentry
      obtain ⟨place, old⟩ := old
      obtain ⟨place', new⟩ := new
      obtain rfl : place' = place := hplace
      split at hedit
      · cases hedit
        rfl
      · exact congrArg (fun e : Entry => (place', e.isDirectory)) hedit.symm
    rw [List.forall₂_eq_eq_eq] at hsame
    exact hsame.symm

/-- What stands at a place is edited if its path is among the edited ones, and the same otherwise. -/
theorem Edited.at?_cases (h : Edited modified disk disk') {place : Place} (hne : place ≠ [])
    {old : Entry} (hold : disk.at? place = some old) :
    ∃ new, disk'.at? place = some new ∧
      if ⟨1, place⟩ ∈ modified then Entry.Edited old new else new = old := by
  rw [at?_of_ne_nil hne] at hold ⊢
  have hentries := h.entries
  revert hold
  generalize disk.entries = entries at hentries
  generalize disk'.entries = entries' at hentries
  intro hold
  induction hentries with
  | nil => cases hold
  | @cons a b _ _ hentry _ ih =>
    obtain ⟨hplace, hedit⟩ := hentry
    rw [Pairs.get?] at hold
    rw [Pairs.get?, hplace]
    split at hold
    · rename_i hkey
      obtain rfl := Option.some.inj hold
      rw [if_pos hkey]
      exact ⟨b.2, rfl, hkey ▸ hedit⟩
    · rename_i hkey
      rw [if_neg hkey]
      exact ih hold

/-- What a path leads to is the same, unless it is the path of an edited file. -/
theorem Edited.find?_eq (h : Edited modified disk disk') {path : Path}
    (hpath : ∀ place, disk.locate? path = some place → ⟨1, place⟩ ∉ modified) :
    disk'.find? path = disk.find? path := by
  rw [find?, find?, h.sameShape.locate?_eq]
  cases hlocate : disk.locate? path with
  | none => rfl
  | some place =>
    rw [Option.bind_some, Option.bind_some]
    by_cases hne : place = []
    · subst hne
      rfl
    · cases hold : disk.at? place with
      | none =>
        have hsome := h.sameShape.isSome_at? place
        rw [hold] at hsome
        exact Option.isNone_iff_eq_none.1 (by simpa using hsome)
      | some old =>
        obtain ⟨new, hnew, hsame⟩ := h.at?_cases hne hold
        rw [if_neg (hpath place hlocate)] at hsame
        rw [hnew, hsame]

end Disk

end TemplateAudit
