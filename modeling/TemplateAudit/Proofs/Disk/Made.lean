import TemplateAudit.Proofs.Disk.Directories

/-!
# Directories that are made

Where the directories of a path are made, directories are all that is new on the disk (`makesDirectories`).  New
directories can lead a path somewhere else only if it goes up through them (`MakesDirectories.content?_eq`).
-/

namespace TemplateAudit

namespace Disk

variable {disk disk' disk'' : Disk} {place start next : Place} {path : Path}

/-! ## What is new -/

/-- Whatever stands on the first disk stands unchanged on the second one, and only directories are new there. -/
structure MakesDirectories (disk disk' : Disk) : Prop extends Extends disk disk' where
  new : ∀ {place}, disk.at? place = none → (disk'.at? place).isSome → disk'.isDirectoryAt place

namespace MakesDirectories

theorem refl (disk : Disk) : MakesDirectories disk disk where
  toExtends := .refl disk
  new := fun hnone hsome => by
    rw [hnone] at hsome
    cases hsome

/-- Nothing but the places of entries counts. -/
theorem congr (h : MakesDirectories disk disk') (hhere : disk''.here = disk'.here)
    (hat : ∀ p, disk''.at? p = disk'.at? p) : MakesDirectories disk disk'' where
  here := hhere.trans h.here
  kept := fun hentry => (hat _).trans (h.kept hentry)
  new := fun {p} hnone hsome => by
    rw [hat] at hsome
    rw [isDirectoryAt, hat]
    exact h.new hnone hsome

/-- A file on the second disk stands on the first one. -/
theorem at?_file (h : MakesDirectories disk disk') {content : ByteArray} {time : Time}
    (hfile : disk'.at? place = some (.file content time)) : disk.at? place = some (.file content time) := by
  cases hat : disk.at? place with
  | none =>
    have hdir := h.new hat (by rw [hfile]; rfl)
    rw [isDirectoryAt, hfile] at hdir
    cases hdir
  | some entry => exact (h.kept hat).symm.trans hfile

end MakesDirectories

theorem isDirectory_of_makeStep {found : Option Place} {part : Text} {entry : Entry}
    (h : (makeStep (disk, found) part).1.at? place = some entry) :
    disk.at? place = some entry ∨ entry.isDirectory = true := by
  cases found with
  | none => exact .inl h
  | some base =>
    rw [makeStep] at h
    cases hstep : disk.step? base part with
    | some next =>
      rw [hstep] at h
      exact .inl h
    | none =>
      rw [hstep] at h
      dsimp only at h
      split at h
      · have hne : base ++ [part] ≠ [] := List.append_ne_nil_of_right_ne_nil _ (List.cons_ne_nil _ _)
        rw [at?_put hne] at h
        split at h
        · obtain rfl := Option.some.inj h
          exact .inr rfl
        · exact .inl h
      · exact .inl h

theorem isDirectory_of_foldl_makeStep {parts : List Text} {found : Option Place} {entry : Entry}
    (h : (parts.foldl makeStep (disk, found)).1.at? place = some entry) :
    disk.at? place = some entry ∨ entry.isDirectory = true := by
  induction parts generalizing disk found with
  | nil => exact .inl h
  | cons part parts ih => exact (ih h).elim isDirectory_of_makeStep .inr

/-- **Making directories adds directories.** -/
theorem makesDirectories (hproper : disk.Proper) (hclean : path.Clean) (hpossible : path.isPossible) :
    MakesDirectories disk (disk.makeDirectories path).1 where
  toExtends := (makeDirectories_spec hproper hclean hpossible).2.1
  new := fun {p} hnone hsome => by
    obtain ⟨entry, hentry⟩ := Option.isSome_iff_exists.1 hsome
    rcases isDirectory_of_foldl_makeStep hentry with hold | hdir
    · rw [hnone] at hold
      cases hold
    · rw [isDirectoryAt, hentry]
      exact hdir

/-! ## Where paths lead -/

/-- Names lead down, and to what was there they lead through what was there. -/
theorem Proper.walk?_of_names (h : disk.Proper) {parts : List Text} (hparts : ∀ part ∈ parts, IsName part)
    (hwalk : disk'.walk? start parts = some next) (hat : (disk.at? next).isSome) :
    start <+: next ∧ disk.walk? start parts = some next := by
  induction parts generalizing start with
  | nil =>
    obtain rfl := Option.some.inj hwalk
    exact ⟨List.prefix_refl _, rfl⟩
  | cons part parts ih =>
    obtain ⟨hpart, hparts⟩ := List.forall_mem_cons.1 hparts
    rw [walk?] at hwalk
    cases hstep : disk'.step? start part with
    | none =>
      rw [hstep] at hwalk
      cases hwalk
    | some first =>
      rw [hstep] at hwalk
      obtain ⟨-, hfirst⟩ := step?_eq_some hpart.1 hstep
      rw [if_neg hpart.2.1] at hfirst
      obtain ⟨hbelow, hwalk'⟩ := ih hparts hwalk
      rw [hfirst] at hbelow hwalk'
      obtain ⟨entry, hentry⟩ := Option.isSome_iff_exists.1 (h.isSome_of_prefix hbelow hat)
      have hdir := h.isDirectoryAt_dropLast (Option.isSome_iff_exists.2 ⟨entry, hentry⟩)
      rw [List.dropLast_concat] at hdir
      refine ⟨(List.prefix_append start [part]).trans hbelow, ?_⟩
      rw [walk?, step?_name hdir hpart, hentry]
      exact hwalk'

/-- A path does not go up through a directory that is not there: its part that goes up leads somewhere. -/
def LeadsDown (disk : Disk) (path : Path) : Prop :=
  ∃ up down, path.parts = up ++ down ∧ "..".toList ∉ down ∧ (disk.walk? (disk.startOf path) up).isSome

/-- Such a path leads to a file only where it led to it before the directories were made. -/
theorem MakesDirectories.content?_eq (h : MakesDirectories disk disk') (hproper : disk.Proper) (hclean : path.Clean)
    (hpossible : path.isPossible) (hdown : LeadsDown disk path) : disk'.content? path = disk.content? path := by
  obtain ⟨up, down, hparts, hdown, hup⟩ := hdown
  obtain ⟨base, hbase⟩ := Option.isSome_iff_exists.1 hup
  have hnames : ∀ part ∈ down, IsName part := fun part hpart =>
    (isName_or_up hclean hpossible part (hparts ▸ List.mem_append_right _ hpart)).resolve_right fun heq =>
      hdown (heq ▸ hpart)
  refine Option.ext fun bytes => ⟨fun hcontent => ?_, h.content?⟩
  obtain ⟨entry, hfind, hbytes⟩ := Option.bind_eq_some_iff.1 hcontent
  obtain ⟨place, hlocate, hentry⟩ := Option.bind_eq_some_iff.1 hfind
  cases entry with
  | directory _ => cases hbytes
  | file content time =>
    have hfile := h.at?_file hentry
    have hstart : disk'.startOf path = disk.startOf path := by
      rw [startOf, startOf, h.here]
    rw [locate?, hstart, hparts, walk?_append, h.keeps.walk? hbase, Option.bind_some] at hlocate
    have hwalk := (hproper.walk?_of_names hnames hlocate (by rw [hfile]; rfl)).2
    rw [Disk.content?, Disk.find?, locate?, hparts, walk?_append, hbase, Option.bind_some, hwalk, Option.bind_some,
      hfile]
    exact hbytes

end Disk

end TemplateAudit
