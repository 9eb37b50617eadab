import TemplateAudit.Proofs.Disk.Change

/-!
# Resolved paths

A path that leads somewhere is resolved to the path of the place it leads to
(`Proper.exists_place_of_find?`), so what it leads to can be found there as well.  The path of a file
ends in the name of the file, however it gets there (`Proper.name_resolve`).
-/

namespace TemplateAudit

namespace Disk

variable {disk : Disk} {path : Path}

/-- A path that leads somewhere is resolved to the path of that place. -/
theorem Proper.exists_place_of_find? (h : disk.Proper) (hclean : path.Clean) {entry : Entry}
    (hfind : disk.find? path = some entry) :
    ∃ place, disk.resolve path = ⟨1, place⟩ ∧ Named place ∧ disk.at? place = some entry := by
  obtain ⟨place, hlocate, hentry⟩ := Option.bind_eq_some_iff.1 hfind
  refine ⟨place, congrArg (Path.mk 1) (parts_resolve h hclean hlocate), ?_, hentry⟩
  exact h.named_of_at? (by rw [hentry]; rfl)

/-- The resolved path leads where the path leads. -/
theorem Proper.find?_resolve (h : disk.Proper) (hclean : path.Clean) {entry : Entry}
    (hfind : disk.find? path = some entry) : disk.find? (disk.resolve path) = some entry := by
  obtain ⟨place, hresolve, hnamed, hentry⟩ := h.exists_place_of_find? hclean hfind
  rw [hresolve, h.find?_place hnamed, hentry]

/-! ## The parts of a path that leads somewhere -/

theorem Proper.isName_or_up_of_step? (h : disk.Proper) {place next : Place} {part : Text}
    (hpart : Path.IsPart part) (hstep : disk.step? place part = some next) :
    IsName part ∨ part = "..".toList := by
  by_cases hup : part = "..".toList
  · exact .inr hup
  · obtain ⟨hne, hdot, -⟩ := hpart
    have hup' : part ≠ ['.', '.'] := hup
    rw [step?] at hstep
    split at hstep
    · simp only [List.isEmpty_iff, hne, beq_iff_eq, hdot, hup', or_self, if_false,
        Bool.or_eq_true] at hstep
      obtain ⟨entry, hentry, -⟩ := Option.map_eq_some_iff.1 hstep
      exact .inl (named_concat.1 (h.named_of_at? (by rw [hentry]; rfl))).2
    · cases hstep

theorem Proper.isName_or_up_of_walk? (h : disk.Proper) {place next : Place} {parts : List Text}
    (hparts : ∀ part ∈ parts, Path.IsPart part) (hwalk : disk.walk? place parts = some next) :
    ∀ part ∈ parts, IsName part ∨ part = "..".toList := by
  induction parts generalizing place with
  | nil => exact fun _ hpart => nomatch hpart
  | cons part parts ih =>
    obtain ⟨hpart, hparts⟩ := List.forall_mem_cons.1 hparts
    rw [walk?] at hwalk
    cases hstep : disk.step? place part with
    | none =>
      rw [hstep] at hwalk
      cases hwalk
    | some first =>
      rw [hstep] at hwalk
      exact List.forall_mem_cons.2 ⟨h.isName_or_up_of_step? hpart hstep, ih hparts hwalk⟩

/-- A path that leads somewhere can be the path of something. -/
theorem Proper.isPossible_of_find? (h : disk.Proper) (hclean : path.Clean) {entry : Entry}
    (hfind : disk.find? path = some entry) : path.isPossible = true := by
  obtain ⟨place, hlocate, -⟩ := Option.bind_eq_some_iff.1 hfind
  rw [Path.isPossible, Bool.not_eq_true', List.any_eq_false]
  intro part hpart hzero
  rcases h.isName_or_up_of_walk? hclean hlocate part hpart with hname | rfl
  · exact hname.2.2 (List.contains_iff_mem.1 hzero)
  · exact absurd hzero (by decide)

theorem not_isDirectoryAt_of_file {place : Place} {entry : Entry} (hentry : disk.at? place = some entry)
    (hfile : entry.isDirectory = false) : ¬disk.isDirectoryAt place := by
  simp [isDirectoryAt, hentry, hfile]

/-- The path of a file ends in the name of the file: nothing else than a name leads to a file, since
relative paths start from a directory. -/
theorem Proper.name_resolve (h : disk.Proper) (hhere : disk.isDirectoryAt disk.here)
    (hclean : path.Clean) (hfile : disk.isFile path) : (disk.resolve path).name = path.name := by
  obtain ⟨entry, hfind, hkind⟩ := (Option.any_eq_true _ _).1 hfile
  obtain ⟨place, hlocate, hentry⟩ := Option.bind_eq_some_iff.1 hfind
  have hnot := not_isDirectoryAt_of_file hentry (by simpa using hkind)
  rw [Path.name, parts_resolve h hclean hlocate, Path.name]
  rw [locate?] at hlocate
  rcases List.eq_nil_or_concat path.parts with hnil | ⟨init, last, hparts⟩
  · rw [hnil] at hlocate
    obtain rfl := Option.some.inj hlocate
    refine absurd ?_ hnot
    rw [startOf]
    split
    · rfl
    · exact hhere
  · rw [List.concat_eq_append] at hparts
    rw [hparts, walk?_concat] at hlocate
    obtain ⟨middle, -, hstep⟩ := Option.bind_eq_some_iff.1 hlocate
    have hlast : Path.IsPart last := hclean last (by simp [hparts])
    obtain ⟨hmiddle, hplace⟩ := step?_eq_some hlast hstep
    split at hplace
    · subst hplace
      exact absurd (h.isDirectoryAt_dropLast (isSome_at?_of_isDirectoryAt hmiddle)) hnot
    · rw [hplace, hparts, List.getLastD_concat, List.getLastD_concat]

end Disk

end TemplateAudit
