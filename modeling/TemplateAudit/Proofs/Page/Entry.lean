import TemplateAudit.Proofs.Disk.Resolved
import TemplateAudit.Proofs.Page.Files

/-!
# The entry of a page

The page of an entry is the page of the file that the entry leads to (`compose_entryFile?`).  Whether an
entry is a view can be told from that file as well, as long as the entry is looked for where it says
(`isEntry_entryFile?`): a path that leads nowhere from here is looked for below the root, but it is not
judged there.
-/

namespace TemplateAudit

open Outcome

namespace Page

namespace Views

variable {views : Views} {entry file : Path} {page : Composition}

/-! ## The files of a page -/

/-- Every file of a page can be read. -/
theorem PartOf.exists_text (h : views.PartOf entry file) :
    ∃ source, views.text? file = some source := by
  cases h with
  | entry _ hsource => exact ⟨_, hsource⟩
  | layout _ _ _ htext => exact ⟨_, htext⟩
  | reference _ hrefers =>
    obtain ⟨-, -, -, -, -, hsome⟩ := hrefers
    exact Option.isSome_iff_exists.1 hsome

/-- The texts of a page are those of its files on the disk. -/
theorem get?_sources (h : views.compose entry = .ok page) (hfile : file ∈ page.files) :
    Pairs.get? file page.sources = views.text? file := by
  have hsources : page.sources =
      page.files.filterMap fun file => (views.text? file).map (file, ·) := by
    obtain ⟨rfl, -⟩ | ⟨-, -, -, -, -, -, rfl⟩ := cases_of_compose h <;> rfl
  rw [hsources, Pairs.get?_filterMap, if_pos hfile]

/-- A page has no files, or the file of its entry is one of them. -/
theorem compose_cases (h : views.compose entry = .ok page) :
    page = .empty ∨ ∃ file, page.entry = some file ∧ file ∈ page.files ∧
      views.entryFile? entry = some file := by
  obtain ⟨rfl, -⟩ | ⟨path, source, files, hfile, -, hfiles, rfl⟩ := cases_of_compose h
  · exact .inl rfl
  · exact .inr ⟨path, rfl, filesOf_keeps (fun hwalk hmem => hwalk.subset hmem) (by simp) hfiles, hfile⟩

/-! ## The file of an entry -/

theorem exists_resolve_of_entryFile? (h : views.entryFile? entry = some file) (hentry : entry.Clean)
    (hroot : views.root.Clean) :
    ∃ path : Path, path.Clean ∧ views.disk.isFile path ∧ file = views.disk.resolve path ∧
      (entry.isAbsolute ∨ views.disk.holds entry → path = entry) := by
  obtain ⟨hfile, hresolve⟩ := Option.ite_none_right_eq_some.1 h
  refine ⟨_, ?_, hfile, (Option.some.inj hresolve).symm, fun hgiven => if_pos (by simpa using hgiven)⟩
  split
  · exact hentry
  · exact hroot.join hentry

/-- The file that an entry leads to leads to itself. -/
theorem entryFile?_entryFile? (hdisk : views.disk.Proper) (hroot : views.root.Clean)
    (hentry : entry.Clean) (h : views.entryFile? entry = some file) :
    views.entryFile? file = some file := by
  obtain ⟨path, hclean, hfile, rfl, -⟩ := exists_resolve_of_entryFile? h hentry hroot
  obtain ⟨found, hfind, hkind⟩ := (Option.any_eq_true _ _).1 hfile
  have hsame : views.disk.isFile (views.disk.resolve path) = true := by
    rw [Disk.isFile, hdisk.find?_resolve hclean hfind]
    exact hkind
  have habsolute : (views.disk.resolve path).isAbsolute = true := rfl
  simp only [entryFile?, habsolute, Bool.true_or, if_true, hsame]
  rw [views.disk.resolve_of_straight (Disk.straight_resolve hdisk.hereClean hclean)]

/-- The page of an entry is the page of its file. -/
theorem compose_entryFile? (hdisk : views.disk.Proper) (hroot : views.root.Clean)
    (hentry : entry.Clean) (h : views.entryFile? entry = some file) :
    views.compose file = views.compose entry := by
  rw [compose, compose, entryFile?_entryFile? hdisk hroot hentry h, h]

/-- An entry that is looked for where it says is a view just when its file is. -/
theorem isEntry_entryFile? (hdisk : views.disk.Proper)
    (hhere : views.disk.isDirectoryAt views.disk.here) (hroot : views.root.Clean)
    (hentry : entry.Clean) (hgiven : entry.isAbsolute ∨ views.disk.holds entry)
    (h : views.entryFile? entry = some file) : views.isEntry file = views.isEntry entry := by
  obtain ⟨path, hclean, hfile, rfl, hpath⟩ := exists_resolve_of_entryFile? h hentry hroot
  obtain rfl := hpath hgiven
  obtain ⟨found, hfind, -⟩ := (Option.any_eq_true _ _).1 hfile
  have hstraight := Disk.straight_resolve hdisk.hereClean hclean
  rw [isEntry, isEntry, hdisk.name_resolve hhere hclean hfile,
    views.disk.resolve_of_straight hstraight, hdisk.isPossible_of_find? hclean hfind,
    hdisk.isPossible_of_find? hstraight.1.2 (hdisk.find?_resolve hclean hfind)]

end Views

end Page

end TemplateAudit
