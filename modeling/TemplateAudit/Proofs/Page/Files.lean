import TemplateAudit.Proofs.Disk.Proper
import TemplateAudit.Proofs.Page.Closure

/-!
# The paths of the files of a page

Whatever a template refers to is found by looking at the disk, so on a proper disk every file of a page
is given by a path from the root on that nowhere goes up (`PartOf.straight`), and every template by the
path of its place (`exists_place_of_mem_templates`).  Two such paths with one text are one path.
-/

namespace TemplateAudit

namespace Page

namespace Views

variable {views : Views}

/-! ## What is found -/

theorem straight_of_withExtension? (hdisk : views.disk.Proper) {base found : Path} (hbase : base.Clean)
    (h : views.withExtension? base = some found) : found.Straight := by
  obtain ⟨candidate, hcandidate, rfl⟩ := Option.map_eq_some_iff.1 h
  obtain ⟨extension, -, rfl⟩ := List.mem_map.1 (List.mem_of_find?_eq_some hcandidate)
  exact Disk.straight_resolve hdisk.hereClean (hbase.parent.child _)

theorem straight_of_entryFile? (hdisk : views.disk.Proper) (hroot : views.root.Clean)
    {entry found : Path} (hentry : entry.Clean) (h : views.entryFile? entry = some found) :
    found.Straight := by
  obtain ⟨-, hfound⟩ := Option.ite_none_right_eq_some.1 h
  obtain rfl := Option.some.inj hfound
  refine Disk.straight_resolve hdisk.hereClean ?_
  split
  · exact hentry
  · exact hroot.join hentry

theorem straight_of_layout? (hdisk : views.disk.Proper) (hroot : views.root.Clean) {entry found : Path}
    {source : Text} (hentry : entry.Clean) (h : views.layout? entry source = some found) :
    found.Straight := by
  obtain ⟨base, hbase, hfound⟩ := List.mem_filterMap.1 (List.mem_of_find?_eq_some h)
  obtain ⟨name, -, hbase⟩ := List.mem_flatMap.1 hbase
  obtain ⟨directory, hdirectory, rfl⟩ := List.mem_map.1 hbase
  refine straight_of_withExtension? hdisk (Path.Clean.child ?_ name) hfound
  simp only [layoutDirectories, List.mem_cons, List.not_mem_nil, or_false] at hdirectory
  rcases hdirectory with rfl | rfl | rfl
  · exact hroot.child _
  · exact hentry.parent
  · exact hroot

/-- What is a file on a proper disk has a place made of names. -/
theorem named_of_mem_filesBelow {disk : Disk} (hdisk : disk.Proper) {root place : Place}
    (h : place ∈ disk.filesBelow root) :
    place ≠ [] ∧ Disk.Named place ∧ ∃ entry, disk.at? place = some entry := by
  obtain ⟨entry, hentry, hplace⟩ := List.mem_filterMap.1 h
  split at hplace
  · obtain rfl := Option.some.inj hplace
    exact ⟨(hdisk.named entry hentry).1, (hdisk.named entry hentry).2, _, hdisk.at?_of_mem hentry⟩
  · cases hplace

theorem straight_of_search? (hdisk : views.disk.Proper) {name : Text} {found : Path}
    (h : views.search? name = .ok (some found)) : found.Straight := by
  rw [search?] at h
  split at h
  · cases h
  · split at h
    · rename_i place hplaces
      obtain rfl := Option.some.inj (Except.ok.inj h)
      have hmem : place ∈ views.filesNamed name := hplaces ▸ List.mem_singleton_self place
      rw [filesNamed] at hmem
      split at hmem
      · cases hmem
      · split at hmem
        · have hnamed := (named_of_mem_filesBelow hdisk (List.mem_filter.1 hmem).1).2.1
          exact Disk.straight_resolve hdisk.hereClean hnamed.isPart
        · cases hmem
    · cases h

theorem straight_of_partial? (hdisk : views.disk.Proper) (hroot : views.root.Clean)
    {name : Text} {referrer found : Path} (hreferrer : referrer.Clean)
    (h : views.partial? name referrer = .ok (some found)) : found.Straight := by
  simp only [partial?] at h
  split at h
  · cases h
  · split at h
    · refine straight_of_withExtension? hdisk ?_ (Except.ok.inj h)
      exact (hroot.child _).child _
    · split at h
      · rename_i hfound
        obtain rfl := Option.some.inj (Except.ok.inj h)
        obtain ⟨directory, hdirectory, hfound⟩ := List.exists_of_findSome?_eq_some hfound
        refine straight_of_withExtension? hdisk (Path.Clean.child ?_ _) hfound
        rcases List.mem_cons.1 hdirectory with rfl | hdirectory
        · exact hreferrer.parent
        · obtain ⟨shared, -, rfl⟩ := List.mem_map.1 hdirectory
          exact hroot.child _
      · exact straight_of_search? hdisk h

theorem straight_of_reference? (hdisk : views.disk.Proper) (hroot : views.root.Clean)
    {referrer found : Path} (hreferrer : referrer.Clean) {names : Template.Reference}
    (h : views.reference? referrer names = .ok (some found)) : found.Straight := by
  induction names with
  | nil => cases h
  | cons name names ih =>
    rw [reference?] at h
    split at h
    · exact ih h
    · exact straight_of_partial? hdisk hroot hreferrer h

/-- Every file of a page is given by a path from the root on, without detours. -/
theorem PartOf.straight (hdisk : views.disk.Proper) (hroot : views.root.Clean) {entry f : Path}
    (hentry : entry.Clean) (h : views.PartOf entry f) : f.Straight := by
  induction h with
  | entry hfile _ => exact straight_of_entryFile? hdisk hroot hentry hfile
  | layout hfile _ hlayout _ =>
    exact straight_of_layout? hdisk hroot
      (straight_of_entryFile? hdisk hroot hentry hfile).1.2 hlayout
  | reference _ hrefers ih =>
    obtain ⟨source, reference, -, -, hfound, -⟩ := hrefers
    exact straight_of_reference? hdisk hroot ih.1.2 hfound

theorem PartOf.rooted (hdisk : views.disk.Proper) (hroot : views.root.Clean) {entry f : Path}
    (hentry : entry.Clean) (h : views.PartOf entry f) : f.Rooted :=
  (h.straight hdisk hroot hentry).1

/-! ## Templates -/

/-- A template is given by the path of its place. -/
theorem exists_place_of_mem_templates (hdisk : views.disk.Proper) {template : Path}
    (h : template ∈ views.templates) :
    ∃ place, template = ⟨1, place⟩ ∧ place ≠ [] ∧ Disk.Named place ∧
      ∃ entry, views.disk.at? place = some entry := by
  rw [templates] at h
  split at h
  · cases h
  · split at h
    · obtain ⟨place, hplace, rfl⟩ := List.mem_map.1 (List.mem_mergeSort.1 h)
      obtain ⟨hne, hnamed, hentry⟩ := named_of_mem_filesBelow hdisk (List.mem_filter.1 hplace).1
      exact ⟨place, Disk.resolve_place views.disk hnamed, hne, hnamed, hentry⟩
    · cases h

/-- The templates stand in the order of their paths. -/
theorem pairwise_templates (views : Views) :
    views.templates.Pairwise fun a b => Text.atMost a.toText b.toText := by
  rw [templates]
  split
  · exact .nil
  · split
    · exact List.pairwise_mergeSort (fun a b c => Text.atMost_trans a.toText b.toText c.toText)
        (fun a b => Text.atMost_total a.toText b.toText) _
    · exact .nil

end Views

end Page

end TemplateAudit
