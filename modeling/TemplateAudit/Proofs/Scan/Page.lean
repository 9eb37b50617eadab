import TemplateAudit.Proofs.Page.Entry
import TemplateAudit.Proofs.Scan.Run

/-!
# A page and its files

The scan of a page examines each of its files and then the page as a whole (`mem_keys_of_scanPage`).  A
run over the files of the page examines each of them and the pages of those that are views
(`mem_keys_of_scanFiles`).  So the two agree where the view whose page it is counts as a view among its
files (`scanPage_agrees_scanFiles_iff`).  It does not when the entry is a layout that is given from the
root of the templates on: looked at from here it is no layout.
-/

namespace TemplateAudit

open Outcome Scan

namespace Audit

variable {audit : Audit} {disk : Disk} {entry : Path} {page : Page.Composition}

/-! ## Single files -/

/-- The findings of the rules for single files on a file; one that cannot be read has none. -/
def checkFile (audit : Audit) (disk : Disk) (file : Path) : Except Failure Report :=
  match disk.text? file with
  | none => .ok ⟨[], none⟩
  | some source => audit.checkSource file source

theorem checkSource_eq_ok (hpages : audit.settings.composePages) {file : Path} {source : Text}
    {checked : Report} :
    audit.checkSource file source = .ok checked ↔ ∃ document, Page.documentOf source = .ok document ∧
      audit.examineDocument Page.pageRules file source document = .ok checked := by
  rw [checkSource, excluded, if_pos hpages]
  cases Page.documentOf source <;> simp

/-- The findings on the files of a page are those on its files one after the other. -/
theorem exists_checks_of_examineMembers (hpages : audit.settings.composePages)
    {sources : List (Path × Text)} {files : List Path} {index : Nat} {members : List Page.Member}
    {checked : Report} (hsources : ∀ file ∈ files, Pairs.get? file sources = disk.text? file)
    (hmembers : Page.membersFrom sources index files = .ok members)
    (hchecked : audit.examineMembers members = .ok checked) :
    ∃ checks, files.mapM (audit.checkFile disk) = .ok checks ∧
      checked.findings = checks.flatMap Report.findings := by
  induction files generalizing index members checked with
  | nil =>
    obtain rfl := Except.ok.inj hmembers
    obtain rfl := Except.ok.inj hchecked
    exact ⟨[], rfl, rfl⟩
  | cons file files ih =>
    obtain ⟨hfile, hfiles⟩ := List.forall_mem_cons.1 hsources
    rw [Page.membersFrom, hfile] at hmembers
    rw [List.mapM_cons, checkFile]
    cases htext : disk.text? file with
    | none =>
      rw [htext] at hmembers
      obtain ⟨checks, hchecks, hfound⟩ := ih hfiles hmembers hchecked
      exact ⟨⟨[], none⟩ :: checks, by simp [hchecks], hfound⟩
    | some source =>
      rw [htext] at hmembers
      obtain ⟨document, hdocument, hmembers⟩ := bind_eq_ok.1 hmembers
      obtain ⟨others, hothers, hcons⟩ := bind_eq_ok.1 hmembers
      obtain rfl := Except.ok.inj hcons
      rw [examineMembers] at hchecked
      obtain ⟨first, hfirst, hchecked⟩ := bind_eq_ok.1 hchecked
      obtain ⟨rest, hrest, hreport⟩ := bind_eq_ok.1 hchecked
      obtain rfl := Except.ok.inj hreport
      obtain ⟨checks, hchecks, hfound⟩ := ih hfiles hothers hrest
      refine ⟨first :: checks, ?_, by simp [hfound]⟩
      simp [(checkSource_eq_ok hpages).2 ⟨document, hdocument, hfirst⟩, hchecks]

/-- Files that can be examined one after the other can be examined as the files of a page. -/
theorem exists_examineMembers_of_checks (hpages : audit.settings.composePages)
    {sources : List (Path × Text)} {files : List Path} {checks : List Report}
    (hsources : ∀ file ∈ files, Pairs.get? file sources = disk.text? file)
    (hchecks : files.mapM (audit.checkFile disk) = .ok checks) (index : Nat) :
    ∃ members checked, Page.membersFrom sources index files = .ok members ∧
      audit.examineMembers members = .ok checked := by
  induction files generalizing index checks with
  | nil => exact ⟨[], _, rfl, rfl⟩
  | cons file files ih =>
    obtain ⟨hfile, hfiles⟩ := List.forall_mem_cons.1 hsources
    rw [List.mapM_cons, checkFile] at hchecks
    obtain ⟨first, hfirst, hchecks⟩ := bind_eq_ok.1 hchecks
    obtain ⟨rest, hrest, -⟩ := bind_eq_ok.1 hchecks
    obtain ⟨members, checked, hmembers, hchecked⟩ := ih hfiles hrest (index + 1)
    rw [Page.membersFrom, hfile]
    cases htext : disk.text? file with
    | none => exact ⟨members, checked, hmembers, hchecked⟩
    | some source =>
      rw [htext] at hfirst
      obtain ⟨document, hdocument, hfirst⟩ := (checkSource_eq_ok hpages).1 hfirst
      refine ⟨⟨index, file, source, document⟩ :: members,
        ⟨first.findings ++ checked.findings, checked.failures.or first.failures⟩, ?_, ?_⟩
      · simp [hdocument, hmembers]
      · simp [examineMembers, hfirst, hchecked]

/-! ## The scan of a page -/

/-- A finding with the key is made on a file of the page by itself. -/
def FoundOnFile (audit : Audit) (disk : Disk) (page : Page.Composition) (key : Text) : Prop :=
  ∃ file ∈ page.files, ∃ checked, audit.checkFile disk file = .ok checked ∧
    key ∈ (audit.kept checked.findings).map Finding.key

/-- A finding with the key is made on the page of an entry as a whole. -/
def FoundOnPage (audit : Audit) (disk : Disk) (entry : Path) (key : Text) : Prop :=
  ∃ findings, audit.checkPageOf disk entry = .ok findings ∧
    key ∈ (audit.kept findings).map Finding.key

/-- The texts that a page holds are those on the disk. -/
theorem get?_sources_of_compose (hpage : audit.compose disk entry = .ok page) :
    ∀ file ∈ page.files, Pairs.get? file page.sources = disk.text? file := fun _ hfile =>
  Page.Views.get?_sources (mapError_eq_ok.1 hpage) hfile

/-- What the scan of a page finds: what is found on each file, and what is found on the whole. -/
theorem exists_checks_of_scanPage (hpages : audit.settings.composePages)
    (hpage : audit.compose disk entry = .ok page) {report : Report}
    (hscan : audit.scanPage disk entry = .ok report) :
    ∃ checks onPage, page.files.mapM (audit.checkFile disk) = .ok checks ∧
      audit.checkPageOf disk entry = .ok onPage ∧
      report.findings = audit.kept (checks.flatMap Report.findings ++ onPage) := by
  rw [scanPage, hpage, ok_bind] at hscan
  rw [checkPageOf, hpage, ok_bind]
  rcases Page.Views.compose_cases (mapError_eq_ok.1 hpage) with rfl | ⟨file, hentry, hfile, -⟩
  · obtain rfl := Except.ok.inj hscan
    exact ⟨[], [], rfl, rfl, by simp⟩
  · have hne : ¬page.files.isEmpty = true := by
      simpa using List.ne_nil_of_mem hfile
    rw [if_neg hne] at hscan
    obtain ⟨members, hmembers, hscan⟩ := bind_eq_ok.1 hscan
    obtain ⟨checked, hchecked, hreport⟩ := bind_eq_ok.1 hscan
    obtain rfl := Except.ok.inj hreport
    obtain ⟨checks, hchecks, hfound⟩ := exists_checks_of_examineMembers hpages
      (get?_sources_of_compose hpage) (mapError_eq_ok.1 hmembers) hchecked
    refine ⟨checks, _, hchecks, ?_, by rw [hfound]⟩
    rw [if_neg hne, checkPage, hmembers, ok_bind, hentry]
    rfl

/-- When each file of a page can be examined, so can the page. -/
theorem exists_scanPage_of_checks (hpages : audit.settings.composePages)
    (hpage : audit.compose disk entry = .ok page) {checks : List Report}
    (hchecks : page.files.mapM (audit.checkFile disk) = .ok checks) :
    ∃ report, audit.scanPage disk entry = .ok report := by
  rw [scanPage, hpage, ok_bind]
  split
  · exact ⟨_, rfl⟩
  · obtain ⟨members, checked, hmembers, hchecked⟩ :=
      exists_examineMembers_of_checks hpages (get?_sources_of_compose hpage) hchecks 0
    rw [Audit.members, Page.Composition.members, hmembers, mapError_ok, ok_bind, hchecked]
    exact ⟨_, rfl⟩

theorem mem_keys_of_scanPage (hpages : audit.settings.composePages)
    (hpage : audit.compose disk entry = .ok page) {report : Report}
    (hscan : audit.scanPage disk entry = .ok report) (key : Text) :
    key ∈ report.findings.map Finding.key ↔
      audit.FoundOnFile disk page key ∨ audit.FoundOnPage disk entry key := by
  obtain ⟨checks, onPage, hchecks, hpageFound, hfound⟩ := exists_checks_of_scanPage hpages hpage hscan
  rw [hfound, kept_append, kept_flatMap, List.map_append, List.mem_append, List.map_flatMap,
    List.mem_flatMap]
  refine or_congr ?_ ?_
  · constructor
    · rintro ⟨checked, hmem, hkey⟩
      obtain ⟨file, hfile, hcheck⟩ := (mem_of_mapM_eq_ok hchecks checked).1 hmem
      exact ⟨file, hfile, checked, hcheck, hkey⟩
    · rintro ⟨file, hfile, checked, hcheck, hkey⟩
      exact ⟨checked, (mem_of_mapM_eq_ok hchecks checked).2 ⟨file, hfile, hcheck⟩, hkey⟩
  · rw [FoundOnPage, hpageFound]
    simp

/-! ## The run over the files of a page -/

/-- Pages are composed from a proper disk, an entry is a view with such a page, and no other file of the
page is a view. -/
structure IsSoleView (audit : Audit) (disk : Disk) (entry : Path) (page : Page.Composition) :
    Prop where
  proper : disk.Proper
  /-- Relative paths start from a directory. -/
  here : disk.isDirectoryAt disk.here
  root : audit.root.Clean
  clean : entry.Clean
  composePages : audit.settings.composePages
  compose : audit.compose disk entry = .ok page
  view : (audit.views disk).isEntry entry
  others : ∀ file ∈ page.files, (audit.views disk).isEntry file → page.entry = some file

namespace IsSoleView

variable {file : Path}

theorem partOf_of_mem (h : audit.IsSoleView disk entry page) (hfile : file ∈ page.files) :
    (audit.views disk).PartOf entry file :=
  Page.Views.partOf_of_mem_compose (mapError_eq_ok.1 h.compose) file hfile

theorem straight_of_mem (h : audit.IsSoleView disk entry page) (hfile : file ∈ page.files) :
    file.Straight :=
  (h.partOf_of_mem hfile).straight h.proper h.root h.clean

theorem clean_files (h : audit.IsSoleView disk entry page) : ∀ file ∈ page.files, file.Clean :=
  fun _ hfile => (h.straight_of_mem hfile).1.2

/-- The files of a page are given by the paths at which a run looks for them, and can be read. -/
theorem resolved_of_mem (h : audit.IsSoleView disk entry page) (hfile : file ∈ page.files) :
    resolved disk file = .ok file ∧ ∃ source, disk.text? file = some source := by
  have hstraight := h.straight_of_mem hfile
  obtain ⟨source, htext⟩ := (h.partOf_of_mem hfile).exists_text
  obtain ⟨content, hcontent, -⟩ := Option.bind_eq_some_iff.1 htext
  obtain ⟨found, hfind, -⟩ := Option.bind_eq_some_iff.1 hcontent
  refine ⟨?_, source, htext⟩
  rw [resolved, if_pos (h.proper.isPossible_of_find? hstraight.1.2 hfind),
    disk.resolve_of_straight hstraight]

/-- A view among the files of the page has the same page. -/
theorem checkPageOf_of_isEntry (h : audit.IsSoleView disk entry page) (hfile : file ∈ page.files)
    (hview : (audit.views disk).isEntry file) :
    audit.checkPageOf disk file = audit.checkPageOf disk entry := by
  have hentry := h.others file hfile hview
  rcases Page.Views.compose_cases (mapError_eq_ok.1 h.compose) with rfl | ⟨path, hpath, -, hfound⟩
  · cases hentry
  · obtain rfl : path = file := Option.some.inj (hpath.symm.trans hentry)
    rw [checkPageOf, checkPageOf, Audit.compose, Audit.compose,
      Page.Views.compose_entryFile? h.proper h.root h.clean hfound]

theorem scanFile_eq_ok (h : audit.IsSoleView disk entry page) (hfile : file ∈ page.files)
    {report : Report} :
    audit.scanFile disk file = .ok report ↔ ∃ checked onPage,
      audit.checkFile disk file = .ok checked ∧
      (if (audit.views disk).isEntry file then audit.checkPageOf disk entry else .ok []) =
        .ok onPage ∧
      ⟨audit.kept (checked.findings ++ onPage), checked.failures⟩ = report := by
  obtain ⟨hresolved, source, htext⟩ := h.resolved_of_mem hfile
  have hpage : audit.hasPage disk file = (audit.views disk).isEntry file := by
    rw [hasPage, h.composePages, Bool.true_and]
  rw [scanFile, hresolved, ok_bind, checkFile, htext]
  by_cases hview : (audit.views disk).isEntry file = true
  · simp only [scanText, hpage, hview, if_true, h.checkPageOf_of_isEntry hfile hview, bind_eq_ok,
      pure_eq_ok, Except.ok.injEq, exists_and_left]
  · simp only [scanText, hpage, hview, Bool.false_eq_true, if_false, bind_eq_ok, pure_eq_ok,
      Except.ok.injEq, exists_and_left]

/-- The run over the files of the page goes well just when each of them can be examined. -/
theorem exists_scanFiles_iff (h : audit.IsSoleView disk entry page) :
    (∃ run, audit.scanFiles disk page.files = .ok run) ↔
      ∃ checks, page.files.mapM (audit.checkFile disk) = .ok checks := by
  constructor
  · rintro ⟨run, hrun⟩
    obtain ⟨reports, hreports, -⟩ := exists_reports_of_scanFiles h.proper.hereClean h.clean_files hrun
    refine exists_mapM_eq_ok fun file hfile => ?_
    obtain ⟨report, hreport⟩ := exists_of_mapM_eq_ok hreports hfile
    obtain ⟨checked, -, hchecked, -⟩ := (h.scanFile_eq_ok hfile).1 hreport
    exact ⟨checked, hchecked⟩
  · rintro ⟨checks, hchecks⟩
    obtain ⟨report, hreport⟩ := exists_scanPage_of_checks h.composePages h.compose hchecks
    obtain ⟨-, onPage, -, hpage, -⟩ := exists_checks_of_scanPage h.composePages h.compose hreport
    have hscans : ∀ file ∈ page.files, ∃ report, audit.scanFile disk file = .ok report := by
      intro file hfile
      obtain ⟨checked, hchecked⟩ := exists_of_mapM_eq_ok hchecks hfile
      by_cases hview : (audit.views disk).isEntry file = true
      · exact ⟨_, (h.scanFile_eq_ok hfile).2
          ⟨checked, onPage, hchecked, (if_pos hview).trans hpage, rfl⟩⟩
      · exact ⟨_, (h.scanFile_eq_ok hfile).2 ⟨checked, [], hchecked, if_neg hview, rfl⟩⟩
    obtain ⟨reports, hreports⟩ := exists_mapM_eq_ok hscans
    obtain ⟨run, hrun, -⟩ := scanFilesAfter_eq_ok h.proper.hereClean .empty h.clean_files hreports
    exact ⟨run, hrun⟩

/-- What the scan of a file of the page finds: what is found on the file by itself, and for a view what is
found on the page. -/
theorem mem_keys_of_scanFile (h : audit.IsSoleView disk entry page) (hfile : file ∈ page.files)
    {report : Report} (hreport : audit.scanFile disk file = .ok report) (key : Text) :
    key ∈ report.findings.map Finding.key ↔
      (∃ checked, audit.checkFile disk file = .ok checked ∧
        key ∈ (audit.kept checked.findings).map Finding.key) ∨
      (audit.views disk).isEntry file ∧ audit.FoundOnPage disk entry key := by
  obtain ⟨checked, onPage, hchecked, hpage, rfl⟩ := (h.scanFile_eq_ok hfile).1 hreport
  rw [kept_append, List.map_append, List.mem_append]
  refine or_congr ?_ ?_
  · rw [hchecked]
    simp
  · by_cases hview : (audit.views disk).isEntry file = true
    · rw [if_pos hview] at hpage
      rw [FoundOnPage, hpage]
      simp [hview]
    · rw [if_neg hview] at hpage
      obtain rfl := Except.ok.inj hpage
      simp [hview]

theorem mem_keys_of_scanFiles (h : audit.IsSoleView disk entry page) {run : Run}
    (hrun : audit.scanFiles disk page.files = .ok run) (key : Text) :
    key ∈ run.findings.map Finding.key ↔ audit.FoundOnFile disk page key ∨
      (∃ file ∈ page.files, (audit.views disk).isEntry file) ∧ audit.FoundOnPage disk entry key := by
  obtain ⟨reports, hreports, hfound⟩ :=
    exists_reports_of_scanFiles h.proper.hereClean h.clean_files hrun
  rw [hfound, Finding.mem_keys_firsts, List.map_flatMap, List.mem_flatMap]
  simp only [mem_of_mapM_eq_ok hreports]
  constructor
  · rintro ⟨report, ⟨file, hfile, hreport⟩, hkey⟩
    rcases (h.mem_keys_of_scanFile hfile hreport key).1 hkey with hown | ⟨hview, hkey⟩
    · exact .inl ⟨file, hfile, hown⟩
    · exact .inr ⟨⟨file, hfile, hview⟩, hkey⟩
  · rintro (⟨file, hfile, hown⟩ | ⟨⟨file, hfile, hview⟩, hkey⟩)
    · obtain ⟨report, hreport⟩ := exists_of_mapM_eq_ok hreports hfile
      exact ⟨report, ⟨file, hfile, hreport⟩,
        (h.mem_keys_of_scanFile hfile hreport key).2 (.inl hown)⟩
    · obtain ⟨report, hreport⟩ := exists_of_mapM_eq_ok hreports hfile
      exact ⟨report, ⟨file, hfile, hreport⟩,
        (h.mem_keys_of_scanFile hfile hreport key).2 (.inr ⟨hview, hkey⟩)⟩

end IsSoleView

/-! ## The two together -/

/-- A scan and a run found findings with the same keys. -/
def SameKeys (report : Report) (run : Run) : Prop :=
  ∀ key, key ∈ report.findings.map Finding.key ↔ key ∈ run.findings.map Finding.key

/-- **Two ways to examine a page.**  The scan of the page of a view goes well just when the run over its
files does.  Both find the same keys where the view is looked for where it says.  Otherwise they do just
when a file of the page is a view, or when all that is found on the whole page has keys that are found on
its files as well. -/
theorem scanPage_agrees_scanFiles_iff (h : audit.IsSoleView disk entry page) :
    ((∃ report, audit.scanPage disk entry = .ok report) ↔
      ∃ run, audit.scanFiles disk page.files = .ok run) ∧
    ∀ report run, audit.scanPage disk entry = .ok report →
      audit.scanFiles disk page.files = .ok run →
        (entry.isAbsolute ∨ disk.holds entry → SameKeys report run) ∧
        (SameKeys report run ↔ (∃ file ∈ page.files, (audit.views disk).isEntry file) ∨
          ∀ key, audit.FoundOnPage disk entry key → audit.FoundOnFile disk page key) := by
  constructor
  · rw [h.exists_scanFiles_iff]
    constructor
    · rintro ⟨report, hreport⟩
      obtain ⟨checks, -, hchecks, -⟩ := exists_checks_of_scanPage h.composePages h.compose hreport
      exact ⟨checks, hchecks⟩
    · rintro ⟨checks, hchecks⟩
      exact exists_scanPage_of_checks h.composePages h.compose hchecks
  · intro report run hreport hrun
    have hsame : SameKeys report run ↔ (∃ file ∈ page.files, (audit.views disk).isEntry file) ∨
        ∀ key, audit.FoundOnPage disk entry key → audit.FoundOnFile disk page key := by
      simp only [SameKeys, mem_keys_of_scanPage h.composePages h.compose hreport,
        h.mem_keys_of_scanFiles hrun]
      by_cases hview : ∃ file ∈ page.files, (audit.views disk).isEntry file
      · simp [hview]
      · simp only [hview, false_and, or_false, false_or]
        exact forall_congr' fun key => or_iff_left_iff_imp
    refine ⟨fun hgiven => hsame.2 ?_, hsame⟩
    rcases Page.Views.compose_cases (mapError_eq_ok.1 h.compose) with rfl | ⟨file, -, hfile, hfound⟩
    · -- without files there is no page on which anything could be found
      refine .inr fun key hkey => ?_
      obtain ⟨findings, hfindings, hkey⟩ := hkey
      rw [checkPageOf, h.compose, ok_bind] at hfindings
      obtain rfl := Except.ok.inj hfindings
      rw [kept_nil] at hkey
      cases hkey
    · refine .inl ⟨file, hfile, ?_⟩
      rw [Page.Views.isEntry_entryFile? h.proper h.here h.root h.clean hgiven hfound, h.view]

/-! ### A layout given from the root of the templates on -/

/-- A layout with a heading of the second level and none of the first. -/
def layoutDisk : Disk :=
  ⟨[], [(["v"], .directory ⟨0, 0⟩), (["v", "layouts"], .directory ⟨0, 0⟩),
    (["v", "layouts", "application.html"], .file (Text.toBytes "<h2>Site</h2><main></main>") ⟨1, 0⟩)]⟩

/-- The layout, as it is found from the root of the templates on. -/
def layoutEntry : Path :=
  ⟨0, ["layouts", "application.html"]⟩

def layoutFile : Path :=
  ⟨1, ["v", "layouts", "application.html"]⟩

def layoutPage : Page.Composition :=
  ⟨some layoutFile, none, [layoutFile], [(layoutFile, "<h2>Site</h2><main></main>")]⟩

theorem compose_layoutEntry : sharedAudit.compose layoutDisk layoutEntry = .ok layoutPage := by
  cbv

/-- The layout counts as a view, since it is no layout where it says. -/
theorem isSoleView_layout : sharedAudit.IsSoleView layoutDisk layoutEntry layoutPage where
  proper := by decide +kernel
  here := rfl
  root := Disk.Named.isPart (by decide)
  clean := Disk.Named.isPart (by decide)
  composePages := rfl
  compose := compose_layoutEntry
  view := by decide +kernel
  others := by decide +kernel

/-- The findings on the page as a whole are lost in the run. -/
theorem scanPage_agrees_scanFiles_iff_layout :
    sharedAudit.IsSoleView layoutDisk layoutEntry layoutPage ∧
      ∃ report run, sharedAudit.scanPage layoutDisk layoutEntry = .ok report ∧
        sharedAudit.scanFiles layoutDisk layoutPage.files = .ok run ∧ ¬SameKeys report run := by
  obtain ⟨checked, hchecked, hnone⟩ := exists_of_toOption_any
    (by decide +kernel : (sharedAudit.checkFile layoutDisk layoutFile).toOption.any
      fun report => report.findings.isEmpty)
  obtain ⟨onPage, honPage, hsome⟩ := exists_of_toOption_any
    (by decide +kernel : (sharedAudit.checkPage layoutPage).toOption.any
      fun findings => !(sharedAudit.kept findings).isEmpty)
  have hchecks : layoutPage.files.mapM (sharedAudit.checkFile layoutDisk) = .ok [checked] := by
    simp [layoutPage, hchecked]
  obtain ⟨report, hreport⟩ := exists_scanPage_of_checks rfl compose_layoutEntry hchecks
  obtain ⟨hagree, hkeys⟩ := scanPage_agrees_scanFiles_iff isSoleView_layout
  obtain ⟨run, hrun⟩ := hagree.1 ⟨report, hreport⟩
  refine ⟨isSoleView_layout, report, run, hreport, hrun, fun hsame => ?_⟩
  rcases (hkeys report run hreport hrun).2.1 hsame with ⟨file, hfile, hview⟩ | hlost
  · obtain rfl := List.mem_singleton.1 hfile
    revert hview
    decide +kernel
  · have hpage : sharedAudit.checkPageOf layoutDisk layoutEntry = .ok onPage := by
      rw [checkPageOf, compose_layoutEntry, ok_bind]
      exact honPage
    obtain ⟨finding, hfinding⟩ := List.exists_mem_of_ne_nil _ (by simpa using hsome)
    obtain ⟨file, hfile, checked', hchecked', hkey⟩ :=
      hlost _ ⟨onPage, hpage, List.mem_map_of_mem hfinding⟩
    obtain rfl := List.mem_singleton.1 hfile
    obtain rfl := Except.ok.inj (hchecked.symm.trans hchecked')
    rw [List.isEmpty_iff.1 hnone, kept_nil] at hkey
    cases hkey

end Audit

end TemplateAudit
