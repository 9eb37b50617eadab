import TemplateAudit.Proofs.Disk.Edited
import TemplateAudit.Proofs.Page.Files
import TemplateAudit.Proofs.Scan.Record
import TemplateAudit.Proofs.Scan.Run

/-!
# Which pages a scan of changes examines

After some templates were edited, a scan of what has changed scans these again and also the views whose
pages hold an edited partial or layout (`Rescans`), and it reports the keys of what is found in these
files (`EditedSince.reported`).  Partials and layouts are told from views by their names and
directories.  A layout that stands beside a view or in the root of the tree counts as a view of its
own, so the pages that it is part of are not examined again: `scanChanged_reports_page_iff` says
exactly which pages are covered, and `scanChanged_reports_page_iff_beside` is a page that is not.
-/

namespace TemplateAudit

open Outcome Scan

namespace Audit

variable {audit : Audit} {disk disk' : Disk} {modified : List Path}

/-! ## The steps of a scan of changes -/

/-- A scan of all changes that went well is a run over the changed templates and the pages that
they are part of. -/
theorem exists_run_of_scanChanged (hpages : audit.settings.composePages) {record : Record}
    (hrecord : Record.load disk audit.state = .ok record) {change : Change}
    (hscan : audit.scanChanged disk none = .ok change) :
    change.changed = ((audit.views disk).templates.map Path.toText).filter
        (Record.isChanged disk record) ∧
      ∃ affected run, audit.pagesIncluding disk change.changed = .ok affected ∧
        audit.scanFiles disk ((change.changed ++ affected).map .ofText) = .ok run ∧
        change.findings = run.findings := by
  simp only [scanChanged, if_pos hpages] at hscan
  obtain ⟨candidates, hcandidates, hscan⟩ := bind_eq_ok.1 hscan
  obtain rfl := Except.ok.inj hcandidates
  obtain ⟨changed, hchanged, hscan⟩ := bind_eq_ok.1 hscan
  rw [mapError_eq_ok, Record.changed, hrecord, ok_bind] at hchanged
  have hfilter := Record.changedIn_eq_ok hchanged
  split at hscan
  · rename_i hempty
    obtain rfl := Except.ok.inj hscan
    obtain rfl := List.isEmpty_iff.1 hempty
    exact ⟨hfilter, [], _, rfl, rfl, rfl⟩
  · obtain ⟨affected, haffected, hscan⟩ := bind_eq_ok.1 hscan
    obtain ⟨run, hrun, hscan⟩ := bind_eq_ok.1 hscan
    obtain ⟨updated, -, hscan⟩ := bind_eq_ok.1 hscan
    obtain rfl := Except.ok.inj hscan
    exact ⟨hfilter, affected, run, haffected, hrun, rfl⟩

/-- The pages that partials or layouts among some paths are part of. -/
theorem mem_of_pagesIncluding {paths pages : List Text}
    (h : audit.pagesIncluding disk paths = .ok pages) (text : Text) :
    text ∈ pages ↔ ∃ path ∈ (audit.views disk).templates, path.toText = text ∧ text ∉ paths ∧
      (audit.views disk).isEntry path ∧ ∃ page, audit.compose disk path = .ok page ∧
        ∃ file ∈ page.files, file.toText ∈ paths ∧
          (audit.views disk).isEntry (.ofText file.toText) = false := by
  have hfragment : ∀ text, text ∈ (paths.filter fun path =>
      !(audit.views disk).isEntry (Path.ofText path)) ↔
        text ∈ paths ∧ (audit.views disk).isEntry (.ofText text) = false := by
    intro text
    rw [List.mem_filter, Bool.not_eq_true']
  simp only [pagesIncluding] at h
  split at h
  · rename_i hempty
    obtain rfl := Except.ok.inj h
    refine ⟨fun hnil => (nomatch hnil), ?_⟩
    rintro ⟨path, -, -, -, -, page, -, file, -, hfile⟩
    have hmem := (hfragment _).2 hfile
    rw [List.isEmpty_iff.1 hempty] at hmem
    cases hmem
  · obtain ⟨entries, hentries, h⟩ := bind_eq_ok.1 h
    obtain rfl := Except.ok.inj h
    simp only [List.mem_map, mem_of_filterM_eq_ok hentries, List.mem_filter, bind_eq_ok, pure_eq_ok,
      Except.ok.injEq, Bool.and_eq_true, Bool.not_eq_true', List.contains_eq_mem, List.any_eq_true,
      decide_eq_true_eq, decide_eq_false_iff_not, hfragment]
    constructor
    · rintro ⟨path, ⟨⟨htemplate, hnew, hentry⟩, hpage⟩, rfl⟩
      exact ⟨path, htemplate, rfl, hnew, hentry, hpage⟩
    · rintro ⟨path, htemplate, rfl, hnew, hentry, hpage⟩
      exact ⟨path, ⟨⟨htemplate, hnew, hentry⟩, hpage⟩, rfl⟩

/-! ## Edited templates -/

/-- Templates were edited since the last scan recorded the time of every template, and the record was
left alone. -/
structure EditedSince (audit : Audit) (record : Record) (modified : List Path)
    (disk disk' : Disk) : Prop where
  proper : disk.Proper
  root : audit.root.Clean
  recorded : Record.load disk audit.state = .ok record
  /-- The record holds the time of every template. -/
  current : ∀ template ∈ (audit.views disk).templates, ∀ entry, disk.find? template = some entry →
    Record.isStale record template.toText entry.modified.toDouble = false
  templates : ∀ path ∈ modified, path ∈ (audit.views disk).templates
  edited : Disk.Edited modified disk disk'
  record : ∀ place, disk.locate? audit.state = some place → ⟨1, place⟩ ∉ modified

namespace EditedSince

variable {record : Record}

theorem templates_eq (h : audit.EditedSince record modified disk disk') :
    (audit.views disk').templates = (audit.views disk).templates :=
  h.edited.sameShape.templates_eq

theorem proper' (h : audit.EditedSince record modified disk disk') : disk'.Proper :=
  h.edited.sameShape.proper h.proper

/-- The record is still what it was. -/
theorem recorded' (h : audit.EditedSince record modified disk disk') :
    Record.load disk' audit.state = .ok record := by
  have hrecorded := h.recorded
  rw [Record.load, Disk.content?] at hrecorded
  rwa [Record.load, Disk.content?, h.edited.find?_eq h.record]

/-- The templates that have changed are those that were edited. -/
theorem isChanged_iff (h : audit.EditedSince record modified disk disk') {template : Path}
    (htemplate : template ∈ (audit.views disk).templates) :
    Record.isChanged disk' record template.toText = true ↔ template ∈ modified := by
  have hcurrent := h.current template htemplate
  obtain ⟨place, rfl, hne, hnamed, old, hold⟩ :=
    Page.Views.exists_place_of_mem_templates h.proper htemplate
  obtain ⟨new, hnew, hedit⟩ := h.edited.at?_cases hne hold
  have hfound := hcurrent old ((h.proper.find?_place hnamed).trans hold)
  rw [Record.isChanged, h.proper'.findText?_place hnamed, hnew, Option.any_some]
  split at hedit
  · rename_i hmodified
    cases hedit with
    | file htime => exact iff_of_true (Record.isStale_of_not_equals hfound htime) hmodified
  · rename_i hsame
    rw [hedit, hfound]
    exact iff_of_false Bool.false_ne_true hsame

theorem rooted (h : audit.EditedSince record modified disk disk') {template : Path}
    (htemplate : template ∈ (audit.views disk').templates) : template.Rooted := by
  obtain ⟨place, rfl, -, hnamed, -⟩ :=
    Page.Views.exists_place_of_mem_templates h.proper' htemplate
  exact hnamed.rooted

end EditedSince

/-! ## What is scanned again -/

/-- Is a file scanned again when the templates at some paths have changed?  These templates are, and so
are the views whose pages hold one of them that is a partial or a layout. -/
def Rescans (audit : Audit) (disk : Disk) (modified : List Path) (path : Path) : Prop :=
  path ∈ modified ∨
    path ∈ (audit.views disk).templates ∧ (audit.views disk).isEntry path ∧
      ∃ page, audit.compose disk path = .ok page ∧
        ∃ file ∈ page.files, file ∈ modified ∧ (audit.views disk).isEntry file = false

/-- The run of a scan of changes is over the files that are scanned again. -/
theorem EditedSince.mem_listed {record : Record}
    (h : audit.EditedSince record modified disk disk') {changed affected : List Text}
    (hchanged : changed = ((audit.views disk').templates.map Path.toText).filter
      (Record.isChanged disk' record))
    (haffected : audit.pagesIncluding disk' changed = .ok affected) (text : Text) :
    text ∈ changed ++ affected ↔ ∃ path, audit.Rescans disk' modified path ∧ path.toText = text := by
  have hmodified : ∀ path ∈ modified, path ∈ (audit.views disk').templates := fun path hpath =>
    h.templates_eq ▸ h.templates path hpath
  have hmem : ∀ text, text ∈ changed ↔ ∃ path ∈ modified, path.toText = text := by
    intro text
    rw [hchanged, List.mem_filter, List.mem_map]
    constructor
    · rintro ⟨⟨path, hpath, rfl⟩, hstale⟩
      exact ⟨path, (h.isChanged_iff (h.templates_eq ▸ hpath)).1 hstale, rfl⟩
    · rintro ⟨path, hpath, rfl⟩
      exact ⟨⟨path, hmodified path hpath, rfl⟩, (h.isChanged_iff (h.templates path hpath)).2 hpath⟩
  -- a file of a page is among the changed templates when its text is
  have hfragment : ∀ {path : Path} {page : Page.Composition},
      path ∈ (audit.views disk').templates → audit.compose disk' path = .ok page →
      ∀ file ∈ page.files, (file.toText ∈ changed ∧
        (audit.views disk').isEntry (.ofText file.toText) = false ↔
          file ∈ modified ∧ (audit.views disk').isEntry file = false) := by
    intro path page hpath hpage file hfile
    have hpart := Page.Views.partOf_of_mem_compose (mapError_eq_ok.1 hpage) file hfile
    have hrooted : file.Rooted := hpart.rooted h.proper' h.root (h.rooted hpath).2
    rw [hrooted.ofText_toText, hmem]
    refine and_congr_left' ⟨?_, fun hfile => ⟨file, hfile, rfl⟩⟩
    rintro ⟨path, hpath, htext⟩
    exact (h.rooted (hmodified path hpath)).toText_inj hrooted htext ▸ hpath
  rw [List.mem_append, mem_of_pagesIncluding haffected]
  constructor
  · rintro (hchange | ⟨path, hpath, rfl, -, hentry, page, hpage, file, hfile, hin⟩)
    · obtain ⟨path, hpath, rfl⟩ := (hmem text).1 hchange
      exact ⟨path, .inl hpath, rfl⟩
    · exact ⟨path, .inr ⟨hpath, hentry, page, hpage, file, hfile,
        (hfragment hpath hpage file hfile).1 hin⟩, rfl⟩
  · rintro ⟨path, hpath | ⟨hpath, hentry, page, hpage, file, hfile, hin⟩, rfl⟩
    · exact .inl ((hmem _).2 ⟨path, hpath, rfl⟩)
    · by_cases hchange : path.toText ∈ changed
      · exact .inl hchange
      · exact .inr ⟨path, hpath, rfl, hchange, hentry, page, hpage, file, hfile,
          (hfragment hpath hpage file hfile).2 hin⟩

/-- A view that cannot be read has no page. -/
theorem checkPageOf_of_text?_none {place : Place} (hplace : Disk.Named place)
    (htext : disk.text? ⟨1, place⟩ = none) : audit.checkPageOf disk ⟨1, place⟩ = .ok [] := by
  have hnone : ((audit.views disk).entryFile? ⟨1, place⟩).bind (fun path =>
      ((audit.views disk).text? path).map (path, ·)) = none := by
    rw [Option.bind_eq_none_iff]
    intro path hpath
    obtain ⟨-, hpath⟩ := Option.ite_none_right_eq_some.1 hpath
    rw [if_pos (by rfl)] at hpath
    obtain rfl := Option.some.inj hpath
    have hsame : (audit.views disk).text? ((audit.views disk).disk.resolve ⟨1, place⟩) = none := by
      rw [Disk.resolve_place _ hplace]
      exact htext
    rw [hsame, Option.map_none]
  rw [checkPageOf, compose, Page.Views.compose, hnone]
  rfl

/-- The scan of a view finds what is found on its page. -/
theorem subset_findings_of_scanFile (hpages : audit.settings.composePages)
    (hwarnings : audit.settings.ignoreWarnings = false) {place : Place} (hplace : Disk.Named place)
    (hentry : (audit.views disk).isEntry ⟨1, place⟩) {findings : List Finding}
    (hfindings : audit.checkPageOf disk ⟨1, place⟩ = .ok findings) {report : Report}
    (hscan : audit.scanFile disk ⟨1, place⟩ = .ok report) : findings ⊆ report.findings := by
  rw [scanFile, resolved, if_pos (Disk.isPossible_place hplace), disk.resolve_place hplace, ok_bind]
    at hscan
  cases htext : disk.text? ⟨1, place⟩ with
  | none =>
    rw [checkPageOf_of_text?_none hplace htext] at hfindings
    obtain rfl := Except.ok.inj hfindings
    exact List.nil_subset _
  | some source =>
    rw [htext] at hscan
    have hpage : audit.hasPage disk ⟨1, place⟩ = true := by
      rw [hasPage, hpages, hentry]
      rfl
    simp only [scanText, if_pos hpage, hfindings, bind_eq_ok, pure_eq_ok, Except.ok.injEq] at hscan
    obtain ⟨checked, -, onPage, rfl, rfl⟩ := hscan
    simp [kept, hwarnings]

/-- The files that are scanned again can all be scanned, and the scan of changes reports the keys of
what is found in them. -/
theorem EditedSince.reported {record : Record} {change : Change}
    (hpages : audit.settings.composePages) (h : audit.EditedSince record modified disk disk')
    (hscan : audit.scanChanged disk' none = .ok change) :
    (∀ path, audit.Rescans disk' modified path → ∃ report, audit.scanFile disk' path = .ok report) ∧
      ∀ key, key ∈ change.findings.map Finding.key ↔ ∃ path report,
        audit.Rescans disk' modified path ∧ audit.scanFile disk' path = .ok report ∧
          key ∈ report.findings.map Finding.key := by
  obtain ⟨hchanged, affected, run, haffected, hrun, hfound⟩ :=
    exists_run_of_scanChanged hpages h.recorded' hscan
  obtain ⟨reports, hreports, hfirsts⟩ := exists_reports_of_scanFiles h.proper'.hereClean
    (List.forall_mem_map.2 fun path _ => Path.clean_ofText path) hrun
  have hrooted : ∀ path, audit.Rescans disk' modified path → path.Rooted := by
    rintro path (hpath | ⟨hpath, -⟩)
    · exact h.rooted (h.templates_eq ▸ h.templates path hpath)
    · exact h.rooted hpath
  have hlisted : ∀ path, path ∈ (change.changed ++ affected).map Path.ofText ↔
      audit.Rescans disk' modified path := by
    intro path
    simp only [List.mem_map, h.mem_listed hchanged haffected]
    constructor
    · rintro ⟨_, ⟨path, hpath, rfl⟩, rfl⟩
      rwa [(hrooted path hpath).ofText_toText]
    · intro hpath
      exact ⟨path.toText, ⟨path, hpath, rfl⟩, (hrooted path hpath).ofText_toText⟩
  refine ⟨fun path hpath => exists_of_mapM_eq_ok hreports ((hlisted path).2 hpath), fun key => ?_⟩
  rw [hfound, hfirsts, Finding.mem_keys_firsts]
  simp only [List.map_flatMap, List.mem_flatMap, mem_of_mapM_eq_ok hreports, hlisted]
  constructor
  · rintro ⟨report, ⟨path, hpath, hreport⟩, hkey⟩
    exact ⟨path, report, hpath, hreport, hkey⟩
  · rintro ⟨path, report, hpath, hreport, hkey⟩
    exact ⟨report, ⟨path, hpath, hreport⟩, hkey⟩

/-- **Which findings on pages a scan of changes reports.**  The findings on the page of a view are all
reported just when the view was edited itself, or a partial or layout of its page was that is no view by
its name and directory, or when other files that are scanned again have findings with the same
keys. -/
theorem scanChanged_reports_page_iff {record : Record} {change : Change}
    (hpages : audit.settings.composePages) (hwarnings : audit.settings.ignoreWarnings = false)
    (hsince : audit.EditedSince record modified disk disk')
    (hscan : audit.scanChanged disk' none = .ok change) {view : Path} {page : Page.Composition}
    {findings : List Finding} (hview : view ∈ (audit.views disk').templates)
    (hentry : (audit.views disk').isEntry view) (hpage : audit.compose disk' view = .ok page)
    (hfindings : audit.checkPageOf disk' view = .ok findings) :
    (∀ finding ∈ findings, finding.key ∈ change.findings.map Finding.key) ↔
      (view ∈ modified ∨
        ∃ file ∈ page.files, file ∈ modified ∧ (audit.views disk').isEntry file = false) ∨
      ∀ finding ∈ findings, ∃ path report, path ≠ view ∧ audit.Rescans disk' modified path ∧
        audit.scanFile disk' path = .ok report ∧
          finding.key ∈ report.findings.map Finding.key := by
  obtain ⟨hscans, hkeys⟩ := hsince.reported hpages hscan
  have hrescans : audit.Rescans disk' modified view ↔ view ∈ modified ∨
      ∃ file ∈ page.files, file ∈ modified ∧ (audit.views disk').isEntry file = false := by
    refine or_congr_right ⟨?_, fun h => ⟨hview, hentry, page, hpage, h⟩⟩
    rintro ⟨-, -, page', hpage', h⟩
    obtain rfl := Except.ok.inj (hpage'.symm.trans hpage)
    exact h
  rw [← hrescans]
  constructor
  · intro hall
    by_cases hself : audit.Rescans disk' modified view
    · exact .inl hself
    · refine .inr fun finding hfinding => ?_
      obtain ⟨path, report, hpath, hreport, hkey⟩ := (hkeys _).1 (hall finding hfinding)
      exact ⟨path, report, fun heq => hself (heq ▸ hpath), hpath, hreport, hkey⟩
  · rintro (hself | hothers) finding hfinding
    · obtain ⟨report, hreport⟩ := hscans view hself
      obtain ⟨place, rfl, -, hnamed, -⟩ :=
        Page.Views.exists_place_of_mem_templates hsince.proper' hview
      exact (hkeys _).2 ⟨_, report, hself, hreport, List.mem_map_of_mem
        (subset_findings_of_scanFile hpages hwarnings hnamed hentry hfindings hreport hfinding)⟩
    · obtain ⟨path, report, -, hpath, hreport, hkey⟩ := hothers finding hfinding
      exact (hkeys _).2 ⟨path, report, hpath, hreport, hkey⟩

/-! ### A layout beside its view -/

/-- A view and its layout in one directory, with the record of a scan of both. -/
def besideDisk (layout : String) (seconds : Int) : Disk :=
  ⟨[], [(["v"], .directory ⟨0, 0⟩),
    (["v", "application.html"], .file (Text.toBytes layout) ⟨seconds, 0⟩),
    (["v", "show.html"], .file (Text.toBytes "<h2>Post</h2>") ⟨1, 0⟩),
    (["state"], .file (Text.toBytes
      "\x7b\"/v/application.html\": 1.0, \"/v/show.html\": 1.0\x7d") ⟨1, 0⟩)]⟩

def besideLayout : Path := ⟨1, ["v", "application.html"]⟩

def besideView : Path := ⟨1, ["v", "show.html"]⟩

/-- The disk with a heading in the layout. -/
def besideBefore : Disk :=
  besideDisk "<h1>Site</h1><main></main>" 1

/-- The disk after the layout has lost its heading. -/
def besideAfter : Disk :=
  besideDisk "<main></main>" 2

def besideRecord : Record :=
  [(besideLayout.toText, .ofInt 1), (besideView.toText, .ofInt 1)]

theorem edited_beside : Disk.Edited [besideLayout] besideBefore besideAfter where
  here := rfl
  entries := by
    refine .cons ⟨rfl, rfl⟩ (.cons ⟨rfl, ?_⟩ (.cons ⟨rfl, rfl⟩ (.cons ⟨rfl, rfl⟩ .nil)))
    exact .file (by decide +kernel)

theorem templates_besideAfter :
    (sharedAudit.views besideAfter).templates = [besideLayout, besideView] := by
  cbv

theorem templates_besideBefore :
    (sharedAudit.views besideBefore).templates = [besideLayout, besideView] :=
  edited_beside.sameShape.templates_eq.symm.trans templates_besideAfter

theorem editedSince_beside :
    sharedAudit.EditedSince besideRecord [besideLayout] besideBefore besideAfter where
  proper := by decide +kernel
  root := Disk.Named.isPart (by decide)
  recorded := by decide +kernel
  current := by
    rw [templates_besideBefore]
    decide +kernel
  templates := by
    rw [templates_besideBefore]
    decide +kernel
  edited := edited_beside
  record := by decide +kernel

/-- A page on the disk after the edit. -/
def besidePage (layout : Option Path) (entry : Path) : Page.Composition :=
  let files := layout.toList ++ [entry]
  ⟨some entry, layout, files,
    files.filterMap fun file => (besideAfter.text? file).map (file, ·)⟩

theorem compose_besideView :
    (sharedAudit.views besideAfter).compose besideView =
      .ok (besidePage (some besideLayout) besideView) := by
  cbv

theorem compose_besideLayout :
    (sharedAudit.views besideAfter).compose besideLayout = .ok (besidePage none besideLayout) := by
  cbv

/-- By itself the layout has no findings. -/
theorem scanFile_besideLayout :
    ∃ report, sharedAudit.scanFile besideAfter besideLayout = .ok report ∧ report.findings = [] := by
  have htext : besideAfter.text? besideLayout = some "<main></main>".toList := by decide +kernel
  have hfile : resolved besideAfter besideLayout = .ok besideLayout := by decide +kernel
  obtain ⟨checked, hchecked, hnone⟩ := exists_of_toOption_any
    (by decide +kernel : (sharedAudit.checkSource besideLayout "<main></main>".toList).toOption.any
      fun report => report.findings.isEmpty)
  obtain ⟨findings, hfindings, hnone'⟩ := exists_of_toOption_any
    (by decide +kernel : (sharedAudit.checkPage (besidePage none besideLayout)).toOption.any
      List.isEmpty)
  obtain rfl := List.isEmpty_iff.1 hnone'
  refine ⟨⟨[], checked.failures⟩, ?_, rfl⟩
  rw [scanFile, hfile, ok_bind, htext]
  simp only [scanText, hchecked, ok_bind, checkPageOf, compose, compose_besideLayout, mapError_ok,
    hfindings, List.isEmpty_iff.1 hnone, pure_eq_ok, ite_self, kept_append, kept_nil, List.append_nil]

/-- The scan of changes goes well. -/
theorem exists_scanChanged_beside : ∃ change, sharedAudit.scanChanged besideAfter none = .ok change := by
  obtain ⟨report, hreport, -⟩ := scanFile_besideLayout
  have hreports : [besideLayout].mapM (sharedAudit.scanFile besideAfter) = .ok [report] := by
    rw [List.mapM_cons, hreport]
    rfl
  have hclean : ∀ path ∈ [besideLayout], path.Clean :=
    List.forall_mem_singleton.2 (Disk.Named.isPart (by decide))
  obtain ⟨run, hrun, -⟩ :=
    scanFilesAfter_eq_ok editedSince_beside.proper'.hereClean .empty hclean hreports
  have hchanged : Record.changed besideAfter sharedAudit.state
      [besideLayout.toText, besideView.toText] = .ok [besideLayout.toText] := by
    decide +kernel
  have haffected : sharedAudit.pagesIncluding besideAfter [besideLayout.toText] = .ok [] := by
    decide +kernel
  obtain ⟨updated, hupdated, -⟩ := exists_of_toOption_any
    (by decide +kernel :
      (Record.update besideAfter sharedAudit.state [besideLayout.toText]).toOption.any fun _ => true)
  have hread : Path.ofText besideLayout.toText = besideLayout := by decide +kernel
  refine ⟨⟨[besideLayout.toText], run.findings, run.failures, updated⟩, ?_⟩
  simp only [scanChanged, candidates, templates_besideAfter, List.map_cons, List.map_nil, ok_bind,
    hchanged, mapError_ok, List.isEmpty_cons, Bool.false_eq_true, if_false, haffected,
    List.append_nil, hread, hupdated]
  rw [scanFiles, hrun]
  rfl

/-- The finding on the page of the view is lost when the layout beside it was edited. -/
theorem scanChanged_reports_page_iff_beside :
    sharedAudit.EditedSince besideRecord [besideLayout] besideBefore besideAfter ∧
      besideLayout ∈ (besidePage (some besideLayout) besideView).files ∧
      ∃ change findings, sharedAudit.scanChanged besideAfter none = .ok change ∧
        sharedAudit.checkPageOf besideAfter besideView = .ok findings ∧
        ¬∀ finding ∈ findings, finding.key ∈ change.findings.map Finding.key := by
  obtain ⟨change, hchange⟩ := exists_scanChanged_beside
  obtain ⟨findings, hfindings, hsome⟩ := exists_of_toOption_any
    (by decide +kernel : (sharedAudit.checkPage
      (besidePage (some besideLayout) besideView)).toOption.any fun findings => !findings.isEmpty)
  have hpage : sharedAudit.compose besideAfter besideView =
      .ok (besidePage (some besideLayout) besideView) := by
    rw [compose, compose_besideView, mapError_ok]
  have hcheck : sharedAudit.checkPageOf besideAfter besideView = .ok findings := by
    rw [checkPageOf, hpage, ok_bind, hfindings]
    rfl
  refine ⟨editedSince_beside, by decide +kernel, change, findings, hchange, hcheck, ?_⟩
  -- the layout is a view by its name and directory, so only its own page is examined
  have hentry : (sharedAudit.views besideAfter).isEntry besideLayout = true := by decide +kernel
  have honly : ∀ path, sharedAudit.Rescans besideAfter [besideLayout] path → path = besideLayout := by
    rintro path (hpath | ⟨-, -, page, -, file, -, hfile, hfragment⟩)
    · exact List.mem_singleton.1 hpath
    · rw [List.mem_singleton.1 hfile, hentry] at hfragment
      cases hfragment
  rw [scanChanged_reports_page_iff rfl rfl editedSince_beside hchange
    (by rw [templates_besideAfter]; decide) (by decide +kernel) hpage hcheck]
  rintro ((hview | ⟨file, -, hfile, hfragment⟩) | hothers)
  · exact absurd hview (by decide)
  · rw [List.mem_singleton.1 hfile, hentry] at hfragment
    cases hfragment
  · obtain ⟨finding, hfinding⟩ := List.exists_mem_of_ne_nil findings (by simpa using hsome)
    obtain ⟨path, report, -, hpath, hreport, hkey⟩ := hothers finding hfinding
    obtain ⟨report', hreport', hnone⟩ := scanFile_besideLayout
    obtain rfl := honly path hpath
    obtain rfl := Except.ok.inj (hreport.symm.trans hreport')
    rw [hnone] at hkey
    cases hkey

end Audit

end TemplateAudit
