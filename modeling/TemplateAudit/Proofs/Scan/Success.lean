import TemplateAudit.Proofs.Html.Refused
import TemplateAudit.Proofs.Page.Names
import TemplateAudit.Proofs.Rule.Counted
import TemplateAudit.Proofs.Scan.Page

/-!
# When scans go well

By the rules of this library a scan of a file goes well just when its path can be looked up and every file
that is read for it has a document (`Scannable`).  Most templates have one whatever is in them; only
marked sections, references with too many digits, and names of partials with two stars in a row can make a
scan fail (`Harmless`).  One such template fails the whole scan and not only its own part of it:
`exists_scans_iff` says exactly which scans go well.
-/

namespace TemplateAudit

open Outcome Scan

/-- A template that no scan fails at: its markup holds nothing that may be refused, and the names in it can
be looked for. -/
structure Harmless (source : Text) : Prop where
  markup : ¬Html.Refusable ((Template.toMarkup source).filter (· != '\uFEFF'))
  names : Page.Views.Seekable source

theorem Harmless.exists_documentOf {source : Text} (h : Harmless source) :
    ∃ document, Page.documentOf source = .ok document :=
  Html.exists_parse h.markup

namespace Audit

variable {audit : Audit} {disk : Disk} {path entry : Path} {source : Text}

/-! ## What is read for a scan -/

/-- What a path leads to has a document if it can be read. -/
def HasDocument (disk : Disk) (path : Path) : Prop :=
  ∀ source, disk.text? path = some source → ∃ document, Page.documentOf source = .ok document

/-- The page of an entry can be put together, and its files have documents. -/
def HasSoundPage (audit : Audit) (disk : Disk) (entry : Path) : Prop :=
  ∃ page, audit.compose disk entry = .ok page ∧ ∀ file ∈ page.files, HasDocument disk file

/-- A path can be looked up, what it leads to has a document, and the page of a view is sound. -/
structure Scannable (audit : Audit) (disk : Disk) (path : Path) : Prop where
  possible : path.isPossible
  document : HasDocument disk (disk.resolve path)
  page : audit.hasPage disk (disk.resolve path) → (disk.text? (disk.resolve path)).isSome →
    audit.HasSoundPage disk (disk.resolve path)

/-- The files that are read for the scan of a path. -/
def ReadFor (audit : Audit) (disk : Disk) (path file : Path) : Prop :=
  file = disk.resolve path ∨
    audit.hasPage disk (disk.resolve path) ∧ (audit.views disk).PartOf (disk.resolve path) file

/-! ## Single files -/

theorem exists_examineDocument (hrules : audit.rules = Rule.standard) (excluded : List Text)
    (path : Path) (source : Text) (document : Html.Document) :
    ∃ report, audit.examineDocument excluded path source document = .ok report := by
  obtain ⟨located, hlocated⟩ := Locate.exists_locate source (some path.toText)
    (Rule.isCounted_standard audit.config excluded document
      ⟨some path.toText, none, audit.settings.textLimit⟩)
  simp only [examineDocument, hrules, hlocated]
  exact ⟨_, rfl⟩

theorem exists_checkSource_iff (hrules : audit.rules = Rule.standard) :
    (∃ report, audit.checkSource path source = .ok report) ↔
      ∃ document, Page.documentOf source = .ok document := by
  rw [checkSource]
  cases Page.documentOf source with
  | error reason => simp
  | ok document => simpa using exists_examineDocument hrules audit.excluded path source document

/-! ## Pages -/

theorem exists_membersFrom_iff {sources : List (Path × Text)} {files : List Path} (index : Nat)
    (hsources : ∀ file ∈ files, Pairs.get? file sources = disk.text? file) :
    (∃ members, Page.membersFrom sources index files = .ok members) ↔
      ∀ file ∈ files, HasDocument disk file := by
  induction files generalizing index with
  | nil => exact iff_of_true ⟨[], rfl⟩ nofun
  | cons file files ih =>
    obtain ⟨hfile, hfiles⟩ := List.forall_mem_cons.1 hsources
    rw [List.forall_mem_cons, ← ih (index + 1) hfiles, Page.membersFrom, hfile, HasDocument]
    cases disk.text? file with
    | none => simp
    | some source => simp [bind_eq_ok]

theorem exists_examineMembers (hrules : audit.rules = Rule.standard) (members : List Page.Member) :
    ∃ report, audit.examineMembers members = .ok report := by
  induction members with
  | nil => exact ⟨_, rfl⟩
  | cons member members ih =>
    obtain ⟨first, hfirst⟩ := exists_examineDocument hrules Page.pageRules member.path member.source
      member.document
    obtain ⟨rest, hrest⟩ := ih
    exact ⟨_, by rw [examineMembers, hfirst, ok_bind, hrest]; rfl⟩

/-- The files of a page can be read just when all of them have documents. -/
theorem exists_members_iff {page : Page.Composition} (hpage : audit.compose disk entry = .ok page) :
    (∃ members, Audit.members page = .ok members) ↔ ∀ file ∈ page.files, HasDocument disk file := by
  rw [← exists_membersFrom_iff 0 (get?_sources_of_compose hpage)]
  simp only [Audit.members, mapError_eq_ok, Page.Composition.members]

theorem exists_checkPageOf_iff :
    (∃ findings, audit.checkPageOf disk entry = .ok findings) ↔ audit.HasSoundPage disk entry := by
  rw [HasSoundPage, checkPageOf]
  cases hpage : audit.compose disk entry with
  | error failure => simp
  | ok page =>
    simp only [ok_bind, Except.ok.injEq, exists_eq_left']
    rw [← exists_members_iff hpage]
    rcases Page.Views.compose_cases (mapError_eq_ok.1 hpage) with rfl | ⟨file, hentry, hfile, -⟩
    · exact iff_of_true ⟨[], rfl⟩ ⟨[], rfl⟩
    · have hne : ¬page.files.isEmpty = true := by
        simpa using List.ne_nil_of_mem hfile
      rw [if_neg hne, checkPage]
      cases Audit.members page with
      | error failure => simp
      | ok members => simp [hentry]

theorem exists_scanPage_iff (hrules : audit.rules = Rule.standard) :
    (∃ report, audit.scanPage disk entry = .ok report) ↔ audit.HasSoundPage disk entry := by
  rw [HasSoundPage, scanPage]
  cases hpage : audit.compose disk entry with
  | error failure => simp
  | ok page =>
    simp only [ok_bind, Except.ok.injEq, exists_eq_left']
    rw [← exists_members_iff hpage]
    by_cases hempty : page.files.isEmpty = true
    · have hmembers : Audit.members page = .ok [] := by
        rw [Audit.members, Page.Composition.members, List.isEmpty_iff.1 hempty]
        rfl
      rw [if_pos hempty, hmembers]
      exact iff_of_true ⟨_, rfl⟩ ⟨[], rfl⟩
    · rw [if_neg hempty]
      cases Audit.members page with
      | error failure => simp
      | ok members =>
        obtain ⟨checked, hchecked⟩ := exists_examineMembers hrules members
        simp [hchecked]

/-! ## Scans and runs -/

theorem exists_scanText_iff (hrules : audit.rules = Rule.standard) :
    (∃ report, audit.scanText disk path source = .ok report) ↔
      (∃ document, Page.documentOf source = .ok document) ∧
        (audit.hasPage disk path → audit.HasSoundPage disk path) := by
  have hsource : (∃ checked, audit.checkSource path source = .ok checked) ↔
      ∃ document, Page.documentOf source = .ok document := exists_checkSource_iff hrules
  rw [← hsource, ← exists_checkPageOf_iff, scanText]
  cases audit.checkSource path source with
  | error failure => simp
  | ok checked =>
    by_cases hpage : audit.hasPage disk path = true
    · cases audit.checkPageOf disk path <;> simp [hpage]
    · simp [hpage]

theorem exists_scanFile_iff (hrules : audit.rules = Rule.standard) :
    (∃ report, audit.scanFile disk path = .ok report) ↔ audit.Scannable disk path := by
  rw [scanFile, resolved]
  by_cases hpossible : path.isPossible
  · rw [if_pos hpossible, ok_bind]
    cases htext : disk.text? (disk.resolve path) with
    | none =>
      refine iff_of_true ⟨_, rfl⟩ ⟨hpossible, fun source hsource => ?_, fun _ hsome => ?_⟩
      · rw [htext] at hsource
        cases hsource
      · rw [htext] at hsome
        cases hsome
    | some source =>
      refine (exists_scanText_iff hrules).trans ?_
      constructor
      · rintro ⟨hdocument, hpage⟩
        refine ⟨hpossible, fun source' hsource => ?_, fun hhas _ => hpage hhas⟩
        obtain rfl := Option.some.inj (htext.symm.trans hsource)
        exact hdocument
      · intro h
        exact ⟨h.document source htext, fun hhas => h.page hhas (by rw [htext]; rfl)⟩
  · rw [if_neg hpossible, error_bind]
    refine iff_of_false ?_ fun h => hpossible h.possible
    rintro ⟨report, hfailed⟩
    cases hfailed

theorem exists_scanFilesAfter_iff (hrules : audit.rules = Rule.standard) (hhere : disk.HereClean)
    (left : Cache) {paths : List Path} (hclean : ∀ path ∈ paths, path.Clean) :
    (∃ run, audit.scanFilesAfter disk left paths = .ok run) ↔
      ∀ path ∈ paths, audit.Scannable disk path := by
  simp only [← exists_scanFile_iff hrules]
  constructor
  · rintro ⟨run, hrun⟩ path hpath
    -- what earlier runs have left is forgotten
    have hfirst : audit.scanFiles disk paths = .ok run := hrun
    obtain ⟨reports, hreports, -⟩ := exists_reports_of_scanFiles hhere hclean hfirst
    exact exists_of_mapM_eq_ok hreports hpath
  · intro hscans
    obtain ⟨reports, hreports⟩ := exists_mapM_eq_ok hscans
    obtain ⟨run, hrun, -⟩ := scanFilesAfter_eq_ok hhere left hclean hreports
    exact ⟨run, hrun⟩

/-! ## Harmless templates -/

theorem hasSoundPage_of_harmless (h : ∀ file source, (audit.views disk).PartOf entry file →
    disk.text? file = some source → Harmless source) : audit.HasSoundPage disk entry := by
  obtain ⟨page, hpage⟩ := Page.Views.exists_compose fun file source hpart hsource =>
    (h file source hpart hsource).names
  refine ⟨page, mapError_eq_ok.2 hpage, fun file hfile source hsource => ?_⟩
  exact (h file source (Page.Views.partOf_of_mem_compose hpage file hfile) hsource).exists_documentOf

theorem scannable_of_harmless (hpossible : path.isPossible) (h : ∀ file source,
    audit.ReadFor disk path file → disk.text? file = some source → Harmless source) :
    audit.Scannable disk path where
  possible := hpossible
  document := fun source hsource => (h _ source (.inl rfl) hsource).exists_documentOf
  page := fun hpage _ => hasSoundPage_of_harmless fun file source hpart hsource =>
    h file source (.inr ⟨hpage, hpart⟩) hsource

/-- A view that refers to a partial by a name that cannot be looked for. -/
def starsDisk : Disk :=
  ⟨[], [(["v"], .directory ⟨0, 0⟩),
    (["v", "index.html.erb"], .file (Text.toBytes "<main></main><%= render \"a**b\" %>") ⟨1, 0⟩)]⟩

def starsView : Path :=
  ⟨1, ["v", "index.html.erb"]⟩

theorem compose_starsView : sharedAudit.compose starsDisk starsView =
    .error (.partialName ⟨"_a**b"⟩) := by
  cbv

end Audit

end TemplateAudit
