import TemplateAudit.Finding.Summary
import TemplateAudit.Page.Scan
import TemplateAudit.Rule.Examination
import TemplateAudit.Scan.Cache
import TemplateAudit.Scan.Record

/-!
# Scans

A scan examines templates: each file by the rules for single files, and each view that is rendered as
a page by the rules for whole pages.  A run over many files reports every finding once.  A scan of
what has changed goes by the record of the last scan, and takes in the pages that changed
partials and layouts are part of.
-/

namespace TemplateAudit

/-- What a scan goes by: the root of the templates as an absolute path, the configuration of the
rules, the settings, the file of the record, and the rules. -/
structure Audit where
  root : Path
  config : RuleConfig
  settings : Settings
  state : Path
  rules : Rule.Registry

namespace Scan

/-- Why a scan came to nothing. -/
inductive Failure where
  /-- The markup of a template is refused. -/
  | markup (reason : Html.Rejection)
  /-- A template refers to a partial by a name that cannot be looked for. -/
  | partialName (name : Page.BadName)
  /-- A path holds a character that no path can have. -/
  | impossiblePath
  /-- A finding cannot be counted. -/
  | occurrence (reason : Locate.Failure)
  /-- The record of the last scan cannot be used. -/
  | state (reason : Record.Failure)
  /-- There is no page, since it has no entry. -/
  | noEntry
  deriving DecidableEq, Repr

/-- What a scan found, and why rules failed on the document that was examined last, if there was
one. -/
structure Report where
  findings : List Finding
  failures : Option (List (Text × Text))
  deriving Repr

/-- A run over many files: what it found, what it has reported, and how far it was after each
file. -/
structure Run where
  findings : List Finding
  cache : Cache
  failures : Option (List (Text × Text))
  progress : List (Nat × Nat)
  deriving Repr

/-- A scan of what has changed: the files that have, what was found, and the disk with the new
record. -/
structure Change where
  changed : List Text
  findings : List Finding
  failures : Option (List (Text × Text))
  disk : Disk

end Scan

namespace Audit

open Scan

/-- A path from the root on. -/
def resolved (disk : Disk) (path : Path) : Except Failure Path :=
  if path.isPossible then .ok (disk.resolve path) else .error .impossiblePath

/-- The audit of the templates at a path on a disk, by the rules of this library. -/
def ofRoot (disk : Disk) (root : Path) (config : RuleConfig) (settings : Settings) :
    Except Failure Audit := do
  let root ← resolved disk root
  match settings.statePath? (some root) with
  | some state => return ⟨root, config, settings, state, Rule.standard⟩
  | none => throw .impossiblePath

/-- The tree of views on a disk. -/
def views (audit : Audit) (disk : Disk) : Page.Views :=
  ⟨disk, audit.root, audit.settings⟩

/-! ## Parts of a scan -/

/-- The findings without warnings, where these are left out. -/
def kept (audit : Audit) (findings : List Finding) : List Finding :=
  if audit.settings.ignoreWarnings then findings.filter Finding.isError else findings

/-- The rules left out for single files. -/
def excluded (audit : Audit) : List Text :=
  if audit.settings.composePages then Page.pageRules else []

/-- The findings of the rules for single files on a document. -/
def examineDocument (audit : Audit) (excluded : List Text) (path : Path) (source : Text)
    (document : Html.Document) : Except Failure Report :=
  let file := some path.toText
  let found := Rule.examineAll audit.rules audit.config excluded document
    ⟨file, none, audit.settings.textLimit⟩
  match Locate.locate source file found.findings with
  | .ok findings => .ok ⟨findings, some found.failures⟩
  | .error reason => .error (.occurrence reason)

/-- The findings on one template by itself. -/
def checkSource (audit : Audit) (path : Path) (source : Text) : Except Failure Report :=
  match Page.documentOf source with
  | .error reason => .error (.markup reason)
  | .ok document => audit.examineDocument audit.excluded path source document

/-- The page of an entry. -/
def compose (audit : Audit) (disk : Disk) (entry : Path) : Except Failure Page.Composition :=
  ((audit.views disk).compose entry).mapError .partialName

/-- The files of a page, read. -/
def members (page : Page.Composition) : Except Failure (List Page.Member) :=
  page.members.mapError .markup

/-- The findings about a page as a whole. -/
def checkPage (audit : Audit) (page : Page.Composition) : Except Failure (List Finding) := do
  let members ← members page
  if page.entry.isNone then throw .noEntry
  return Page.scan audit.config audit.settings.textLimit page members

/-- The findings about the page of an entry as a whole; an entry without a page has none. -/
def checkPageOf (audit : Audit) (disk : Disk) (entry : Path) : Except Failure (List Finding) := do
  let page ← audit.compose disk entry
  if page.files.isEmpty then return []
  audit.checkPage page

/-! ## Scans of one file and of one page -/

/-- Does a file have a page of its own that is examined? -/
def hasPage (audit : Audit) (disk : Disk) (path : Path) : Bool :=
  audit.settings.composePages && (audit.views disk).isEntry path

/-- The findings on a template with a given text; a view comes with its page. -/
def scanText (audit : Audit) (disk : Disk) (path : Path) (source : Text) : Except Failure Report := do
  let checked ← audit.checkSource path source
  let onPage ← if audit.hasPage disk path then audit.checkPageOf disk path else pure []
  return ⟨audit.kept (checked.findings ++ onPage), checked.failures⟩

/-- The findings on one template; one that cannot be read has none. -/
def scanFile (audit : Audit) (disk : Disk) (path : Path) : Except Failure Report := do
  let path ← resolved disk path
  match disk.text? path with
  | none => return ⟨[], none⟩
  | some source => audit.scanText disk path source

/-- The findings on the files of a page, each by itself. -/
def examineMembers (audit : Audit) : List Page.Member → Except Failure Report
  | [] => .ok ⟨[], none⟩
  | member :: members => do
    let first ← audit.examineDocument Page.pageRules member.path member.source member.document
    let rest ← audit.examineMembers members
    return ⟨first.findings ++ rest.findings, rest.failures.or first.failures⟩

/-- The findings on the page of an entry: those on each of its files, and those on the whole. -/
def scanPage (audit : Audit) (disk : Disk) (entry : Path) : Except Failure Report := do
  let page ← audit.compose disk entry
  if page.files.isEmpty then return ⟨[], none⟩
  let members ← members page
  let checked ← audit.examineMembers members
  let onPage := Page.scan audit.config audit.settings.textLimit page members
  return ⟨audit.kept (checked.findings ++ onPage), checked.failures⟩

/-! ## Runs -/

/-- One more readable file in a run: what it adds, and the cache after it. -/
def scanInRun (audit : Audit) (disk : Disk) (cache : Cache) (path : Path) (source : Text) :
    Except Failure (Report × Cache) := do
  let checked ← audit.checkSource path source
  let (fresh, cache) := cache.unseen (audit.kept checked.findings)
  let (isNew, cache) :=
    if audit.hasPage disk path then cache.markPage path.toText else (false, cache)
  if isNew then
    let (more, cache) := cache.unseen (audit.kept (← audit.checkPageOf disk path))
    return (⟨fresh ++ more, checked.failures⟩, cache)
  else return (⟨fresh, checked.failures⟩, cache)

/-- More files in a run. -/
def runFrom (audit : Audit) (disk : Disk) (cache : Cache) : List Path → Except Failure (Report × Cache)
  | [] => .ok (⟨[], none⟩, cache)
  | path :: paths => do
    let path ← resolved disk path
    match disk.text? path with
    | none => audit.runFrom disk cache paths
    | some source =>
      let (first, cache) ← audit.scanInRun disk cache path source
      let (rest, cache) ← audit.runFrom disk cache paths
      return (⟨first.findings ++ rest.findings, rest.failures.or first.failures⟩, cache)

/-- The run over some files, with the cache that earlier runs have left.  A file that cannot be read
adds nothing. -/
def scanFilesAfter (audit : Audit) (disk : Disk) (left : Cache) (paths : List Path) :
    Except Failure Run := do
  let (report, cache) ← audit.runFrom disk left.reset paths
  return ⟨report.findings, cache, report.failures,
    (List.range paths.length).map fun index => (index + 1, paths.length)⟩

/-- The first run over some files. -/
def scanFiles (audit : Audit) (disk : Disk) (paths : List Path) : Except Failure Run :=
  audit.scanFilesAfter disk .empty paths

/-! ## Changes -/

/-- The pages, not among some paths themselves, that partials or layouts among the paths are part
of. -/
def pagesIncluding (audit : Audit) (disk : Disk) (paths : List Text) : Except Failure (List Text) := do
  let views := audit.views disk
  let fragments := paths.filter fun path => !views.isEntry (Path.ofText path)
  if fragments.isEmpty then return []
  let entries := views.templates.filter fun path =>
    !paths.contains path.toText && views.isEntry path
  let pages ← entries.filterM fun path => do
    let page ← audit.compose disk path
    return page.files.any fun file => fragments.contains file.toText
  return pages.map Path.toText

/-- The paths of the candidates of a scan: those given, or all templates. -/
def candidates (audit : Audit) (disk : Disk) : Option (List Path) → Except Failure (List Text)
  | some paths => do return (← paths.mapM (resolved disk)).map Path.toText
  | none => .ok ((audit.views disk).templates.map Path.toText)

/-- The scan of the candidates that have changed since the last scan, and of the pages that they are
part of; their times are recorded. -/
def scanChanged (audit : Audit) (disk : Disk) (paths : Option (List Path)) :
    Except Failure Change := do
  let candidates ← audit.candidates disk paths
  let changed ← (Record.changed disk audit.state candidates).mapError .state
  if changed.isEmpty then return ⟨[], [], none, disk⟩
  let affected ← if audit.settings.composePages then audit.pagesIncluding disk changed else pure []
  let run ← audit.scanFiles disk ((changed ++ affected).map Path.ofText)
  let updated ← (Record.update disk audit.state changed).mapError .state
  return ⟨changed, run.findings, run.failures, updated⟩

/-! ## Watching -/

/-- Where watching stands after a cycle: how many cycles there were, how many of them reported
changes, and whether the last one did. -/
structure Cycle where
  number : Nat
  reports : Nat
  reported : Bool
  deriving DecidableEq, Repr

/-- What came of watching: the changes reported, the disk at the end, and what stopped it early. -/
structure Watch where
  changes : List Change
  disk : Disk
  failure : Option Failure

/-- More cycles of watching; `between` says what happens to the disk after a cycle. -/
def watchFrom (audit : Audit) (between : Cycle → Disk → Disk) (number reports : Nat) :
    Nat → Disk → Watch
  | 0, disk => ⟨[], disk, none⟩
  | cycles + 1, disk =>
    match audit.scanChanged disk none with
    | .error failure => ⟨[], disk, some failure⟩
    | .ok change =>
      let reported := !change.changed.isEmpty
      let reports := if reported then reports + 1 else reports
      let rest := audit.watchFrom between (number + 1) reports cycles
        (between ⟨number + 1, reports, reported⟩ change.disk)
      { rest with changes := if reported then change :: rest.changes else rest.changes }

/-- Scans of what has changed, one after the other, and a report for each that found a change. -/
def watch (audit : Audit) (between : Cycle → Disk → Disk) (cycles : Nat) (disk : Disk) : Watch :=
  audit.watchFrom between 0 0 cycles disk

end Audit

namespace Scan

/-! ## Summaries -/

/-- What findings come to. -/
structure Summary where
  total : Nat
  byRule : List (Text × Nat)
  rulesAffected : Nat
  errors : Nat
  warnings : Nat
  byFile : List (Text × Nat)
  rulesRun : List Text
  failedChecks : List (Text × Text)
  deriving DecidableEq, Repr

/-- Why rules failed, as far as it is known after a scan: on the document that the scan examined last.  A
scan that examined none leaves standing what was known before. -/
def failuresAfter (before : List (Text × Text)) (failures : Option (List (Text × Text))) :
    List (Text × Text) :=
  failures.getD before

/-- What some findings come to, where rules failed for some reasons. -/
def summarize (audit : Audit) (findings : List Finding) (failures : List (Text × Text)) : Summary where
  total := findings.length
  byRule := Finding.countByRule findings
  rulesAffected := (Finding.byRule findings).length
  errors := Finding.countOfSeverity .error findings
  warnings := Finding.countOfSeverity .warning findings
  byFile := Finding.countByFile findings
  rulesRun := audit.config.activeRules Rule.standard.defaults
  failedChecks := failures

end Scan

end TemplateAudit
