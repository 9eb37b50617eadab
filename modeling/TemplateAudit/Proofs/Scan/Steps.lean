import TemplateAudit.Proofs.Scan.Saving
import TemplateAudit.Scan.Audit

/-!
# A scan of changes, step by step

A scan of changes lists the candidates that have changed, gathers the pages that they are part of, reads
and scans the listed files one after the other, and records the times of the changed ones.  `advance` takes
one of these steps, so that something else can happen to the disk between them.  Where nothing does, the
steps come to what the scan comes to (`scanChanged_eq_of_advances`).
-/

namespace TemplateAudit

open Outcome Scan

namespace Scan

/-- How far a scan of changes is. -/
inductive Stage where
  | start
  /-- The changed candidates are known. -/
  | listed (candidates changed : List Text)
  /-- Some files wait to be read; the others have given a report. -/
  | reading (candidates changed waiting : List Text) (cache : Cache) (report : Report)
  | done (candidates changed : List Text) (report : Report)

namespace Stage

/-- The candidates that had changed, once they are listed. -/
def changed : Stage → List Text
  | start => []
  | listed _ changed => changed
  | reading _ changed _ _ _ => changed
  | done _ changed _ => changed

/-- The candidates, once they are known. -/
def candidates : Stage → List Text
  | start => []
  | listed candidates _ => candidates
  | reading candidates _ _ _ _ => candidates
  | done candidates _ _ => candidates

/-- Is the scan over? -/
def isDone : Stage → Bool
  | done _ _ _ => true
  | _ => false

end Stage

/-- What happens while a scan of changes goes on. -/
inductive Event where
  /-- The candidates were compared with the record. -/
  | listed
  /-- The pages that changed files are part of were looked up. -/
  | gathered
  /-- A listed file was read. -/
  | read (path : Text)
  /-- The times of the changed files were recorded, if the record could be saved. -/
  | recorded (saved : Bool)
  /-- Somebody else wrote a file. -/
  | wrote (path : Text)
  deriving DecidableEq

end Scan

namespace Audit

variable {audit : Audit} {paths : Option (List Path)}

/-- The paths of an audit that is made for a root have parts that say something. -/
theorem clean_of_ofRoot {disk : Disk} {root : Path} {config : RuleConfig} {settings : Settings}
    (hhere : disk.HereClean) (hroot : root.Clean)
    (h : ofRoot disk root config settings = .ok audit) : audit.root.Clean ∧ audit.state.Clean := by
  obtain ⟨place, hplace, h⟩ := bind_eq_ok.1 h
  have hclean : place.Clean := by
    rw [resolved] at hplace
    split at hplace
    · obtain rfl := Except.ok.inj hplace
      exact Disk.clean_resolve hhere hroot
    · cases hplace
  split at h
  · rename_i state hstate
    obtain rfl := Except.ok.inj h
    refine ⟨hclean, ?_⟩
    rw [Settings.statePath?] at hstate
    split at hstate
    · obtain rfl := Option.some.inj hstate
      exact Path.clean_ofText _
    · obtain rfl := Option.some.inj hstate
      exact hclean.parent.join (Path.clean_ofText _)
  · cases h

/-- What has been found after one more file of a run. -/
def followedBy (report next : Report) : Report :=
  ⟨report.findings ++ next.findings, next.failures.or report.failures⟩

/-- One listed file is read and scanned; one that cannot be read adds nothing. -/
def readNext (audit : Audit) (disk : Disk) (cache : Cache) (report : Report) (path : Text) :
    Except Failure (Cache × Report) := do
  let path ← resolved disk (Path.ofText path)
  match disk.text? path with
  | none => return (cache, report)
  | some source =>
    let (next, cache) ← audit.scanInRun disk cache path source
    return (cache, followedBy report next)

/-- The pages that changed files are part of, where pages are examined. -/
def affectedBy (audit : Audit) (disk : Disk) (changed : List Text) : Except Failure (List Text) :=
  if audit.settings.composePages then audit.pagesIncluding disk changed else .ok []

/-- The next step of a scan of changes, if there is one: what happens, the disk after it, and how far the
scan is then. -/
def advance (audit : Audit) (paths : Option (List Path)) (disk : Disk) :
    Stage → Except Failure (Option (Event × Disk × Stage))
  | .start => do
    let candidates ← audit.candidates disk paths
    let changed ← (Record.changed disk audit.state candidates).mapError .state
    if changed.isEmpty then return some (.listed, disk, .done candidates [] ⟨[], none⟩)
    return some (.listed, disk, .listed candidates changed)
  | .listed candidates changed => do
    let affected ← audit.affectedBy disk changed
    let waiting := changed ++ affected
    return some (.gathered, disk, .reading candidates changed waiting Cache.empty.reset ⟨[], none⟩)
  | .reading candidates changed (path :: waiting) cache report => do
    let (cache, report) ← audit.readNext disk cache report path
    return some (.read path, disk, .reading candidates changed waiting cache report)
  | .reading candidates changed [] _ report => do
    let record ← (Record.recorded disk audit.state changed).mapError Failure.state
    let saved := Record.save disk audit.state (Record.fields record)
    return some (.recorded saved.2, saved.1, .done candidates changed report)
  | .done _ _ _ => return none

variable {disk disk' : Disk} {stage stage' : Stage} {event : Event}

/-- What a step can do: compare the candidates with the record, look at the disk, or record times. -/
theorem advance_cases (h : audit.advance paths disk stage = .ok (some (event, disk', stage'))) :
    (stage = .start ∧ event = .listed ∧ disk' = disk ∧
        Record.changed disk audit.state stage'.candidates = .ok stage'.changed) ∨
      (stage ≠ .start ∧ stage.isDone = false ∧ disk' = disk ∧
        stage'.candidates = stage.candidates ∧ stage'.changed = stage.changed ∧
        (event = .gathered ∨ ∃ path, event = .read path)) ∨
      (stage ≠ .start ∧ stage.isDone = false ∧ stage'.isDone ∧
        stage'.candidates = stage.candidates ∧ stage'.changed = stage.changed ∧
        ∃ record, Record.recorded disk audit.state stage.changed = .ok record ∧
          event = .recorded (Record.save disk audit.state (Record.fields record)).2 ∧
          disk' = (Record.save disk audit.state (Record.fields record)).1) := by
  cases stage with
  | start =>
    obtain ⟨candidates, -, h⟩ := bind_eq_ok.1 h
    obtain ⟨changed, hchanged, h⟩ := bind_eq_ok.1 h
    rw [mapError_eq_ok] at hchanged
    split at h
    · rename_i hempty
      obtain ⟨rfl, rfl, rfl⟩ := by simpa using h
      exact .inl ⟨rfl, rfl, rfl, List.isEmpty_iff.1 hempty ▸ hchanged⟩
    · obtain ⟨rfl, rfl, rfl⟩ := by simpa using h
      exact .inl ⟨rfl, rfl, rfl, hchanged⟩
  | listed candidates changed =>
    rw [advance] at h
    obtain ⟨affected, -, h⟩ := bind_eq_ok.1 h
    obtain ⟨rfl, rfl, rfl⟩ := by simpa using h
    exact .inr (.inl ⟨nofun, rfl, rfl, rfl, rfl, .inl rfl⟩)
  | reading candidates changed waiting cache report =>
    cases waiting with
    | nil =>
      rw [advance] at h
      obtain ⟨record, hrecord, h⟩ := bind_eq_ok.1 h
      obtain ⟨rfl, rfl, rfl⟩ := by simpa using h
      exact .inr (.inr ⟨nofun, rfl, rfl, rfl, rfl, record, mapError_eq_ok.1 hrecord, rfl, rfl⟩)
    | cons path waiting =>
      rw [advance] at h
      obtain ⟨next, -, h⟩ := bind_eq_ok.1 h
      obtain ⟨rfl, rfl, rfl⟩ := by simpa using h
      exact .inr (.inl ⟨nofun, rfl, rfl, rfl, rfl, .inr ⟨path, rfl⟩⟩)
  | done candidates changed report => cases h

/-! ## The steps by themselves -/

/-- What is left of a scan of changes at a stage. -/
def finish (audit : Audit) (paths : Option (List Path)) (disk : Disk) : Stage → Except Failure Change
  | .start => audit.scanChanged disk paths
  | .listed _ changed => do
    let affected ← audit.affectedBy disk changed
    let run ← audit.scanFiles disk ((changed ++ affected).map Path.ofText)
    let updated ← (Record.update disk audit.state changed).mapError .state
    return ⟨changed, run.findings, run.failures, updated⟩
  | .reading _ changed waiting cache report => do
    let (rest, _) ← audit.runFrom disk cache (waiting.map Path.ofText)
    let updated ← (Record.update disk audit.state changed).mapError .state
    return ⟨changed, report.findings ++ rest.findings, rest.failures.or report.failures, updated⟩
  | .done _ changed report => return ⟨changed, report.findings, report.failures, disk⟩

theorem runFrom_cons (audit : Audit) (disk : Disk) (cache : Cache) (report : Report) (path : Text)
    (waiting : List Path) :
    (audit.runFrom disk cache (Path.ofText path :: waiting)).map (fun rest =>
        (followedBy report rest.1, rest.2)) = (do
      let (cache, report) ← audit.readNext disk cache report path
      (audit.runFrom disk cache waiting).map fun rest => (followedBy report rest.1, rest.2)) := by
  rw [runFrom, readNext]
  cases resolved disk (Path.ofText path) with
  | error failure => rfl
  | ok place =>
    rw [ok_bind, ok_bind]
    cases disk.text? place with
    | none => rfl
    | some source =>
      simp only
      cases audit.scanInRun disk cache place source with
      | error failure => rfl
      | ok found =>
        obtain ⟨next, cache⟩ := found
        simp only [ok_bind, pure_eq_ok]
        cases audit.runFrom disk cache waiting with
        | error failure => rfl
        | ok rest =>
          obtain ⟨rest, cache⟩ := rest
          simp [Except.map, followedBy, Option.or_assoc]

theorem finish_reading (candidates changed waiting : List Text) (cache : Cache) (report : Report) :
    audit.finish paths disk (.reading candidates changed waiting cache report) = (do
      let found ← (audit.runFrom disk cache (waiting.map Path.ofText)).map fun rest =>
        (followedBy report rest.1, rest.2)
      let updated ← (Record.update disk audit.state changed).mapError .state
      return ⟨changed, found.1.findings, found.1.failures, updated⟩) := by
  rw [finish]
  cases audit.runFrom disk cache (waiting.map Path.ofText) <;> rfl

theorem scanChanged_of_ok {candidates changed : List Text}
    (hcandidates : audit.candidates disk paths = .ok candidates)
    (hchanged : Record.changed disk audit.state candidates = .ok changed) :
    audit.scanChanged disk paths =
      if changed.isEmpty then .ok ⟨[], [], none, disk⟩
      else audit.finish paths disk (.listed candidates changed) := by
  simp only [scanChanged, hcandidates, hchanged, ok_bind, mapError_ok, finish, affectedBy]
  split
  · rfl
  · split <;> rfl

/-- A step leaves the rest of the scan to be done. -/
theorem finish_of_advance (h : audit.advance paths disk stage = .ok (some (event, disk', stage'))) :
    audit.finish paths disk' stage' = audit.finish paths disk stage := by
  cases stage with
  | start =>
    obtain ⟨candidates, hcandidates, h⟩ := bind_eq_ok.1 h
    obtain ⟨changed, hchanged, h⟩ := bind_eq_ok.1 h
    rw [finish, scanChanged_of_ok hcandidates (mapError_eq_ok.1 hchanged)]
    split at h
    · rename_i hempty
      obtain ⟨rfl, rfl, rfl⟩ := by simpa using h
      rw [if_pos hempty]
      rfl
    · rename_i hempty
      obtain ⟨rfl, rfl, rfl⟩ := by simpa using h
      rw [if_neg hempty]
  | listed candidates changed =>
    rw [advance] at h
    obtain ⟨affected, haffected, h⟩ := bind_eq_ok.1 h
    obtain ⟨rfl, rfl, rfl⟩ := by simpa using h
    rw [finish, finish, haffected, ok_bind, scanFiles, scanFilesAfter]
    cases audit.runFrom disk Cache.empty.reset ((changed ++ affected).map Path.ofText) with
    | error failure => rfl
    | ok run => simp
  | reading candidates changed waiting cache report =>
    cases waiting with
    | nil =>
      rw [advance] at h
      obtain ⟨record, hrecord, h⟩ := bind_eq_ok.1 h
      obtain ⟨rfl, rfl, rfl⟩ := by simpa using h
      have hupdate : Record.update disk audit.state changed =
          .ok (Record.save disk audit.state (Record.fields record)).1 := by
        rw [Record.update_eq, mapError_eq_ok.1 hrecord]
        rfl
      simp [finish, runFrom, hupdate]
    | cons path waiting =>
      rw [advance] at h
      obtain ⟨next, hnext, h⟩ := bind_eq_ok.1 h
      obtain ⟨rfl, rfl, rfl⟩ := by simpa using h
      have hrun := runFrom_cons audit disk cache report path (waiting.map Path.ofText)
      rw [hnext, ok_bind] at hrun
      rw [finish_reading, finish_reading, List.map_cons, hrun]
  | done candidates changed report => cases h

/-- A step that fails is where the scan fails. -/
theorem finish_of_advance_error {failure : Failure} (h : audit.advance paths disk stage = .error failure) :
    audit.finish paths disk stage = .error failure := by
  cases stage with
  | start =>
    rw [finish, scanChanged]
    rcases bind_eq_error.1 h with hcandidates | ⟨candidates, hcandidates, h⟩
    · rw [hcandidates, error_bind]
    · rcases bind_eq_error.1 h with hchanged | ⟨changed, -, h⟩
      · rw [hcandidates, ok_bind, hchanged, error_bind]
      · split at h <;> cases h
  | listed candidates changed =>
    rw [advance] at h
    rcases bind_eq_error.1 h with haffected | ⟨affected, -, h⟩
    · rw [finish, haffected, error_bind]
    · cases h
  | reading candidates changed waiting cache report =>
    cases waiting with
    | nil =>
      rw [advance] at h
      rcases bind_eq_error.1 h with hrecord | ⟨record, -, h⟩
      · have hupdate : (Record.update disk audit.state changed).mapError Failure.state =
            .error failure := by
          rw [Record.update_eq]
          cases hnew : Record.recorded disk audit.state changed with
          | error reason =>
            rw [hnew] at hrecord
            obtain rfl := Except.error.inj hrecord
            rfl
          | ok record =>
            rw [hnew] at hrecord
            cases hrecord
        simp [finish, runFrom, hupdate]
      · cases h
    | cons path waiting =>
      rw [advance] at h
      rcases bind_eq_error.1 h with hnext | ⟨next, -, h⟩
      · have hrun := runFrom_cons audit disk cache report path (waiting.map Path.ofText)
        rw [hnext, error_bind] at hrun
        rw [finish_reading, List.map_cons, hrun, error_bind]
      · cases h
  | done candidates changed report => cases h

end Audit

end TemplateAudit
