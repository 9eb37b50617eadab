import Mathlib
import TemplateAudit.Proofs.Decimal.Finite
import TemplateAudit.Proofs.Page.Files
import TemplateAudit.Proofs.Scan.Interleaved
import TemplateAudit.Proofs.Scan.Memory

/-!
# Watching reports every change once

Watching scans what has changed, lets the disk change, and scans again.  The rounds of it are listed by
`rounds`, and each of them lists the templates that are there with a time other than the recorded one and
then records the times that it has listed (`Scanned`).  So a template that was listed is not listed again
before it is edited (`UpToDate.not_listed`), and watching reports every change once
(`watch_reports_once`).
-/

namespace TemplateAudit

open Disk Outcome Scan

namespace Scan

/-- One round of watching: the disk before its scan, what the scan came to, and the disk when the next
round starts. -/
structure Round where
  before : Disk
  change : Change
  after : Disk

namespace Round

/-- Did the scan find that something has changed? -/
def reports (round : Round) : Bool :=
  !round.change.changed.isEmpty

/-- Is what a path leads to left alone from the end of the scan until the next round? -/
def LeavesAlone (round : Round) (path : Text) : Prop :=
  Record.timeOn? round.after path = Record.timeOn? round.change.disk path

end Round

/-- The disk changes in any way that does not touch the file of the record. -/
structure Edits (path : Path) (disk disk' : Disk) : Prop where
  proper : disk'.Proper
  here : disk'.here = disk.here
  record : disk'.content? path = disk.content? path

namespace Edits

variable {path : Path} {disk disk' disk'' : Disk}

theorem refl (hproper : disk.Proper) : Edits path disk disk :=
  ⟨hproper, rfl, rfl⟩

theorem trans (h : Edits path disk disk') (h' : Edits path disk' disk'') : Edits path disk disk'' :=
  ⟨h'.proper, h'.here.trans h.here, h'.record.trans h.record⟩

/-- A file is made or written anew, or its time is set. -/
theorem write (hproper : disk.Proper) (hclean : path.Clean) {place : Place}
    (hplace : disk.TakesFile place) (hne : place ≠ (disk.resolve path).parts) (content : ByteArray)
    (time : Time) : Edits path disk (disk.put place (.file content time)) :=
  ⟨hproper.put_file hplace content time, rfl, content?_put hproper hclean hplace hne content time⟩

/-- A file is deleted. -/
theorem delete (hproper : disk.Proper) (hclean : path.Clean) {place : Place} {content : ByteArray}
    {time : Time} (hfile : disk.at? place = some (.file content time))
    (hne : place ≠ (disk.resolve path).parts) : Edits path disk (disk.remove place) :=
  ⟨hproper.remove place, rfl, content?_remove_file hproper hclean hfile hne⟩

end Edits

end Scan

namespace Audit

variable {audit : Audit} {disk : Disk} {change : Change}

/-! ## The rounds -/

/-- More rounds of watching, up to a scan that fails. -/
def roundsFrom (audit : Audit) (between : Cycle → Disk → Disk) (number reports : Nat) :
    Nat → Disk → List Round
  | 0, _ => []
  | cycles + 1, disk =>
    match audit.scanChanged disk none with
    | .error _ => []
    | .ok change =>
      let reported := !change.changed.isEmpty
      let reports := if reported then reports + 1 else reports
      let after := between ⟨number + 1, reports, reported⟩ change.disk
      ⟨disk, change, after⟩ :: audit.roundsFrom between (number + 1) reports cycles after

/-- The rounds of watching. -/
def rounds (audit : Audit) (between : Cycle → Disk → Disk) (cycles : Nat) (disk : Disk) : List Round :=
  audit.roundsFrom between 0 0 cycles disk

section Rounds

variable {between : Cycle → Disk → Disk} {number reports cycles : Nat}

theorem roundsFrom_succ (between : Cycle → Disk → Disk) (number reports cycles : Nat)
    (h : audit.scanChanged disk none = .ok change) :
    ∃ reports' after, audit.roundsFrom between number reports (cycles + 1) disk =
        ⟨disk, change, after⟩ :: audit.roundsFrom between (number + 1) reports' cycles after ∧
      (audit.watchFrom between number reports (cycles + 1) disk).failure =
        (audit.watchFrom between (number + 1) reports' cycles after).failure ∧
      (audit.watchFrom between number reports (cycles + 1) disk).changes =
        if !change.changed.isEmpty then
          change :: (audit.watchFrom between (number + 1) reports' cycles after).changes
        else (audit.watchFrom between (number + 1) reports' cycles after).changes := by
  simp only [roundsFrom, watchFrom, h]
  exact ⟨_, _, rfl, rfl, rfl⟩

/-- What is reported are the rounds that found a change. -/
theorem changes_watchFrom (cycles : Nat) :
    (audit.watchFrom between number reports cycles disk).changes =
      ((audit.roundsFrom between number reports cycles disk).filter Round.reports).map
        Round.change := by
  induction cycles generalizing number reports disk with
  | zero => rfl
  | succ cycles ih =>
    cases hscan : audit.scanChanged disk none with
    | error failure => rw [watchFrom, roundsFrom, hscan]; rfl
    | ok change =>
      obtain ⟨reports', after, hrounds, -, hchanges⟩ :=
        roundsFrom_succ between number reports cycles hscan
      rw [hrounds, hchanges, List.filter_cons, Round.reports, ih]
      split <;> rfl

/-- Every cycle has its round unless a scan fails. -/
theorem length_roundsFrom (h : (audit.watchFrom between number reports cycles disk).failure = none) :
    (audit.roundsFrom between number reports cycles disk).length = cycles := by
  induction cycles generalizing number reports disk with
  | zero => rfl
  | succ cycles ih =>
    cases hscan : audit.scanChanged disk none with
    | error failure =>
      rw [watchFrom, hscan] at h
      cases h
    | ok change =>
      obtain ⟨reports', after, hrounds, hfailure, -⟩ :=
        roundsFrom_succ between number reports cycles hscan
      rw [hfailure] at h
      rw [hrounds, List.length_cons, ih h]

/-- Every round is a scan of the disk that the round before it has left. -/
theorem linked_roundsFrom (cycles : Nat) :
    (∀ round ∈ (audit.roundsFrom between number reports cycles disk).head?, round.before = disk) ∧
      (audit.roundsFrom between number reports cycles disk).IsChain
        (fun round next => next.before = round.after) ∧
      ∀ round ∈ audit.roundsFrom between number reports cycles disk,
        audit.scanChanged round.before none = .ok round.change := by
  induction cycles generalizing number reports disk with
  | zero => exact ⟨nofun, .nil, nofun⟩
  | succ cycles ih =>
    cases hscan : audit.scanChanged disk none with
    | error failure =>
      rw [roundsFrom, hscan]
      exact ⟨nofun, .nil, nofun⟩
    | ok change =>
      obtain ⟨reports', after, hrounds, -⟩ := roundsFrom_succ between number reports cycles hscan
      obtain ⟨hhead, hchain, hscans⟩ := @ih after (number + 1) reports'
      rw [hrounds]
      refine ⟨fun round hround => ?_, List.isChain_cons.2 ⟨hhead, hchain⟩, ?_⟩
      · obtain rfl := Option.some.inj hround
        rfl
      · exact List.forall_mem_cons.2 ⟨hscan, hscans⟩

end Rounds

/-! ## One scan -/

/-- What a scan of changes does when its record can be saved. -/
structure Scanned (audit : Audit) (disk : Disk) (change : Change) : Prop where
  /-- It lists the templates that are there with a time other than the recorded one. -/
  lists : change.changed = ((audit.views disk).templates.map Path.toText).filter
    ((Record.memoryOn disk audit.state).isChanged disk)
  /-- They are listed in the order of their paths. -/
  ordered : change.changed.Pairwise fun a b => Text.atMost a b
  /-- It records the times of what it has listed, and forgets what is gone. -/
  records : Record.memoryOn change.disk audit.state =
    if change.changed.isEmpty then Record.memoryOn disk audit.state
    else (Record.memoryOn disk audit.state).update disk change.changed
  proper : change.disk.Proper
  here : change.disk.here = disk.here
  /-- It leaves everything alone but the file of the record. -/
  kept : ∀ {place entry}, place ≠ (disk.resolve audit.state).parts → disk.at? place = some entry →
    change.disk.at? place = some entry

/-- The record of a scan is saved if it has anything to record. -/
def RecordSaved (audit : Audit) (disk : Disk) (change : Change) : Prop :=
  change.changed ≠ [] → ∀ record, Record.recorded disk audit.state change.changed = .ok record →
    (Record.save disk audit.state (Record.fields record)).2 = true

instance (audit : Audit) (disk : Disk) (change : Change) : Decidable (audit.RecordSaved disk change) :=
  decidable_of_iff (change.changed ≠ [] →
      (Record.recorded disk audit.state change.changed).toOption.all fun record =>
        (Record.save disk audit.state (Record.fields record)).2) <| by
    rw [RecordSaved]
    cases Record.recorded disk audit.state change.changed with
    | error failure => simp [Except.toOption]
    | ok record => simp [Except.toOption]

/-- A scan of changes lists what has changed since the record was made, and records it. -/
theorem update_of_scanChanged (h : audit.scanChanged disk none = .ok change) :
    ∃ record, Record.load disk audit.state = .ok record ∧
      change.changed = ((audit.views disk).templates.map Path.toText).filter
        (Record.isChanged disk record) ∧
      if change.changed.isEmpty then change.disk = disk
      else Record.update disk audit.state change.changed = .ok change.disk := by
  have hscan := h
  obtain ⟨candidates, hcandidates, h⟩ := bind_eq_ok.1 h
  obtain ⟨changed, hchanged, -⟩ := bind_eq_ok.1 h
  rw [mapError_eq_ok] at hchanged
  rw [scanChanged_of_ok hcandidates hchanged] at hscan
  obtain rfl := Except.ok.inj hcandidates
  obtain ⟨record, hload, hlist⟩ := bind_eq_ok.1 hchanged
  have hfilter := Record.changedIn_eq_ok hlist
  refine ⟨record, hload, ?_⟩
  split at hscan
  · rename_i hempty
    obtain rfl := Except.ok.inj hscan
    obtain rfl := List.isEmpty_iff.1 hempty
    exact ⟨hfilter, rfl⟩
  · rename_i hsome
    obtain ⟨affected, -, hscan⟩ := bind_eq_ok.1 hscan
    obtain ⟨run, -, hscan⟩ := bind_eq_ok.1 hscan
    obtain ⟨updated, hupdate, hscan⟩ := bind_eq_ok.1 hscan
    obtain rfl := Except.ok.inj hscan
    exact ⟨hfilter, by rw [if_neg hsome]; exact mapError_eq_ok.1 hupdate⟩

theorem scanned_of_scanChanged (hclean : audit.state.Clean) (hproper : disk.Proper)
    (hscan : audit.scanChanged disk none = .ok change) (hsaved : audit.RecordSaved disk change) :
    audit.Scanned disk change := by
  obtain ⟨record, hload, hlists, hupdate⟩ := update_of_scanChanged hscan
  have hholds := Record.holds_memoryOn hproper hload
  obtain ⟨same, hsame, hget⟩ := hholds.loads
  obtain rfl := Except.ok.inj (hsame.symm.trans hload)
  rw [Record.isChanged_eq hget] at hlists
  have hordered : change.changed.Pairwise fun a b => Text.atMost a b := by
    rw [hlists]
    exact (List.pairwise_map.2 (audit.views disk).pairwise_templates).filter _
  split at hupdate
  · rename_i hempty
    refine ⟨hlists, hordered, ?_, hupdate ▸ hproper, by rw [hupdate], ?_⟩
    · rw [hupdate, if_pos hempty]
    · exact fun _ hentry => hupdate ▸ hentry
  · rename_i hsome
    rw [Record.update_eq] at hupdate
    obtain ⟨new, hrecorded, hdisk⟩ := map_eq_ok.1 hupdate
    have hsave := hsaved (fun hnil => hsome (List.isEmpty_iff.2 hnil)) new hrecorded
    have hsaves := Record.saves_save hproper hclean (Record.canSave_of_recorded hrecorded)
      (Record.fields new)
    refine ⟨hlists, hordered, ?_, hdisk ▸ hsaves.proper, hdisk ▸ hsaves.here, ?_⟩
    · rw [if_neg hsome, ← hdisk]
      exact (hholds.update hclean hrecorded hsave).memoryOn_eq
    · exact fun hne hentry => hdisk ▸ hsaves.kept hne hentry

/-! ## One round -/

/-- A round as it should be: the record of its scan is saved, the file of the record is no template, all
times are such as disks hold, and nobody touches the file of the record afterwards. -/
structure Orderly (audit : Audit) (round : Round) : Prop where
  saved : audit.RecordSaved round.before round.change
  elsewhere : round.before.resolve audit.state ∉ (audit.views round.before).templates
  timed : ∀ entry ∈ round.before.entries, entry.2.modified.IsHeld
  edits : Edits audit.state round.change.disk round.after

instance (audit : Audit) (round : Round) : Decidable (audit.Orderly round) :=
  decidable_of_iff (audit.RecordSaved round.before round.change ∧
      round.before.resolve audit.state ∉ (audit.views round.before).templates ∧
      (∀ entry ∈ round.before.entries, entry.2.modified.IsHeld) ∧
      round.after.Proper ∧ round.after.here = round.change.disk.here ∧
      round.after.content? audit.state = round.change.disk.content? audit.state)
    ⟨fun ⟨hsaved, helsewhere, htimed, hedits⟩ =>
        ⟨hsaved, helsewhere, htimed, hedits.1, hedits.2.1, hedits.2.2⟩,
      fun h => ⟨h.saved, h.elsewhere, h.timed, h.edits.proper, h.edits.here, h.edits.record⟩⟩

/-- The file at a place has its time in the record, and is not the file of the record. -/
structure UpToDate (audit : Audit) (disk : Disk) (place : Place) : Prop where
  proper : disk.Proper
  named : Named place
  elsewhere : place ≠ (disk.resolve audit.state).parts
  recorded : ∃ time : Decimal.Double, time.isFinite ∧
    Record.timeOn? disk (Path.mk 1 place).toText = some time ∧
      Record.memoryOn disk audit.state (Path.mk 1 place).toText = some time

theorem timeOn?_place (hproper : disk.Proper) {place : Place} (hplace : Named place) :
    Record.timeOn? disk (Path.mk 1 place).toText =
      (disk.at? place).map fun entry => entry.modified.toDouble := by
  rw [Record.timeOn?, hproper.findText?_place hplace]

variable {round : Round} {place : Place}

/-- A scan leaves the time of a file alone that is not the file of the record. -/
theorem Scanned.timeOn? (h : audit.Scanned disk change) (hproper : disk.Proper) (hplace : Named place)
    (hne : place ≠ (disk.resolve audit.state).parts) {time : Decimal.Double}
    (htime : Record.timeOn? disk (Path.mk 1 place).toText = some time) :
    Record.timeOn? change.disk (Path.mk 1 place).toText = some time := by
  rw [timeOn?_place hproper hplace] at htime
  obtain ⟨entry, hentry, hmodified⟩ := Option.map_eq_some_iff.1 htime
  rw [timeOn?_place h.proper hplace, h.kept hne hentry, Option.map_some, hmodified]

/-- A file that is up to date is not listed. -/
theorem UpToDate.not_listed (h : audit.UpToDate disk place) (hscanned : audit.Scanned disk change) :
    (Path.mk 1 place).toText ∉ change.changed := by
  obtain ⟨time, hfinite, htime, hmemory⟩ := h.recorded
  rw [hscanned.lists, List.mem_filter, Record.Memory.isChanged, htime, hmemory]
  rintro ⟨-, hchanged⟩
  simp [Decimal.Double.equals_self hfinite] at hchanged

/-- When the round ends, the file has the time that it had in the scan, and the record is as the scan has
left it. -/
theorem UpToDate.of_round (hround : audit.Orderly round) (hscanned : audit.Scanned round.before round.change)
    (halone : round.LeavesAlone (Path.mk 1 place).toText) (hproper : round.before.Proper)
    (hplace : Named place) (hne : place ≠ (round.before.resolve audit.state).parts)
    {time : Decimal.Double} (hfinite : time.isFinite)
    (htime : Record.timeOn? round.before (Path.mk 1 place).toText = some time)
    (hmemory : Record.memoryOn round.change.disk audit.state (Path.mk 1 place).toText = some time) :
    audit.UpToDate round.after place := by
  refine ⟨hround.edits.proper, hplace, ?_, time, hfinite, ?_, ?_⟩
  · rwa [resolve, hround.edits.here, hscanned.here, ← resolve]
  · rw [halone]
    exact hscanned.timeOn? hproper hplace hne htime
  · rwa [Record.memoryOn_congr hround.edits.record]

/-- A file that is up to date that is left alone stays so. -/
theorem UpToDate.stays (h : audit.UpToDate round.before place) (hround : audit.Orderly round)
    (hscanned : audit.Scanned round.before round.change)
    (halone : round.LeavesAlone (Path.mk 1 place).toText) : audit.UpToDate round.after place := by
  obtain ⟨time, hfinite, htime, hmemory⟩ := h.recorded
  refine .of_round hround hscanned halone h.proper h.named h.elsewhere hfinite htime ?_
  rw [hscanned.records]
  split
  · exact hmemory
  · rw [Record.Memory.update, htime, if_pos (by rfl), if_neg (h.not_listed hscanned), hmemory]

/-- A file that was listed and then left alone is up to date. -/
theorem upToDate_of_listed (hround : audit.Orderly round)
    (hscanned : audit.Scanned round.before round.change) (hproper : round.before.Proper) {path : Text}
    (hlisted : path ∈ round.change.changed) (halone : round.LeavesAlone path) :
    ∃ place, path = (Path.mk 1 place).toText ∧ audit.UpToDate round.after place := by
  have hmem := hlisted
  rw [hscanned.lists] at hmem
  obtain ⟨template, htemplate, rfl⟩ := List.mem_map.1 (List.mem_filter.1 hmem).1
  obtain ⟨place, rfl, hroot, hnamed, entry, hentry⟩ :=
    Page.Views.exists_place_of_mem_templates hproper htemplate
  have hne : place ≠ (round.before.resolve audit.state).parts := by
    rintro rfl
    exact hround.elsewhere htemplate
  have hentry : round.before.at? place = some entry := hentry
  have htime : Record.timeOn? round.before (Path.mk 1 place).toText =
      some entry.modified.toDouble := by
    rw [timeOn?_place hproper hnamed, hentry]
    rfl
  have hfinite : entry.modified.toDouble.isFinite := by
    rw [at?_of_ne_nil hroot] at hentry
    exact (hround.timed (place, entry) (Pairs.mem_of_get? hentry)).isFinite_toDouble
  refine ⟨place, rfl, .of_round hround hscanned halone hproper hnamed hne hfinite htime ?_⟩
  rw [hscanned.records, if_neg (fun hempty => List.ne_nil_of_mem hlisted (List.isEmpty_iff.1 hempty)),
    Record.Memory.update, htime, if_pos (by rfl), if_pos hlisted]

/-! ## All rounds -/

/-- The scan of every round does what it should. -/
theorem scanned_rounds (hclean : audit.state.Clean) {rounds : List Round}
    (hproper : ∀ round ∈ rounds.head?, round.before.Proper)
    (hchain : rounds.IsChain fun round next => next.before = round.after)
    (hscans : ∀ round ∈ rounds, audit.scanChanged round.before none = .ok round.change)
    (horderly : ∀ round ∈ rounds, audit.Orderly round) :
    ∀ round ∈ rounds, round.before.Proper ∧ audit.Scanned round.before round.change := by
  induction rounds with
  | nil => exact nofun
  | cons round rounds ih =>
    obtain ⟨hscan, hscans⟩ := List.forall_mem_cons.1 hscans
    obtain ⟨hround, horderly⟩ := List.forall_mem_cons.1 horderly
    obtain ⟨hnext, hchain⟩ := List.isChain_cons.1 hchain
    have hfirst := hproper round rfl
    refine List.forall_mem_cons.2
      ⟨⟨hfirst, scanned_of_scanChanged hclean hfirst hscan hround.saved⟩, ih ?_ hchain hscans horderly⟩
    intro next hmem
    rw [hnext next hmem]
    exact hround.edits.proper

/-- A file that is up to date when a round ends is not listed before somebody edits it. -/
theorem not_listed_of_upToDate {middle back : List Round} {later : Round}
    (hchain : (round :: (middle ++ later :: back)).IsChain fun round next => next.before = round.after)
    (horderly : ∀ round ∈ middle, audit.Orderly round)
    (hscanned : ∀ round ∈ middle ++ later :: back, audit.Scanned round.before round.change)
    (hcurrent : audit.UpToDate round.after place)
    (halone : ∀ round ∈ middle, round.LeavesAlone (Path.mk 1 place).toText) :
    (Path.mk 1 place).toText ∉ later.change.changed := by
  induction middle generalizing round with
  | nil =>
    obtain ⟨hnext, -⟩ := List.isChain_cons.1 hchain
    rw [← hnext later rfl] at hcurrent
    exact hcurrent.not_listed (hscanned later List.mem_cons_self)
  | cons next middle ih =>
    obtain ⟨hnext, hchain⟩ := List.isChain_cons.1 hchain
    obtain ⟨hround, horderly⟩ := List.forall_mem_cons.1 horderly
    obtain ⟨hleft, halone⟩ := List.forall_mem_cons.1 halone
    obtain ⟨hscan, hscanned⟩ := List.forall_mem_cons.1 hscanned
    rw [← hnext next rfl] at hcurrent
    exact ih hchain horderly hscanned (hcurrent.stays hround hscan hleft) halone

/-- **Watching reports every change once.**  When no scan fails and every round is as it should be, there is
one scan for each cycle.  Those that find a change are reported, each with the templates that are there with
a time other than the recorded one, in order; these times are then recorded.  A template that was listed is
not listed again before somebody edits it. -/
theorem watch_reports_once {between : Cycle → Disk → Disk} {cycles : Nat} (hclean : audit.state.Clean)
    (hproper : disk.Proper) (hdone : (audit.watch between cycles disk).failure = none)
    (horderly : ∀ round ∈ audit.rounds between cycles disk, audit.Orderly round) :
    (audit.rounds between cycles disk).length = cycles ∧
      (∀ round ∈ audit.rounds between cycles disk,
        audit.scanChanged round.before none = .ok round.change ∧
          audit.Scanned round.before round.change) ∧
      (audit.watch between cycles disk).changes =
        ((audit.rounds between cycles disk).filter Round.reports).map Round.change ∧
      ∀ front earlier middle later back path,
        audit.rounds between cycles disk = front ++ earlier :: (middle ++ later :: back) →
        path ∈ earlier.change.changed →
        (∀ round ∈ earlier :: middle, round.LeavesAlone path) → path ∉ later.change.changed := by
  obtain ⟨hhead, hchain, hscans⟩ := @linked_roundsFrom audit disk between 0 0 cycles
  have hscanned := scanned_rounds hclean (fun round hround => hhead round hround ▸ hproper) hchain hscans
    horderly
  refine ⟨length_roundsFrom hdone, fun round hround => ⟨hscans round hround, (hscanned round hround).2⟩,
    changes_watchFrom cycles, ?_⟩
  intro front earlier middle later back path hrounds hlisted halone
  have hmem : ∀ round ∈ earlier :: (middle ++ later :: back),
      round ∈ audit.rounds between cycles disk := fun round hround =>
    hrounds ▸ List.mem_append_right front hround
  obtain ⟨hleft, halone⟩ := List.forall_mem_cons.1 halone
  have hearlier := hmem earlier List.mem_cons_self
  obtain ⟨place, rfl, hcurrent⟩ := upToDate_of_listed (horderly earlier hearlier)
    (hscanned earlier hearlier).2 (hscanned earlier hearlier).1 hlisted hleft
  rw [← rounds, hrounds] at hchain
  refine not_listed_of_upToDate (List.isChain_append.1 hchain).2.1 ?_ ?_ hcurrent halone
  · exact fun round hround => horderly round (hmem round (List.mem_cons_of_mem _
      (List.mem_append_left _ hround)))
  · exact fun round hround => (hscanned round (hmem round (List.mem_cons_of_mem _ hround))).2

/-! ### A template that is edited once -/

/-- The template is edited after the first cycle. -/
def plainBetween (cycle : Cycle) (disk : Disk) : Disk :=
  if cycle.number = 1 then disk.put plainPlace (.file (Text.toBytes "<p>new</p>") ⟨2, 0⟩) else disk

/-- The template is reported twice: in the first cycle, and in the second one since it was edited. -/
theorem watch_reports_once_plain :
    (plainAudit.rounds plainBetween 3 plainDisk).length = 3 ∧
    (plainAudit.watch plainBetween 3 plainDisk).changes.map Change.changed =
      [[plainText], [plainText]] := by
  have hclean : plainAudit.state.Clean := Named.isPart (by decide)
  have hfailure : (plainAudit.watch plainBetween 3 plainDisk).failure.isNone := by decide +kernel
  obtain ⟨hlength, -, hchanges, -⟩ := watch_reports_once hclean (by decide +kernel)
    (Option.isNone_iff_eq_none.1 hfailure)
    (by decide +kernel : ∀ round ∈ plainAudit.rounds plainBetween 3 plainDisk,
      plainAudit.Orderly round)
  refine ⟨hlength, ?_⟩
  rw [hchanges]
  decide +kernel

end Audit

end TemplateAudit
