import TemplateAudit.Proofs.Scan.Steps

/-!
# Edits during a scan of changes

While a scan of changes goes on, an editor may write files between any two of its steps
(`Interleaved`).  The record takes the times that the changed files have when all of them have been read,
not those they had when they were read: a file that is written in between is recorded as scanned, and the
next scan passes it over.  `changed_iff_of_written` says that these edits and no others are lost, and
`changed_iff_of_written_between` is one that is.
-/

namespace TemplateAudit

open Disk Outcome Scan

namespace Audit

variable {audit : Audit} {paths : Option (List Path)} {first disk : Disk} {log : List Event}
  {stage : Stage} {place : Place} {time : Time}

/-! ## Runs with an editor -/

/-- An editor writes a file other than the record, and the file gets a time that the record does not hold
for it. -/
structure Writes (audit : Audit) (disk : Disk) (place : Place) (time : Time) : Prop where
  takesFile : disk.TakesFile place
  elsewhere : place ≠ (disk.resolve audit.state).parts
  isFinite : time.toDouble.isFinite
  fresh : ∀ record, Record.load disk audit.state = .ok record →
    Record.isStale record (Path.mk 1 place).toText time.toDouble

/-- What may have happened, the latest first, and where the disk and the scan stand then. -/
inductive Interleaved (audit : Audit) (paths : Option (List Path)) (first : Disk) :
    List Event → Disk → Stage → Prop
  | start : Interleaved audit paths first [] first .start
  | advance {log : List Event} {disk disk' : Disk} {stage stage' : Stage} {event : Event}
      (before : Interleaved audit paths first log disk stage)
      (step : audit.advance paths disk stage = .ok (some (event, disk', stage'))) :
      Interleaved audit paths first (event :: log) disk' stage'
  | write {log : List Event} {disk : Disk} {stage : Stage} {place : Place} {content : ByteArray}
      {time : Time} (before : Interleaved audit paths first log disk stage)
      (writes : audit.Writes disk place time) :
      Interleaved audit paths first (.wrote (Path.mk 1 place).toText :: log)
        (disk.put place (.file content time)) stage

/-- Where nothing is written, the steps come to what the scan comes to. -/
theorem Interleaved.finish_eq (h : audit.Interleaved paths first log disk stage)
    (hnone : ∀ path, .wrote path ∉ log) :
    audit.finish paths disk stage = audit.scanChanged first paths := by
  induction h with
  | start => rfl
  | advance _ step ih =>
    rw [finish_of_advance step]
    exact ih fun path hmem => hnone path (List.mem_cons_of_mem _ hmem)
  | write _ _ _ => exact absurd List.mem_cons_self (hnone _)

/-- A scan that nobody disturbs. -/
theorem Interleaved.scanChanged_eq {candidates changed : List Text} {report : Report}
    (h : audit.Interleaved paths first log disk (.done candidates changed report))
    (hnone : ∀ path, .wrote path ∉ log) :
    audit.scanChanged first paths = .ok ⟨changed, report.findings, report.failures, disk⟩ :=
  (h.finish_eq hnone).symm

/-! ## What is written when -/

/-- A file was written after the latest of some events, or without one. -/
def WrittenSince (event : Event) (path : Text) (log : List Event) : Prop :=
  .wrote path ∈ log.takeWhile (· != event)

/-- The time that a changed file has is the recorded one: the record was saved, and the file was not
written again. -/
def Settled (log : List Event) (changed : List Text) (path : Text) : Prop :=
  path ∈ changed ∧ .recorded true ∈ log ∧ ¬WrittenSince (.recorded true) path log

theorem settled_cons {event : Event} {changed : List Text} {path : Text}
    (hrecorded : ∀ saved, event ≠ .recorded saved) (hwrote : event ≠ .wrote path) :
    Settled (event :: log) changed path ↔ Settled log changed path := by
  have hsince : WrittenSince (.recorded true) path (event :: log) ↔
      WrittenSince (.recorded true) path log := by
    have hkeep : (event != .recorded true) = true := by simpa using hrecorded true
    rw [WrittenSince, WrittenSince, List.takeWhile_cons, if_pos hkeep, List.mem_cons]
    exact or_iff_right (Ne.symm hwrote)
  rw [Settled, Settled, hsince, List.mem_cons]
  refine and_congr_right fun _ => and_congr_left' (or_iff_right ?_)
  exact fun heq => hrecorded true heq.symm

/-- What was written last is not recorded yet. -/
theorem not_settled_wrote (log : List Event) (changed : List Text) (path : Text) :
    ¬Settled (.wrote path :: log) changed path := by
  rintro ⟨-, -, hnot⟩
  refine hnot ?_
  rw [WrittenSince, List.takeWhile_cons, if_pos (by simp)]
  exact List.mem_cons_self

/-- When the times are recorded, those of the changed files are, if the record is saved. -/
theorem settled_recorded {saved : Bool} {changed : List Text} {path : Text}
    (hnone : ∀ saved, .recorded saved ∉ log) :
    Settled (.recorded saved :: log) changed path ↔ saved = true ∧ path ∈ changed := by
  cases saved with
  | true =>
    have hnot : ¬WrittenSince (.recorded true) path (.recorded true :: log) := by
      rw [WrittenSince, List.takeWhile_cons, if_neg (by decide)]
      exact List.not_mem_nil
    simp [Settled, hnot]
  | false =>
    have hnot : Event.recorded true ∉ .recorded false :: log := by
      simpa using hnone true
    simp [Settled, hnot]

/-! ## What a run keeps true -/

/-- A written file is there, and its time is the one in the record just when it is settled. -/
def Tracked (audit : Audit) (log : List Event) (disk : Disk) (changed : List Text) (path : Text) :
    Prop :=
  ∃ place content time, path = (Path.mk 1 place).toText ∧ Named place ∧
    place ≠ (disk.resolve audit.state).parts ∧ disk.at? place = some (.file content time) ∧
    time.toDouble.isFinite ∧ ∀ record, Record.load disk audit.state = .ok record →
      (Record.isStale record path time.toDouble = true ↔ ¬Settled log changed path)

/-- A file stays tracked as long as the disk is left alone and the same files are settled. -/
theorem Tracked.congr {log' : List Event} {changed changed' : List Text} {path : Text}
    (h : audit.Tracked log disk changed path)
    (hsettled : Settled log' changed' path ↔ Settled log changed path) :
    audit.Tracked log' disk changed' path := by
  obtain ⟨place, content, time, hpath, hnamed, helse, hat, hfinite, hstale⟩ := h
  refine ⟨place, content, time, hpath, hnamed, helse, hat, hfinite, fun record hrecord => ?_⟩
  rw [hsettled]
  exact hstale record hrecord

/-- What holds at every moment of a run. -/
structure Tracks (audit : Audit) (log : List Event) (disk : Disk) (stage : Stage) : Prop where
  proper : disk.Proper
  /-- Once the candidates are listed they can be listed again. -/
  possible : ∀ path ∈ stage.candidates, path.contains '\x00' = false
  loads : stage = .start ∨ ∃ record, Record.load disk audit.state = .ok record
  unrecorded : stage.isDone = false → ∀ saved, .recorded saved ∉ log
  written : ∀ path, .wrote path ∈ log → audit.Tracked log disk stage.changed path

theorem tracks_start (hproper : first.Proper) : audit.Tracks [] first .start :=
  ⟨hproper, fun _ hpath => (nomatch hpath), .inl rfl, fun _ _ hmem => (nomatch hmem),
    fun _ hmem => nomatch hmem⟩

/-- Writing another file leaves the record as it was. -/
theorem load_put (hproper : disk.Proper) (hclean : audit.state.Clean)
    (h : audit.Writes disk place time) (content : ByteArray) :
    Record.load (disk.put place (.file content time)) audit.state =
      Record.load disk audit.state := by
  rw [Record.load, Record.load, content?_put hproper hclean h.takesFile h.elsewhere]

/-- A file that is written is tracked from then on. -/
theorem Tracks.write (h : audit.Tracks log disk stage) (hclean : audit.state.Clean)
    (hwrites : audit.Writes disk place time) (content : ByteArray) :
    audit.Tracks (.wrote (Path.mk 1 place).toText :: log) (disk.put place (.file content time))
      stage := by
  have hload := load_put h.proper hclean hwrites content
  have hne := hwrites.takesFile.ne_nil
  refine ⟨h.proper.put_file hwrites.takesFile content time, h.possible, ?_, ?_, ?_⟩
  · rw [hload]
    exact h.loads
  · intro hdone saved hmem
    rcases List.mem_cons.1 hmem with heq | hmem
    · cases heq
    · exact h.unrecorded hdone saved hmem
  · intro path hmem
    by_cases hsame : path = (Path.mk 1 place).toText
    · -- the file that is written now
      subst hsame
      refine ⟨place, content, time, rfl, hwrites.takesFile.named, hwrites.elsewhere, ?_,
        hwrites.isFinite, fun record hrecord => ?_⟩
      · rw [at?_put hne, if_pos rfl]
      · rw [hload] at hrecord
        exact iff_of_true (hwrites.fresh record hrecord) (not_settled_wrote _ _ _)
    · -- a file that was written before
      have hwrote : Event.wrote (Path.mk 1 place).toText ≠ .wrote path := fun heq =>
        hsame (Event.wrote.inj heq).symm
      have hold := (List.mem_cons.1 hmem).resolve_left (Ne.symm hwrote)
      obtain ⟨other, content', time', rfl, hnamed, hrecord, hat, hfinite, hstale⟩ := h.written path hold
      refine ⟨other, content', time', rfl, hnamed, hrecord, ?_, hfinite, fun record hload' => ?_⟩
      · rw [at?_put hne, if_neg (fun heq : place = other => hsame (by rw [heq])), hat]
      · have hrecorded : ∀ saved, Event.wrote (Path.mk 1 place).toText ≠ .recorded saved :=
          fun _ heq => nomatch heq
        rw [hload] at hload'
        rw [settled_cons hrecorded hwrote]
        exact hstale record hload'

/-- The listed candidates are there to be listed again. -/
theorem Tracks.advance_listed {stage' : Stage} (h : audit.Tracks log disk .start)
    (hchanged : Record.changed disk audit.state stage'.candidates = .ok stage'.changed) :
    audit.Tracks (.listed :: log) disk stage' := by
  obtain ⟨record, hrecord, hlist⟩ := bind_eq_ok.1 hchanged
  have hnone : ∀ saved, Event.recorded saved ∉ .listed :: log := by
    intro saved hmem
    rcases List.mem_cons.1 hmem with heq | hmem
    · cases heq
    · exact h.unrecorded rfl saved hmem
  refine ⟨h.proper, Record.isPossible_of_changedIn hlist, .inr ⟨record, hrecord⟩, fun _ => hnone, ?_⟩
  intro path hmem
  have hold := (List.mem_cons.1 hmem).resolve_left nofun
  -- nothing was recorded, so nothing is settled
  refine (h.written path hold).congr (iff_of_false ?_ ?_)
  · exact fun hsettled => hnone true hsettled.2.1
  · exact fun hsettled => h.unrecorded rfl true hsettled.2.1

/-- A step that only looks changes nothing. -/
theorem Tracks.advance_looking {stage' : Stage} {event : Event} (h : audit.Tracks log disk stage)
    (hstart : stage ≠ .start) (hdone : stage.isDone = false)
    (hcandidates : stage'.candidates = stage.candidates) (hchanged : stage'.changed = stage.changed)
    (hevent : event = .gathered ∨ ∃ path, event = .read path) :
    audit.Tracks (event :: log) disk stage' := by
  have hrecorded : ∀ saved, event ≠ .recorded saved := by
    rcases hevent with rfl | ⟨path, rfl⟩ <;> exact fun saved heq => nomatch heq
  have hwrote : ∀ path, event ≠ .wrote path := by
    rcases hevent with rfl | ⟨path, rfl⟩ <;> exact fun path heq => nomatch heq
  refine ⟨h.proper, hcandidates ▸ h.possible, .inr (h.loads.resolve_left hstart), ?_, ?_⟩
  · intro _ saved hmem
    exact h.unrecorded hdone saved ((List.mem_cons.1 hmem).resolve_left (Ne.symm (hrecorded saved)))
  · intro path hmem
    have hold := (List.mem_cons.1 hmem).resolve_left (Ne.symm (hwrote path))
    rw [hchanged]
    exact (h.written path hold).congr (settled_cons hrecorded (hwrote path))

/-- The times are recorded. -/
theorem Tracks.advance_recorded {stage' : Stage} (hclean : audit.state.Clean)
    (h : audit.Tracks log disk stage) (hstart : stage ≠ .start) (hdone : stage.isDone = false)
    (hdone' : stage'.isDone) (hcandidates : stage'.candidates = stage.candidates)
    (hchanged : stage'.changed = stage.changed) {new : Record}
    (hnew : Record.recorded disk audit.state stage.changed = .ok new) :
    audit.Tracks (.recorded (Record.save disk audit.state (Record.fields new)).2 :: log)
      (Record.save disk audit.state (Record.fields new)).1 stage' := by
  obtain ⟨old, hold⟩ := h.loads.resolve_left hstart
  obtain ⟨stored, hstored, hget⟩ := Record.exists_load_recorded h.proper hclean hold hnew
  have hsaves := Record.saves_save h.proper hclean (Record.canSave_of_recorded hnew) (Record.fields new)
  generalize Record.save disk audit.state (Record.fields new) = saved at *
  refine ⟨hsaves.proper, hcandidates ▸ h.possible, .inr ⟨stored, hstored⟩, ?_, ?_⟩
  · intro hnot
    rw [hdone'] at hnot
    cases hnot
  · intro path hmem
    have hmem := (List.mem_cons.1 hmem).resolve_left nofun
    obtain ⟨place, content, time, rfl, hnamed, helse, hat, hfinite, hstale⟩ := h.written path hmem
    have hfind : disk.findText? (Path.mk 1 place).toText = some (.file content time) := by
      rw [h.proper.findText?_place hnamed, hat]
    have hthere : Record.isThere disk (Path.mk 1 place).toText := by
      rw [Record.isThere, hfind]
      simpa using not_mem_toText hnamed
    refine ⟨place, content, time, rfl, hnamed, ?_, hsaves.kept helse hat, hfinite, ?_⟩
    · rwa [resolve, hsaves.here, ← resolve]
    · intro record hload
      obtain rfl := Except.ok.inj (hstored.symm.trans hload)
      have hsame := hget _ _ hthere hfind
      rw [hchanged, settled_recorded (h.unrecorded hdone)]
      by_cases hsettled : saved.2 = true ∧ (Path.mk 1 place).toText ∈ stage.changed
      · rw [if_pos hsettled] at hsame
        rw [Record.isStale_of_get? hfinite hsame]
        exact iff_of_false Bool.false_ne_true (not_not_intro hsettled)
      · rw [if_neg hsettled] at hsame
        rw [Record.isStale_congr hsame]
        refine iff_of_true ((hstale old hold).2 ?_) hsettled
        exact fun hearlier => h.unrecorded hdone true hearlier.2.1

/-- A step of the scan keeps track of the written files. -/
theorem Tracks.advance {disk' : Disk} {stage' : Stage} {event : Event} (hclean : audit.state.Clean)
    (h : audit.Tracks log disk stage)
    (step : audit.advance paths disk stage = .ok (some (event, disk', stage'))) :
    audit.Tracks (event :: log) disk' stage' := by
  rcases advance_cases step with ⟨rfl, rfl, rfl, hchanged⟩ |
    ⟨hstart, hdone, rfl, hcandidates, hchanged, hevent⟩ |
    ⟨hstart, hdone, hdone', hcandidates, hchanged, new, hnew, rfl, rfl⟩
  · exact h.advance_listed hchanged
  · exact h.advance_looking hstart hdone hcandidates hchanged hevent
  · exact h.advance_recorded hclean hstart hdone hdone' hcandidates hchanged hnew

/-- Every run keeps track of the written files. -/
theorem Interleaved.tracks (hproper : first.Proper) (hclean : audit.state.Clean)
    (h : audit.Interleaved paths first log disk stage) : audit.Tracks log disk stage := by
  induction h with
  | start => exact tracks_start hproper
  | advance _ step ih => exact ih.advance hclean step
  | write _ writes ih => exact ih.write hclean writes _

/-! ## What the next scan lists -/

/-- A file that was written is a changed candidate the next time unless it is settled. -/
theorem Interleaved.exists_changed (hproper : first.Proper) (hclean : audit.state.Clean)
    (h : audit.Interleaved paths first log disk stage) (hstart : stage ≠ .start) :
    ∃ next, Record.changed disk audit.state stage.candidates = .ok next ∧
      ∀ path ∈ stage.candidates, .wrote path ∈ log →
        (path ∈ next ↔ ¬Settled log stage.changed path) := by
  have htracks := h.tracks hproper hclean
  obtain ⟨record, hrecord⟩ := htracks.loads.resolve_left hstart
  obtain ⟨next, hnext⟩ := Record.exists_changedIn disk record htracks.possible
  have hchanged : Record.changed disk audit.state stage.candidates = .ok next := by
    rw [Record.changed, hrecord, ok_bind, hnext]
  refine ⟨next, hchanged, fun path hcandidate hwrote => ?_⟩
  obtain ⟨place, content, time, rfl, hnamed, -, hat, -, hstale⟩ := htracks.written path hwrote
  have hfind : disk.findText? (Path.mk 1 place).toText = some (.file content time) := by
    rw [htracks.proper.findText?_place hnamed, hat]
  rw [Record.changedIn_eq_ok hnext, List.mem_filter, Record.isChanged, hfind, Option.any_some,
    ← hstale record hrecord]
  exact and_iff_right hcandidate

/-- **Which edits are lost.**  A file that was written after the scan had read it is a changed candidate the
next time, unless the scan records its new time: it was listed as changed, the record was saved, and the file
was written before that and not since. -/
theorem changed_iff_of_written (hproper : first.Proper) (hclean : audit.state.Clean)
    {candidates changed : List Text} {report : Report}
    (h : audit.Interleaved paths first log disk (.done candidates changed report)) {path : Text}
    (hcandidate : path ∈ candidates) (hwritten : WrittenSince (.read path) path log) :
    ∃ next, Record.changed disk audit.state candidates = .ok next ∧
      (path ∈ next ↔
        ¬(path ∈ changed ∧ .recorded true ∈ log ∧ ¬WrittenSince (.recorded true) path log)) := by
  obtain ⟨next, hnext, hlisted⟩ := h.exists_changed hproper hclean nofun
  exact ⟨next, hnext, hlisted path hcandidate (List.takeWhile_subset _ hwritten)⟩

/-! ### An edit between reading and recording -/

/-- An audit by the rules for single files. -/
def plainAudit : Audit :=
  ⟨⟨1, ["v"]⟩, ⟨[], []⟩, { Settings.default with composePages := false }, ⟨1, ["state"]⟩,
    Rule.standard⟩

def plainPlace : Place := ["v", "show.html"]

def plainText : Text := (Path.mk 1 plainPlace).toText

/-- One template, and no record yet. -/
def plainDisk : Disk :=
  ⟨[], [(["v"], .directory ⟨0, 0⟩), (plainPlace, .file (Text.toBytes "<p>old</p>") ⟨1, 0⟩)]⟩

/-- The disk after the template was edited. -/
def plainEdited : Disk :=
  plainDisk.put plainPlace (.file (Text.toBytes "<p>new</p>") ⟨2, 0⟩)

theorem writes_plain : plainAudit.Writes plainDisk plainPlace ⟨2, 0⟩ where
  takesFile := ⟨by decide, by decide +kernel, by decide +kernel⟩
  elsewhere := by decide +kernel
  isFinite := by decide +kernel
  fresh := by
    intro record hrecord
    have hnone : Record.load plainDisk plainAudit.state = .ok [] := by decide +kernel
    obtain rfl := Except.ok.inj (hnone.symm.trans hrecord)
    rfl

/-- The template is edited after it was read and before its time is recorded. -/
theorem exists_interleaved_plain : ∃ report disk,
    plainAudit.Interleaved (some [⟨1, plainPlace⟩]) plainDisk
      [.recorded true, .wrote plainText, .read plainText, .gathered, .listed] disk
      (.done [plainText] [plainText] report) := by
  have hcandidates : plainAudit.candidates plainDisk (some [⟨1, plainPlace⟩]) = .ok [plainText] := by
    decide +kernel
  have hchanged : Record.changed plainDisk plainAudit.state [plainText] = .ok [plainText] := by
    decide +kernel
  obtain ⟨⟨cache, report⟩, hnext, -⟩ := exists_of_toOption_any
    (by decide +kernel : (plainAudit.readNext plainDisk Cache.empty.reset ⟨[], none⟩
      plainText).toOption.any fun _ => true)
  have hrecorded : Record.recorded plainEdited plainAudit.state [plainText] =
      .ok [(plainText, .ofInt 2)] := by
    decide +kernel
  have hsaved : (Record.save plainEdited plainAudit.state
      (Record.fields [(plainText, .ofInt 2)])).2 = true := by
    decide +kernel
  have hlist : plainAudit.advance (some [⟨1, plainPlace⟩]) plainDisk .start =
      .ok (some (.listed, plainDisk, .listed [plainText] [plainText])) := by
    rw [advance, hcandidates, ok_bind, hchanged]
    rfl
  have hgather : plainAudit.advance (some [⟨1, plainPlace⟩]) plainDisk
      (.listed [plainText] [plainText]) = .ok (some (.gathered, plainDisk,
        .reading [plainText] [plainText] [plainText] Cache.empty.reset ⟨[], none⟩)) := rfl
  have hread : plainAudit.advance (some [⟨1, plainPlace⟩]) plainDisk
      (.reading [plainText] [plainText] [plainText] Cache.empty.reset ⟨[], none⟩) =
        .ok (some (.read plainText, plainDisk,
          .reading [plainText] [plainText] [] cache report)) := by
    rw [advance, hnext]
    rfl
  have hrecord : plainAudit.advance (some [⟨1, plainPlace⟩]) plainEdited
      (.reading [plainText] [plainText] [] cache report) = .ok (some (.recorded true,
        (Record.save plainEdited plainAudit.state (Record.fields [(plainText, .ofInt 2)])).1,
        .done [plainText] [plainText] report)) := by
    rw [advance, hrecorded, ← hsaved]
    rfl
  have hreading := ((Interleaved.start.advance hlist).advance hgather).advance hread
  exact ⟨report, _, (hreading.write writes_plain).advance hrecord⟩

/-- The next scan passes the edited template over. -/
theorem changed_iff_of_written_between : ∃ log disk report next,
    plainAudit.Interleaved (some [⟨1, plainPlace⟩]) plainDisk log disk
      (.done [plainText] [plainText] report) ∧
    WrittenSince (.read plainText) plainText log ∧
    Record.changed disk plainAudit.state [plainText] = .ok next ∧ plainText ∉ next := by
  obtain ⟨report, disk, hrun⟩ := exists_interleaved_plain
  obtain ⟨log, hlog⟩ : ∃ log : List Event, log =
      [.recorded true, .wrote plainText, .read plainText, .gathered, .listed] := ⟨_, rfl⟩
  rw [← hlog] at hrun
  have hwritten : WrittenSince (.read plainText) plainText log := by
    rw [hlog, WrittenSince]
    decide +kernel
  have hsettled : plainText ∈ [plainText] ∧ .recorded true ∈ log ∧
      ¬WrittenSince (.recorded true) plainText log := by
    rw [hlog, WrittenSince]
    decide +kernel
  obtain ⟨next, hnext, hlisted⟩ := changed_iff_of_written (by decide +kernel)
    (Named.isPart (by decide)) hrun List.mem_cons_self hwritten
  exact ⟨log, disk, report, next, hrun, hwritten, hnext, fun hmem => hlisted.1 hmem hsettled⟩

end Audit

end TemplateAudit
