import TemplateAudit.Proofs.Disk.Removed
import TemplateAudit.Proofs.Scan.Saving

/-!
# The record as a map in memory

The file of the record is read and written anew with every use, and yet it does what a map from paths to
times would do that is kept in memory (`Recalls.changed_eq`).  The map is empty at first and after the
record was cleared; recording the times of some files enters the times they have now and forgets the
files that are gone.  Whatever else happens on the disk in between does not touch the map.

A path with the character `\0` leads nowhere, but looking it up fails instead of passing it over.
-/

namespace TemplateAudit

open Disk Outcome

namespace Scan

namespace Record

/-! ## The map -/

/-- The time that a path has on a disk, if it leads anywhere. -/
def timeOn? (disk : Disk) (path : Text) : Option Decimal.Double :=
  (disk.findText? path).map fun entry => entry.modified.toDouble

/-- A map from paths to times. -/
abbrev Memory := Text → Option Decimal.Double

namespace Memory

/-- The map that holds nothing. -/
def empty : Memory :=
  fun _ => none

/-- The map with the times that some files have now, as far as they are there, and without the paths that
lead nowhere. -/
def update (memory : Memory) (disk : Disk) (files : List Text) : Memory :=
  fun path =>
    if (timeOn? disk path).isSome then
      if path ∈ files then timeOn? disk path else memory path
    else none

/-- Does a path lead to something whose time is not the one in the map? -/
def isChanged (memory : Memory) (disk : Disk) (path : Text) : Bool :=
  match timeOn? disk path with
  | some time => !(memory path).any (·.equals time)
  | none => false

end Memory

/-! ## What happens to the record -/

variable {path : Path} {disk disk' : Disk} {memory : Memory}

/-- How the record at a path and the map go through the same history: at first there is no record, then
times are recorded and saved, the record is cleared, and the disk changes in any other way that does not
touch the file of the record. -/
inductive Recalls (path : Path) : Disk → Memory → Prop
  | start {disk : Disk} : disk.Proper → disk.content? path = none → Recalls path disk .empty
  | edit {disk disk' : Disk} {memory : Memory} : Recalls path disk memory → disk'.Proper →
      disk'.content? path = disk.content? path → Recalls path disk' memory
  | update {disk : Disk} {memory : Memory} {files : List Text} {record : Record} :
      Recalls path disk memory → recorded disk path files = .ok record →
      (save disk path (fields record)).2 = true →
      Recalls path (save disk path (fields record)).1 (memory.update disk files)
  | clear {disk : Disk} {memory : Memory} : Recalls path disk memory →
      Recalls path (clear disk path) .empty

namespace Recalls

/-- A file is written, or its time is set, at a place that is not that of the record. -/
theorem write (h : Recalls path disk memory) (hproper : disk.Proper) (hclean : path.Clean) {place : Place}
    (hplace : disk.TakesFile place) (hne : place ≠ (disk.resolve path).parts) (content : ByteArray)
    (time : Time) : Recalls path (disk.put place (.file content time)) memory :=
  h.edit (hproper.put_file hplace content time) (content?_put hproper hclean hplace hne content time)

/-- A file is removed that is not that of the record. -/
theorem remove (h : Recalls path disk memory) (hproper : disk.Proper) (hclean : path.Clean) {place : Place}
    {content : ByteArray} {time : Time} (hfile : disk.at? place = some (.file content time))
    (hne : place ≠ (disk.resolve path).parts) : Recalls path (disk.remove place) memory :=
  h.edit (hproper.remove place) (content?_remove_file hproper hclean hfile hne)

end Recalls

/-! ## The record holds the map -/

/-- The record can be loaded and holds what the map holds. -/
structure Holds (path : Path) (disk : Disk) (memory : Memory) : Prop where
  proper : disk.Proper
  loads : ∃ record, load disk path = .ok record ∧ ∀ p, Pairs.get? p record = memory p

theorem holds_of_content?_eq_none (hproper : disk.Proper) (h : disk.content? path = none) :
    Holds path disk .empty where
  proper := hproper
  loads := ⟨[], by rw [load, h], fun _ => rfl⟩

/-- The map that the file of the record holds. -/
def memoryOn (disk : Disk) (path : Path) : Memory :=
  fun p => (load disk path).toOption.bind (Pairs.get? p)

theorem holds_memoryOn (hproper : disk.Proper) {record : Record} (h : load disk path = .ok record) :
    Holds path disk (memoryOn disk path) where
  proper := hproper
  loads := ⟨record, h, fun p => by rw [memoryOn, h]; rfl⟩

theorem Holds.memoryOn_eq (h : Holds path disk memory) : memoryOn disk path = memory := by
  obtain ⟨record, hload, hget⟩ := h.loads
  funext p
  rw [memoryOn, hload, ← hget]
  rfl

theorem memoryOn_congr (h : disk'.content? path = disk.content? path) :
    memoryOn disk' path = memoryOn disk path := by
  funext p
  rw [memoryOn, memoryOn, load, load, h]

theorem isThere_eq (hproper : disk.Proper) (p : Text) : isThere disk p = (timeOn? disk p).isSome := by
  rw [isThere, timeOn?, Option.isSome_map]
  cases hfind : (disk.findText? p).isSome with
  | false => exact Bool.and_false _
  | true =>
    have hzero := hproper.not_mem_of_findText? hfind
    simpa using hzero

theorem Holds.update (hclean : path.Clean) (h : Holds path disk memory) {files : List Text}
    {record : Record} (hrecorded : recorded disk path files = .ok record)
    (hsaved : (save disk path (fields record)).2 = true) :
    Holds path (save disk path (fields record)).1 (memory.update disk files) := by
  obtain ⟨old, hold, hget⟩ := h.loads
  have hsave := canSave_of_recorded hrecorded
  rw [recorded, hold, ok_bind] at hrecorded
  obtain ⟨refreshed, hrefresh, hnew⟩ := bind_eq_ok.1 hrecorded
  rw [if_pos hsave] at hnew
  obtain rfl := Except.ok.inj hnew
  have hsound : Sound (refreshed.filter fun entry => isThere disk entry.1) :=
    (sound_refresh (sound_of_load hold) hrefresh).sublist List.filter_sublist
  have hload := load_save h.proper hclean hsave hsound
  rw [if_pos hsaved] at hload
  refine ⟨(saves_save h.proper hclean hsave _).proper, _, hload, fun p => ?_⟩
  rw [get?_sorted hsound, Memory.update]
  cases hthere : (timeOn? disk p).isSome with
  | false =>
    rw [← isThere_eq h.proper] at hthere
    rw [Pairs.get?_filter_eq_none (p := isThere disk) hthere, if_neg Bool.false_ne_true]
  | true =>
    obtain ⟨time, htime⟩ := Option.isSome_iff_exists.1 hthere
    rw [← isThere_eq h.proper] at hthere
    have hnow : (disk.findText? p).map (fun entry => entry.modified.toDouble) = some time := htime
    rw [Pairs.get?_filter (p := isThere disk) hthere, get?_refresh hrefresh, hnow, Option.some_or,
      hget, if_pos rfl, htime]

theorem Holds.clear (h : Holds path disk memory) :
    Holds path (Record.clear disk path) .empty := by
  rw [Record.clear]
  cases hlocate : disk.locate? path with
  | none =>
    refine holds_of_content?_eq_none h.proper ?_
    rw [content?, find?, hlocate]
    rfl
  | some place =>
    by_cases hdir : disk.isDirectoryAt place
    · simp only [if_pos hdir]
      exact holds_of_content?_eq_none h.proper (content?_eq_none_of_isDirectoryAt hlocate hdir)
    · have hne : place ≠ [] := fun hnil => hdir (hnil ▸ isDirectoryAt_nil)
      simp only [if_neg hdir]
      exact holds_of_content?_eq_none (h.proper.remove place)
        (content?_remove_located h.proper hne hlocate)

/-- The record holds the map after every history. -/
theorem Recalls.holds (hclean : path.Clean) (h : Recalls path disk memory) : Holds path disk memory := by
  induction h with
  | start hproper hnone => exact holds_of_content?_eq_none hproper hnone
  | edit _ hproper hsame ih =>
    obtain ⟨record, hload, hget⟩ := ih.loads
    exact ⟨hproper, record, by rw [load, hsame, ← load, hload], hget⟩
  | update _ hrecorded hsaved ih => exact ih.update hclean hrecorded hsaved
  | clear _ ih => exact ih.clear

theorem exists_refresh {record : Record} {files : List Text} (h : ∀ file ∈ files, '\x00' ∉ file) :
    ∃ refreshed, refresh disk record files = .ok refreshed := by
  induction files generalizing record with
  | nil => exact ⟨record, rfl⟩
  | cons file files ih =>
    obtain ⟨hfile, hfiles⟩ := List.forall_mem_cons.1 h
    rw [refresh, modified?_eq_of_isPossible (by simpa using hfile), ok_bind]
    cases disk.findText? file with
    | none => exact ih hfiles
    | some entry => exact ih hfiles

/-- The times of files can be recorded as long as all of them can be looked up. -/
theorem Recalls.exists_recorded (hclean : path.Clean) (h : Recalls path disk memory)
    (hsave : canSave disk path) {files : List Text} (hfiles : ∀ file ∈ files, '\x00' ∉ file) :
    ∃ record, recorded disk path files = .ok record := by
  obtain ⟨old, hold, -⟩ := (h.holds hclean).loads
  obtain ⟨refreshed, hrefresh⟩ := @exists_refresh disk old files hfiles
  refine ⟨refreshed.filter fun entry => isThere disk entry.1, ?_⟩
  rw [recorded, hold, ok_bind, hrefresh, ok_bind, if_pos hsave]
  rfl

/-! ## What has changed -/

theorem changedIn_of_zero {record : Record} {candidates : List Text}
    (h : ∃ candidate ∈ candidates, '\x00' ∈ candidate) :
    changedIn disk record candidates = .error .impossiblePath := by
  induction candidates with
  | nil => simp at h
  | cons candidate candidates ih =>
    rw [changedIn, modified?]
    by_cases hzero : '\x00' ∈ candidate
    · rw [if_pos (List.contains_iff_mem.2 hzero)]
      rfl
    · have hlater : ∃ later ∈ candidates, '\x00' ∈ later := by simpa [hzero] using h
      rw [if_neg (fun hin => hzero (List.contains_iff_mem.1 hin)), ok_bind, ih hlater]
      rfl

theorem isChanged_eq {record : Record} (hget : ∀ p, Pairs.get? p record = memory p) :
    isChanged disk record = memory.isChanged disk := by
  funext p
  rw [isChanged, Memory.isChanged, timeOn?, ← hget]
  cases disk.findText? p with
  | none => rfl
  | some entry =>
    rw [Option.any_some, isStale]
    cases Pairs.get? p record <;> rfl

/-- **The record is a map.**  After every history the candidates that have changed since are those that
are there and whose time is not the one in the map, in their order; only a candidate with the character
`\0` cannot be looked up. -/
theorem Recalls.changed_eq (hclean : path.Clean) (h : Recalls path disk memory) (candidates : List Text) :
    changed disk path candidates =
      if candidates.any (·.contains '\x00') then .error .impossiblePath
      else .ok (candidates.filter (memory.isChanged disk)) := by
  obtain ⟨record, hload, hget⟩ := (h.holds hclean).loads
  rw [changed, hload, ok_bind]
  split
  · rename_i hzero
    simp only [List.any_eq_true, List.contains_iff_mem] at hzero
    exact changedIn_of_zero hzero
  · rename_i hpossible
    have hpossible' : ∀ p ∈ candidates, p.contains '\x00' = false := by simpa using hpossible
    obtain ⟨changed, hchanged⟩ := exists_changedIn disk record hpossible'
    rw [hchanged, changedIn_eq_ok hchanged, isChanged_eq hget]

/-! ### A template that is removed and made again -/

def recallPath : Path := ⟨1, ["state"]⟩

def recallPlace : Place := ["show.html"]

def recallText : Text := (Path.mk 1 recallPlace).toText

/-- A disk with one template. -/
def recallDisk : Disk :=
  ⟨[], [(recallPlace, .file (Text.toBytes "<p>old</p>") ⟨1, 0⟩)]⟩

/-- The disk after the time of the template was recorded. -/
def recallSaved : Disk :=
  (save recallDisk recallPath (fields [(recallText, .ofInt 1)])).1

/-- The disk after the template was removed and made again with the time it had. -/
def recallAgain : Disk :=
  (recallSaved.remove recallPlace).put recallPlace (.file (Text.toBytes "<p>new</p>") ⟨1, 0⟩)

theorem recalls_again :
    Recalls recallPath recallAgain (Memory.empty.update recallDisk [recallText]) := by
  have hclean : recallPath.Clean := Named.isPart (by decide)
  have hproper : recallDisk.Proper := by decide +kernel
  have hrecorded : recorded recallDisk recallPath [recallText] = .ok [(recallText, .ofInt 1)] := by
    decide +kernel
  have hsaves := saves_save hproper hclean (canSave_of_recorded hrecorded)
    (fields [(recallText, .ofInt 1)])
  have hfile : recallSaved.at? recallPlace = some (.file (Text.toBytes "<p>old</p>") ⟨1, 0⟩) :=
    hsaves.kept (by decide +kernel) rfl
  have hsaved : Recalls recallPath recallSaved (Memory.empty.update recallDisk [recallText]) :=
    (Recalls.start hproper (by decide +kernel)).update hrecorded (by decide +kernel)
  have hremoved := hsaved.remove hsaves.proper hclean hfile (by decide +kernel)
  exact hremoved.write (hsaves.proper.remove recallPlace) hclean
    ⟨by decide, by decide +kernel, by decide +kernel⟩ (by decide +kernel) _ _

/-- The template is recorded, removed, and made again with the time it had: it has not changed.  Along with
a path that has the character `\0` it cannot be looked up. -/
theorem Recalls.changed_eq_again :
    changed recallAgain recallPath [recallText] = .ok [] ∧
    changed recallAgain recallPath [recallText, ['a', '\x00']] = .error .impossiblePath := by
  have hclean : recallPath.Clean := Named.isPart (by decide)
  have hchanged := Recalls.changed_eq hclean recalls_again
  rw [hchanged, hchanged]
  decide +kernel

end Record

end Scan

end TemplateAudit
