import TemplateAudit.Proofs.Disk.Made
import TemplateAudit.Proofs.Scan.Memory

/-!
# Saving that fails

The disk may refuse any step of saving.  While the temporary file stands beside the record a reader sees the old
record (`HasTemporary.content?_put`), and where a step is refused nothing is left behind but directories that were
made on the way (`saving_leaves`).  So no change is lost: what has changed since the last scan is still found
(`recording_loses_nothing`).
-/

namespace TemplateAudit

open Disk Outcome

namespace Scan

namespace Record

variable {disk disk' made seen : Disk} {path : Path} {directory temporary : Place} {content : ByteArray}

/-! ## The same disk -/

theorem content?_congr (hhere : disk'.here = disk.here) (hat : ∀ p, disk'.at? p = disk.at? p) :
    disk'.content? path = disk.content? path := by
  have hback : Extends disk disk' := ⟨hhere, fun hentry => (hat _).trans hentry⟩
  have hforth : Extends disk' disk := ⟨hhere.symm, fun hentry => (hat _).symm.trans hentry⟩
  exact Option.ext fun _ => ⟨hforth.content?, hback.content?⟩

theorem isPossible_parent (h : path.isPossible) : path.parent.isPossible := by
  rw [Path.isPossible, Bool.not_eq_true', List.any_eq_false] at h ⊢
  exact fun part hpart => h part (List.dropLast_subset _ hpart)

/-! ## The temporary file -/

/-- A temporary name is longer than the name it is made for. -/
theorem freshName_ne (disk : Disk) (place : Place) (name : Text) : disk.freshName place name ≠ name := by
  intro hsame
  obtain ⟨k, hk⟩ := disk.freshNameFrom_eq place name disk.entries.length 0
  have hlength := congrArg List.length (hk.symm.trans hsame)
  simp only [temporaryName, List.cons_append, List.length_cons, List.length_append] at hlength
  omega

/-- A path leads up from the directory it ends in, or to what has its name there. -/
theorem resolve_of_parent (hmade : made.Proper) (hclean : path.Clean) (hparts : path.parts ≠ [])
    (hlocate : made.locate? path.parent = some directory) :
    (made.resolve path).parts = if path.name = "..".toList then directory.dropLast else directory ++ [path.name] := by
  have hparent := parts_resolve hmade hclean.parent hlocate
  have habsolute : path.parent.isAbsolute = path.isAbsolute := rfl
  have hconcat : ∀ parts, Path.simplify (parts ++ [path.name]) =
      if path.name = "..".toList then (Path.simplify parts).dropLast else Path.simplify parts ++ [path.name] := by
    intro parts
    rw [Path.simplify, Path.simplify, List.foldl_append, List.foldl_cons, List.foldl_nil]
    split
    · exact List.dropLast_reverse.symm
    · rw [List.reverse_cons]
  rw [Disk.resolve, habsolute] at hparent
  rw [Disk.resolve, ← hparent, parts_eq_concat hparts]
  split <;> simp only [← List.append_assoc, hconcat]

/-- The temporary file stands elsewhere than the record. -/
theorem temporary_ne_resolve (hmade : made.Proper) (hclean : path.Clean)
    (hlocate : made.locate? path.parent = some directory) (name : Text) (hname : name ≠ path.name) :
    directory ++ [name] ≠ (made.resolve path).parts := by
  by_cases hparts : path.parts = []
  · have hsame : path.parent.parts = path.parts := by rw [Path.parent, hparts]; rfl
    have hlocate' : made.locate? path = some directory := by
      rw [← hlocate, locate?, locate?, hsame]
      rfl
    rw [parts_resolve hmade hclean hlocate']
    exact fun heq => List.cons_ne_nil _ _ (List.append_right_eq_self.1 heq)
  · rw [resolve_of_parent hmade hclean hparts hlocate]
    split
    · intro heq
      have := congrArg List.length heq
      rw [List.length_append, List.length_dropLast, List.length_singleton] at this
      omega
    · exact fun heq => hname (List.cons.inj (List.append_cancel_left heq)).1

/-- Writing the temporary file changes nothing about the record. -/
theorem HasTemporary.content?_put (h : HasTemporary made temporary seen) (hclean : path.Clean)
    (hne : temporary ≠ (made.resolve path).parts) (content : ByteArray) (time : Time) :
    (seen.put temporary (.file content time)).content? path = seen.content? path := by
  have hresolve : seen.resolve path = made.resolve path := by
    rw [Disk.resolve, Disk.resolve, h.here]
  exact Disk.content?_put h.proper hclean h.takesFile (hresolve ▸ hne) content time

/-- The temporary file replaces that of the record. -/
theorem HasTemporary.content?_of_replace? (h : HasTemporary made temporary seen) (hmade : made.Proper)
    (hfree : made.at? temporary = none) (hclean : path.Clean) (hpossible : path.isPossible)
    (hlocate : made.locate? path.parent = some directory) (hdir : made.isDirectoryAt directory) {time : Time}
    (hfile : seen.at? temporary = some (.file content time)) {target : Place} {saved : Disk}
    (htarget : target? directory path = some target) (hreplace : seen.replace? temporary target = some saved) :
    saved.content? path = some content := by
  rw [h.replace? hmade hfree hfile] at hreplace
  obtain ⟨hnodir, hsaved⟩ := Option.ite_none_left_eq_some.1 hreplace
  obtain rfl := Option.some.inj hsaved
  have hextends := h.extends_remove hmade hfree
  exact (saves_put (h.proper.remove temporary) hextends hclean hpossible (hextends.keeps.locate? hlocate)
    (hextends.keeps.isDirectoryAt hdir) htarget hnodir).content

/-! ## What saving leaves -/

/-- What a reader may see while a record is saved, and what is left in the end: the old record or the new one; no new
files where saving failed, and the new record where it did not. -/
structure Leaves (path : Path) (content : ByteArray) (disk : Disk) (seen : List Disk) (ok : Bool) : Prop where
  readers : ∀ d ∈ seen, d.content? path = disk.content? path ∨ ok = true ∧ d.content? path = some content
  failed : ok = false → MakesDirectories disk (seen.getLastD disk)
  saved : ok = true → (seen.getLastD disk).content? path = some content

theorem leaves_failed {seen : List Disk} (hreaders : ∀ d ∈ seen, d.content? path = disk.content? path)
    (hlast : MakesDirectories disk (seen.getLastD disk)) : Leaves path content disk seen false :=
  ⟨fun d hd => .inl (hreaders d hd), fun _ => hlast, nofun⟩

theorem leaves_saved {seen : List Disk} {saved : Disk} (hreaders : ∀ d ∈ seen, d.content? path = disk.content? path)
    (hsaved : saved.content? path = some content) : Leaves path content disk (seen ++ [saved]) true where
  readers := List.forall_mem_append.2
    ⟨fun d hd => .inl (hreaders d hd), List.forall_mem_singleton.2 (.inr ⟨rfl, hsaved⟩)⟩
  failed := nofun
  saved := fun _ => by rwa [List.getLastD_eq_getLast?, List.getLast?_concat, Option.getD_some]

/-- **What saving leaves**, whatever steps the disk refuses. -/
theorem saving_leaves (hproper : disk.Proper) (hclean : path.Clean) (hpossible : path.isPossible)
    (hdown : LeadsDown disk path) (refuses : SaveStep → Bool) (content : ByteArray) :
    Leaves path content disk (saving refuses disk path content).1 (saving refuses disk path content).2 := by
  have hparent := isPossible_parent hpossible
  obtain ⟨hmade, hextends, hdirectory⟩ := makeDirectories_spec hproper hclean.parent hparent
  have hnew := makesDirectories hproper hclean.parent hparent
  have hold := hnew.content?_eq hproper hclean hpossible hdown
  obtain ⟨made, found, hmake⟩ : ∃ made found, disk.makeDirectories path.parent = (made, found) := ⟨_, _, rfl⟩
  rw [hmake] at hmade hextends hdirectory hnew hold
  rw [saving, hmake]
  by_cases hmakes : refuses .makeDirectories = true
  · rw [if_pos hmakes]
    exact leaves_failed (List.forall_mem_singleton.2 rfl) (.refl disk)
  rw [if_neg hmakes]
  cases found with
  | none => exact leaves_failed (List.forall_mem_singleton.2 hold) hnew
  | some directory =>
    dsimp only
    by_cases hcreates : refuses .makeTemporary = true
    · rw [if_pos hcreates]
      exact leaves_failed (List.forall_mem_singleton.2 hold) hnew
    rw [if_neg hcreates]
    obtain ⟨hlocate, hdir⟩ := Option.filter_eq_some_iff.1 hdirectory.symm
    have hfree := at?_freshName made directory path.name
    have hne := temporary_ne_resolve hmade hclean hlocate _ (freshName_ne made directory path.name)
    have hstart := hasTemporary_start hmade hclean hpossible hdir
    generalize directory ++ [made.freshName directory path.name] = temporary at hfree hne hstart ⊢
    have hcreated := hstart.put ByteArray.empty disk.now
    have hwritten := hcreated.put content disk.now
    have hfile := hcreated.at?_put_self content disk.now
    have hcreatedOld := (hstart.content?_put hclean hne ByteArray.empty disk.now).trans hold
    have hwrittenOld := (hcreated.content?_put hclean hne content disk.now).trans hcreatedOld
    -- without the temporary file all is as it was when the directories were made
    have hremoved : ∀ {seen}, HasTemporary made temporary seen →
        MakesDirectories disk (seen.remove temporary) ∧ (seen.remove temporary).content? path = disk.content? path :=
      fun h =>
        have hhere := (h.extends_remove hmade hfree).here
        ⟨hnew.congr hhere (h.at?_remove hmade hfree),
          (content?_congr hhere (h.at?_remove hmade hfree)).trans hold⟩
    generalize made.put temporary (.file ByteArray.empty disk.now) = created at *
    generalize created.put temporary (.file content disk.now) = written at *
    by_cases hwrites : refuses .writeText = true
    · rw [if_pos hwrites]
      refine leaves_failed ?_ (hremoved hcreated).1
      simp only [List.forall_mem_cons, List.not_mem_nil, false_imp_iff, implies_true, and_true]
      exact ⟨hold, hcreatedOld, (hremoved hcreated).2⟩
    rw [if_neg hwrites]
    have hseen : ∀ d ∈ [made, created, written], d.content? path = disk.content? path := by
      simp only [List.forall_mem_cons, List.not_mem_nil, false_imp_iff, implies_true, and_true]
      exact ⟨hold, hcreatedOld, hwrittenOld⟩
    cases hreplaced : if refuses .replaceFile = true then none
        else (target? directory path).bind (written.replace? temporary) with
    | none =>
      refine leaves_failed ?_ (hremoved hwritten).1
      exact List.forall_mem_append.2 ⟨hseen, List.forall_mem_singleton.2 (hremoved hwritten).2⟩
    | some saved =>
      obtain ⟨-, hreplaced⟩ := Option.ite_none_left_eq_some.1 hreplaced
      obtain ⟨target, htarget, hreplace⟩ := Option.bind_eq_some_iff.1 hreplaced
      have hsaved := hwritten.content?_of_replace? hmade hfree hclean hpossible hlocate hdir hfile htarget hreplace
      exact (leaves_saved hseen hsaved :)

/-- A step that is refused makes saving fail. -/
theorem saving_refused {refuses : SaveStep → Bool} {step : SaveStep} (h : refuses step = true) :
    (saving refuses disk path content).2 = false := by
  rw [saving]
  split
  · rfl
  · split
    · rfl
    · split
      · rfl
      · dsimp only
        split
        · rfl
        · rename_i hmakes _ _ _ _ hcreates hwrites
          cases step with
          | makeDirectories => exact absurd h hmakes
          | makeTemporary => exact absurd h hcreates
          | writeText => exact absurd h hwrites
          | replaceFile => rw [if_pos h]

/-! ## Recording times -/

/-- The times of some files are recorded on a disk that may refuse some steps of saving: the disks that a reader may
see, and whether it went well. -/
def recording (refuses : SaveStep → Bool) (disk : Disk) (path : Path) (files : List Text) :
    Except Failure (List Disk × Bool) :=
  (recorded disk path files).map fun record => saving refuses disk path (Text.toBytes (write (fields record)))

/-- A disk that refuses nothing of its own. -/
theorem update_eq_recording (disk : Disk) (path : Path) (files : List Text) :
    update disk path files =
      (recording (fun _ => false) disk path files).map fun saved => saved.1.getLastD disk := by
  rw [update_eq, recording]
  cases recorded disk path files <;> rfl

theorem isPossible_of_refresh {record refreshed : Record} {files : List Text}
    (h : refresh disk record files = .ok refreshed) : ∀ file ∈ files, '\x00' ∉ file := by
  induction files generalizing record with
  | nil => exact nofun
  | cons file files ih =>
    obtain ⟨time, htime, h⟩ := bind_eq_ok.1 h
    have hfile : '\x00' ∉ file := by simpa using isPossible_of_modified? htime
    refine List.forall_mem_cons.2 ⟨hfile, ?_⟩
    cases time <;> exact ih h

/-- Times can be recorded when the files can be looked up. -/
theorem exists_recorded_iff (hpossible : path.isPossible) {old : Record} (hold : load disk path = .ok old)
    {files : List Text} : (∃ record, recorded disk path files = .ok record) ↔ ∀ file ∈ files, '\x00' ∉ file := by
  have hsave : canSave disk path = true := by
    rw [canSave, isPossible_parent hpossible, hpossible]
    rfl
  simp only [recorded, hold, ok_bind, if_pos hsave]
  constructor
  · rintro ⟨record, hrecord⟩
    obtain ⟨refreshed, hrefresh, -⟩ := bind_eq_ok.1 hrecord
    exact isPossible_of_refresh hrefresh
  · intro hfiles
    obtain ⟨refreshed, hrefresh⟩ := @exists_refresh disk old files hfiles
    rw [hrefresh]
    exact ⟨_, rfl⟩

theorem sound_recorded {files : List Text} {record : Record} (h : recorded disk path files = .ok record) :
    Sound record := by
  have hsave := canSave_of_recorded h
  obtain ⟨old, hold, h⟩ := bind_eq_ok.1 h
  obtain ⟨refreshed, hrefresh, h⟩ := bind_eq_ok.1 h
  rw [if_pos hsave] at h
  obtain rfl := Except.ok.inj h
  exact (sound_refresh (sound_of_load hold) hrefresh).sublist List.filter_sublist

/-! ## What has changed -/

theorem findText?_of_extends (h : Extends disk disk') {s : Text} {entry : Entry}
    (hfind : disk.findText? s = some entry) : disk'.findText? s = some entry := by
  obtain ⟨hne, hfind⟩ := Option.ite_none_left_eq_some.1 hfind
  obtain ⟨place, hwalk, hentry⟩ := Option.bind_eq_some_iff.1 hfind
  rw [findText?, if_neg hne, h.here, h.keeps.walk? hwalk]
  exact h.kept hentry

theorem changedIn_congr {record : Record} {candidates : List Text}
    (h : ∀ candidate ∈ candidates, disk'.findText? candidate = disk.findText? candidate) :
    changedIn disk' record candidates = changedIn disk record candidates := by
  induction candidates with
  | nil => rfl
  | cons candidate candidates ih =>
    obtain ⟨hcandidate, hcandidates⟩ := List.forall_mem_cons.1 h
    rw [changedIn, changedIn, modified?, modified?, hcandidate, ih hcandidates]

/-- A path leads to a file, or not even later anywhere. -/
def LeadsToFile (disk later : Disk) (candidate : Text) : Prop :=
  (disk.findText? candidate).any (fun entry => !entry.isDirectory) = true ∨ later.findText? candidate = none

/-- What a save that failed leaves: everything that stood is there unchanged, and only directories are new; the record
is what it was; and the same files have changed. -/
structure LosesNothing (path : Path) (disk later : Disk) : Prop where
  directories : MakesDirectories disk later
  content : later.content? path = disk.content? path
  changed : ∀ candidates, (∀ candidate ∈ candidates, LeadsToFile disk later candidate) →
    changed later path candidates = changed disk path candidates

theorem losesNothing (hnew : MakesDirectories disk disk') (hcontent : disk'.content? path = disk.content? path) :
    LosesNothing path disk disk' where
  directories := hnew
  content := hcontent
  changed := fun candidates hcandidates => by
    have hload : load disk' path = load disk path := by rw [load, load, hcontent]
    have hsame : ∀ candidate ∈ candidates, disk'.findText? candidate = disk.findText? candidate := by
      intro candidate hcandidate
      cases hfind : disk.findText? candidate with
      | some entry => exact findText?_of_extends hnew.toExtends hfind
      | none =>
        refine (hcandidates candidate hcandidate).resolve_left ?_
        rw [hfind]
        exact Bool.false_ne_true
    rw [changed, changed, hload]
    cases load disk path with
    | error failure => rfl
    | ok record => exact changedIn_congr hsame

/-- **A failed save loses no change.**  Recording the times of files goes through unless one of them cannot be looked
up, and whatever steps of saving the disk refuses: then nothing is saved, nothing that stood is lost, only directories
are new, and the same files have changed as before.  When all goes well the saved record is loaded again.  A reader of
the record never sees anything but the old or the new one. -/
theorem recording_loses_nothing (hproper : disk.Proper) (hclean : path.Clean) (hpossible : path.isPossible)
    (hdown : LeadsDown disk path) {old : Record} (hold : load disk path = .ok old) (refuses : SaveStep → Bool)
    (files : List Text) :
    ((∃ result, recording refuses disk path files = .ok result) ↔ ∀ file ∈ files, '\x00' ∉ file) ∧
    ∀ seen ok, recording refuses disk path files = .ok (seen, ok) →
      ∃ new, recorded disk path files = .ok new ∧
        ((∃ step, refuses step = true) → ok = false) ∧
        (∀ d ∈ seen, d.content? path = disk.content? path ∨
          d.content? path = some (Text.toBytes (write (fields new)))) ∧
        (ok = false → LosesNothing path disk (seen.getLastD disk)) ∧
        (ok = true → load (seen.getLastD disk) path = .ok (sorted new) ∧
          ∀ file, Pairs.get? file (sorted new) = Pairs.get? file new) := by
  constructor
  · rw [← exists_recorded_iff hpossible hold, recording]
    cases recorded disk path files <;> simp [Except.map]
  · intro seen ok hresult
    obtain ⟨new, hnew, hsaving⟩ := map_eq_ok.1 hresult
    have hsound := sound_recorded hnew
    have hleaves := saving_leaves hproper hclean hpossible hdown refuses (Text.toBytes (write (fields new)))
    have hrefused : ∀ step, refuses step = true →
        (saving refuses disk path (Text.toBytes (write (fields new)))).2 = false := fun _ => saving_refused
    rw [hsaving] at hleaves hrefused
    refine ⟨new, hnew, fun ⟨step, hstep⟩ => hrefused step hstep, fun d hd => (hleaves.readers d hd).imp_right And.right,
      fun hfailed => losesNothing (hleaves.failed hfailed) ?_, fun hok => ⟨?_, get?_sorted hsound⟩⟩
    · subst hfailed
      have hreaders : ∀ d ∈ disk :: seen, d.content? path = disk.content? path := List.forall_mem_cons.2
        ⟨rfl, fun d hd => (hleaves.readers d hd).resolve_right fun h => Bool.false_ne_true h.1⟩
      exact hreaders _ List.getLastD_mem_cons
    · rw [load, hleaves.saved hok]
      simp only [ofFile?_write hsound, ofText_write hsound]

/-! ### A path that goes up through a directory that is not there -/

/-- A disk with one file. -/
def detourDisk : Disk :=
  ⟨[], [(["file.txt"], .file (Text.toBytes "x") ⟨1, 0⟩)]⟩

/-- A record below the file, and one in its place. -/
def detourPath : Path := ⟨0, ["new", "..", "file.txt", "state.json"]⟩

def detourFile : Path := ⟨0, ["new", "..", "file.txt"]⟩

/-- The directory that is made on the way stays when the record is not saved: it is found as changed, and through it
the path comes to lead to the file. -/
theorem recording_keeps_directories :
    (∃ seen, recording (fun _ => false) detourDisk detourPath [] = .ok (seen, false) ∧
      changed detourDisk detourPath ["/new"] = .ok [] ∧
      changed (seen.getLastD detourDisk) detourPath ["/new"] = .ok ["/new"]) ∧
    ∃ seen, recording (· = .makeTemporary) detourDisk detourFile [] = .ok (seen, false) ∧
      load detourDisk detourFile = .ok [] ∧ detourDisk.content? detourFile = none ∧
      (seen.getLastD detourDisk).content? detourFile = some (Text.toBytes "x") := by
  have hsplit : ∀ refuses path (p : List Disk → Bool),
      (recording refuses detourDisk path []).toOption.any (fun saved => !saved.2 && p saved.1) = true →
      ∃ seen, recording refuses detourDisk path [] = .ok (seen, false) ∧ p seen = true := by
    intro refuses path p h
    obtain ⟨⟨seen, ok⟩, hsaved, hholds⟩ := exists_of_toOption_any h
    obtain ⟨hfailed, hholds⟩ := Bool.and_eq_true_iff.1 hholds
    obtain rfl : ok = false := by simpa using hfailed
    exact ⟨seen, hsaved, hholds⟩
  constructor
  · obtain ⟨seen, hseen, hfound⟩ := hsplit (fun _ => false) detourPath
      (fun seen => decide (changed (seen.getLastD detourDisk) detourPath ["/new"] = .ok ["/new"])) (by decide +kernel)
    exact ⟨seen, hseen, by decide +kernel, of_decide_eq_true hfound⟩
  · obtain ⟨seen, hseen, hfound⟩ := hsplit (· = .makeTemporary) detourFile
      (fun seen => decide ((seen.getLastD detourDisk).content? detourFile = some (Text.toBytes "x")))
      (by decide +kernel)
    exact ⟨seen, hseen, by decide +kernel, by decide +kernel, of_decide_eq_true hfound⟩

/-! ### A record in a new directory -/

/-- A disk with one template. -/
def templateDisk : Disk :=
  ⟨[], [(["v"], .directory noTime), (["v", "a.html"], .file (Text.toBytes "<p></p>") ⟨5, 0⟩)]⟩

def templatePath : Path := ⟨1, ["tmp", "state.json"]⟩

def templateText : Text := (Path.mk 1 ["v", "a.html"]).toText

/-- When the file of the record cannot be replaced, the template is found as changed again; otherwise its time is in
the record. -/
theorem recording_loses_nothing_template :
    (∃ seen, recording (· = .replaceFile) templateDisk templatePath [templateText] = .ok (seen, false) ∧
      changed (seen.getLastD templateDisk) templatePath [templateText] = .ok [templateText]) ∧
    ∃ seen, recording (fun _ => false) templateDisk templatePath [templateText] = .ok (seen, true) ∧
      load (seen.getLastD templateDisk) templatePath = .ok [(templateText, .ofInt 5)] := by
  have hproper : templateDisk.Proper := by decide +kernel
  have hclean : templatePath.Clean := Named.isPart (by decide)
  have hdown : LeadsDown templateDisk templatePath := ⟨[], _, rfl, by decide, rfl⟩
  have hold : load templateDisk templatePath = .ok [] := by decide +kernel
  have hloses := fun refuses => recording_loses_nothing hproper hclean rfl hdown hold refuses [templateText]
  constructor
  · obtain ⟨hgoes, hresults⟩ := hloses (· = .replaceFile)
    obtain ⟨⟨seen, ok⟩, hresult⟩ := hgoes.2 (by decide +kernel)
    obtain ⟨-, -, hrefused, -, hfailed, -⟩ := hresults seen ok hresult
    obtain rfl := hrefused ⟨.replaceFile, rfl⟩
    refine ⟨seen, hresult, ((hfailed rfl).changed _ ?_).trans (by decide +kernel)⟩
    exact List.forall_mem_singleton.2 (.inl (by decide +kernel))
  · obtain ⟨⟨seen, ok⟩, hresult, hok⟩ := exists_of_toOption_any (by decide +kernel :
      (recording (fun _ => false) templateDisk templatePath [templateText]).toOption.any fun saved => saved.2)
    obtain rfl : ok = true := hok
    obtain ⟨new, hnew, -, -, -, hsaved⟩ := (hloses fun _ => false).2 seen true hresult
    have hrecorded : recorded templateDisk templatePath [templateText] = .ok [(templateText, .ofInt 5)] := by
      decide +kernel
    obtain rfl := Except.ok.inj (hrecorded.symm.trans hnew)
    have hsorted : sorted [(templateText, Decimal.Double.ofInt 5)] = [(templateText, .ofInt 5)] :=
      List.mergeSort_singleton _
    exact ⟨seen, hresult, hsorted ▸ (hsaved rfl).1⟩

end Record

end Scan

end TemplateAudit
