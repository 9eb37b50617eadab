import TemplateAudit.Proofs.Disk.Removed
import TemplateAudit.Proofs.Scan.Record
import TemplateAudit.Proofs.Scan.Stored

/-!
# Saving a record

Where a record is saved, the file of the record holds its text and nothing else on the disk is lost
(`saves_save`), so that the record is loaded again (`load_save`).  Where the disk has no room for the
file, the record is what it was.
-/

namespace TemplateAudit

open Disk Outcome

namespace Scan

namespace Record

/-! ## The path of the record -/

variable {disk : Disk} {path : Path}

theorem parts_eq_concat (h : path.parts ≠ []) : path.parts = path.parent.parts ++ [path.name] := by
  have hname : path.name = path.parts.getLast h := by
    rw [Path.name, List.getLastD_eq_getLast?, List.getLast?_eq_some_getLast h]
    rfl
  rw [Path.parent, hname]
  exact (List.dropLast_append_getLast h).symm

/-- A path leads on from where its parent leads. -/
theorem locate?_eq_bind (h : path.parts ≠ []) :
    disk.locate? path = (disk.locate? path.parent).bind fun place => disk.step? place path.name := by
  have hstart : disk.startOf path.parent = disk.startOf path := rfl
  rw [locate?, locate?, hstart, parts_eq_concat h, walk?_concat]

theorem not_mem_name (hclean : path.Clean) (hpossible : path.isPossible) :
    '/' ∉ path.name ∧ '\x00' ∉ path.name := by
  by_cases hparts : path.parts = []
  · rw [Path.name, hparts]
    exact ⟨List.not_mem_nil, List.not_mem_nil⟩
  · have hmem : path.name ∈ path.parts := by
      rw [parts_eq_concat hparts]
      exact List.mem_append_right _ (List.mem_singleton_self _)
    refine ⟨(hclean _ hmem).2.2, ?_⟩
    rcases isName_or_up hclean hpossible _ hmem with hname | hup
    · exact hname.2.2
    · rw [hup]
      decide

theorem content?_eq_none_of_isDirectoryAt {place : Place} (hlocate : disk.locate? path = some place)
    (hdir : disk.isDirectoryAt place) : disk.content? path = none := by
  rw [content?, find?, hlocate, Option.bind_some]
  obtain ⟨entry, hentry, hkind⟩ := (Option.any_eq_true _ _).1 hdir
  rw [hentry]
  cases entry with
  | file _ _ => cases hkind
  | directory _ => rfl

/-- A path leads to no file when its parent leads to no directory. -/
theorem content?_of_no_directory (hparts : path.parts ≠ [])
    (h : (disk.locate? path.parent).filter disk.isDirectoryAt = none) :
    disk.content? path = none := by
  have hlocate : disk.locate? path = none := by
    rw [locate?_eq_bind hparts]
    cases hparent : disk.locate? path.parent with
    | none => rfl
    | some place =>
      rw [hparent, Option.filter_eq_none_iff] at h
      exact step?_of_not_isDirectoryAt _ (h place rfl)
  rw [content?, find?, hlocate]
  rfl

/-! ## Saving -/

/-- What saving leaves: what the path leads to holds the content if it went well, and what it held
otherwise, and nothing else is lost. -/
structure Saves (path : Path) (content : ByteArray) (disk saved : Disk) (ok : Bool) : Prop where
  proper : saved.Proper
  here : saved.here = disk.here
  kept : ∀ {place entry}, place ≠ (disk.resolve path).parts → disk.at? place = some entry →
    saved.at? place = some entry
  content : saved.content? path = if ok then some content else disk.content? path

/-- Saving that failed has made directories at most, and the path leads to no file, unless it is only the
place that paths start from. -/
theorem saves_of_extends {content : ByteArray} {saved : Disk} (hproper : saved.Proper)
    (hextends : Extends disk saved) (hback : path.parts = [] → Extends saved disk)
    (hnone : path.parts ≠ [] → saved.content? path = none) :
    Saves path content disk saved false where
  proper := hproper
  here := hextends.here
  kept := fun _ hentry => hextends.kept hentry
  content := by
    by_cases hparts : path.parts = []
    · exact Option.ext fun bytes => ⟨(hback hparts).content?, hextends.content?⟩
    · rw [hnone hparts]
      cases hold : disk.content? path with
      | none => rfl
      | some bytes =>
        have hkept := hextends.content? hold
        rw [hnone hparts] at hkept
        cases hkept

/-- While a record is saved: the temporary file may stand at its place, and all else is as it was when the
directories were made. -/
structure HasTemporary (made : Disk) (temporary : Place) (seen : Disk) : Prop where
  proper : seen.Proper
  here : seen.here = made.here
  takesFile : seen.TakesFile temporary
  elsewhere : ∀ p, temporary ≠ p → seen.at? p = made.at? p

section Temporary

variable {made seen : Disk} {directory temporary : Place} {content : ByteArray} {time : Time}

/-- Before the temporary file is made. -/
theorem hasTemporary_start (hmade : made.Proper) (hclean : path.Clean) (hpossible : path.isPossible)
    (hdir : made.isDirectoryAt directory) :
    HasTemporary made (directory ++ [made.freshName directory path.name]) made where
  proper := hmade
  here := rfl
  takesFile := by
    obtain ⟨hslash, hzero⟩ := not_mem_name hclean hpossible
    refine ⟨named_concat.2 ⟨hmade.named_of_at? (isSome_at?_of_isDirectoryAt hdir),
      isName_freshName made directory hslash hzero⟩, by rwa [List.dropLast_concat], ?_⟩
    rw [isDirectoryAt, at?_freshName]
    exact Bool.false_ne_true
  elsewhere := fun _ _ => rfl

namespace HasTemporary

/-- The temporary file is written. -/
theorem put (h : HasTemporary made temporary seen) (content : ByteArray) (time : Time) :
    HasTemporary made temporary (seen.put temporary (.file content time)) where
  proper := h.proper.put_file h.takesFile content time
  here := h.here
  takesFile := by
    refine ⟨h.takesFile.named, (keeps_put_file h.takesFile content time).isDirectoryAt h.takesFile.inDirectory, ?_⟩
    rw [isDirectoryAt, at?_put h.takesFile.ne_nil, if_pos rfl]
    exact Bool.false_ne_true
  elsewhere := fun p hp => by rw [at?_put h.takesFile.ne_nil, if_neg hp, h.elsewhere p hp]

theorem at?_put_self (h : HasTemporary made temporary seen) (content : ByteArray) (time : Time) :
    (seen.put temporary (.file content time)).at? temporary = some (.file content time) := by
  rw [at?_put h.takesFile.ne_nil, if_pos rfl]

/-- When the temporary file is removed again, everything stands as before it was made. -/
theorem at?_remove (h : HasTemporary made temporary seen) (hmade : made.Proper) (hfree : made.at? temporary = none)
    (p : Place) : (seen.remove temporary).at? p = made.at? p :=
  at?_remove_new hmade h.takesFile.ne_nil hfree h.elsewhere p

theorem extends_remove (h : HasTemporary made temporary seen) (hmade : made.Proper)
    (hfree : made.at? temporary = none) : Extends made (seen.remove temporary) :=
  ⟨h.here, fun hentry => (h.at?_remove hmade hfree _).trans hentry⟩

/-- The temporary file is moved to a place where no directory stands. -/
theorem replace? (h : HasTemporary made temporary seen) (hmade : made.Proper) (hfree : made.at? temporary = none)
    (hfile : seen.at? temporary = some (.file content time)) (target : Place) :
    seen.replace? temporary target =
      if (seen.remove temporary).isDirectoryAt target then none
      else some ((seen.remove temporary).put target (.file content time)) := by
  have hsame : seen.isDirectoryAt target = (seen.remove temporary).isDirectoryAt target := by
    rw [isDirectoryAt, isDirectoryAt, h.at?_remove hmade hfree]
    by_cases htarget : temporary = target
    · rw [← htarget, hfile, hfree]
      rfl
    · rw [h.elsewhere target htarget]
  rw [Disk.replace?, hsame, hfile]

end HasTemporary

end Temporary

/-- Saving puts the file of the record in its place if there is one, on a disk where everything stands
as it did when the directories were made. -/
theorem exists_save_eq {made : Disk} {directory : Place} (hmade : made.Proper) (hclean : path.Clean)
    (hpossible : path.isPossible) (h : disk.makeDirectories path.parent = (made, some directory))
    (hdir : made.isDirectoryAt directory) (fields : List (Text × Json)) :
    ∃ removed : Disk, removed.Proper ∧ removed.here = made.here ∧
      (∀ p, removed.at? p = made.at? p) ∧
      save disk path fields =
        match (target? directory path).bind fun target =>
            if removed.isDirectoryAt target then none
            else some (removed.put target (.file (Text.toBytes (write fields)) disk.now)) with
        | some saved => (saved, true)
        | none => (removed, false) := by
  have hfree := at?_freshName made directory path.name
  have hcreated := (hasTemporary_start hmade hclean hpossible hdir).put ByteArray.empty disk.now
  have hwritten := hcreated.put (Text.toBytes (write fields)) disk.now
  refine ⟨_, hwritten.proper.remove _, hwritten.here, hwritten.at?_remove hmade hfree, ?_⟩
  simp only [← hwritten.replace? hmade hfree (hcreated.at?_put_self _ _)]
  simp only [save, saving, h, Bool.false_eq_true, if_false]
  split
  · rename_i hreplaced
    rw [hreplaced]
    rfl
  · rename_i hreplaced
    rw [hreplaced]
    rfl

section Target

variable {made : Disk} {directory : Place}

theorem isName_name (hclean : path.Clean) (hpossible : path.isPossible) (hparts : path.parts ≠ [])
    (hup : path.name ≠ "..".toList) : IsName path.name := by
  have hmem : path.name ∈ path.parts := by
    rw [parts_eq_concat hparts]
    exact List.mem_append_right _ (List.mem_singleton_self _)
  exact (isName_or_up hclean hpossible _ hmem).resolve_right hup

/-- Where the file of a record has no place, its path leads to no file. -/
theorem content?_of_no_target (hmade : made.Proper) (hclean : path.Clean) (hpossible : path.isPossible)
    (hparts : path.parts ≠ []) (hlocate : made.locate? path.parent = some directory)
    (hdir : made.isDirectoryAt directory)
    (htarget : ∀ target, target? directory path = some target → made.isDirectoryAt target) :
    made.content? path = none := by
  by_cases hup : path.name = "..".toList
  · have hlocate' : made.locate? path = some directory.dropLast := by
      rw [locate?_eq_bind hparts, hlocate, Option.bind_some, hup, step?_up hdir]
    exact content?_eq_none_of_isDirectoryAt hlocate'
      (hmade.isDirectoryAt_dropLast (isSome_at?_of_isDirectoryAt hdir))
  · have hname := isName_name hclean hpossible hparts hup
    have hsome : target? directory path = some (directory ++ [path.name]) :=
      if_neg (not_or.2 ⟨hname.1.1, hup⟩)
    have hin := htarget _ hsome
    obtain ⟨entry, hentry⟩ := Option.isSome_iff_exists.1 (isSome_at?_of_isDirectoryAt hin)
    have hlocate' : made.locate? path = some (directory ++ [path.name]) := by
      rw [locate?_eq_bind hparts, hlocate, Option.bind_some, step?_name hdir hname, hentry]
      rfl
    exact content?_eq_none_of_isDirectoryAt hlocate' hin

/-- The file of a record is put in its place. -/
theorem saves_put {target : Place} {content : ByteArray} {time : Time} (hmade : made.Proper)
    (hextends : Extends disk made) (hclean : path.Clean) (hpossible : path.isPossible)
    (hlocate : made.locate? path.parent = some directory) (hdir : made.isDirectoryAt directory)
    (htarget : target? directory path = some target) (hfree : ¬made.isDirectoryAt target) :
    Saves path content disk (made.put target (.file content time)) true := by
  obtain ⟨hgood, htarget⟩ := Option.ite_none_left_eq_some.1 htarget
  obtain ⟨hempty, hup⟩ := not_or.1 hgood
  obtain rfl := Option.some.inj htarget
  have hparts : path.parts ≠ [] := fun hnil => hempty (by rw [Path.name, hnil]; rfl)
  have hname := isName_name hclean hpossible hparts hup
  have hplace : made.TakesFile (directory ++ [path.name]) := by
    refine ⟨named_concat.2 ⟨hmade.named_of_at? (isSome_at?_of_isDirectoryAt hdir), hname⟩, ?_, hfree⟩
    rwa [List.dropLast_concat]
  have hkeeps := keeps_put_file hplace content time
  have hproper := hmade.put_file hplace content time
  have hat : (made.put (directory ++ [path.name]) (.file content time)).at?
      (directory ++ [path.name]) = some (.file content time) := by
    rw [at?_put hplace.ne_nil, if_pos rfl]
  have hfound : (made.put (directory ++ [path.name]) (.file content time)).locate? path =
      some (directory ++ [path.name]) := by
    rw [locate?_eq_bind hparts, hkeeps.locate? hlocate, Option.bind_some,
      step?_name (hkeeps.isDirectoryAt hdir) hname, hat]
    rfl
  have hresolve : (disk.resolve path).parts = directory ++ [path.name] := by
    rw [← parts_resolve hproper hclean hfound, resolve, resolve, hkeeps.here, hextends.here]
  refine ⟨hproper, hextends.here, fun {p entry} hp hentry => ?_, ?_⟩
  · rw [hresolve] at hp
    rw [at?_put hplace.ne_nil, if_neg (Ne.symm hp)]
    exact hextends.kept hentry
  · rw [content?, find?, hfound, Option.bind_some, hat]
    rfl

end Target

/-- The place that paths start from needs no directories. -/
theorem eq_of_makeDirectories_parent {made : Disk} {found : Option Place} (hparts : path.parts = [])
    (hmake : disk.makeDirectories path.parent = (made, found)) : made = disk := by
  have hparent : path.parent.parts = [] := by
    rw [Path.parent, hparts]
    rfl
  rw [makeDirectories, hparent] at hmake
  exact (congrArg Prod.fst hmake).symm

/-- **Saving a record.**  The file of the record holds the text if it could be saved, and is what it was
otherwise; everything else stays. -/
theorem saves_save (hproper : disk.Proper) (hclean : path.Clean) (hsave : canSave disk path)
    (fields : List (Text × Json)) :
    Saves path (Text.toBytes (write fields)) disk (save disk path fields).1
      (save disk path fields).2 := by
  obtain ⟨hparent, hsave⟩ := Bool.and_eq_true_iff.1 hsave
  obtain ⟨hmade, hextends, hdirectory⟩ := makeDirectories_spec hproper hclean.parent hparent
  obtain ⟨made, found, hmake⟩ : ∃ made found, disk.makeDirectories path.parent = (made, found) :=
    ⟨_, _, rfl⟩
  rw [hmake] at hmade hextends hdirectory hsave
  cases found with
  | none =>
    have hsave : save disk path fields = (made, false) := by
      simp only [save, saving, hmake]
      rfl
    rw [hsave]
    refine saves_of_extends hmade hextends (fun hparts => ?_) fun hparts => ?_
    · rw [eq_of_makeDirectories_parent hparts hmake]
      exact .refl disk
    · exact content?_of_no_directory hparts hdirectory.symm
  | some directory =>
    have hpossible : path.isPossible := (Bool.or_eq_true_iff.1 hsave).resolve_right Bool.false_ne_true
    obtain ⟨hlocate, hdir⟩ := Option.filter_eq_some_iff.1 hdirectory.symm
    obtain ⟨removed, hproper', hhere, hat, hsave⟩ :=
      exists_save_eq hmade hclean hpossible hmake hdir fields
    have hback : Extends made removed := ⟨hhere, fun hentry => (hat _).trans hentry⟩
    have hforth : Extends removed made := ⟨hhere.symm, fun hentry => (hat _).symm.trans hentry⟩
    have hlocate' := hback.keeps.locate? hlocate
    have hdir' := hback.keeps.isDirectoryAt hdir
    rw [hsave]
    cases hreplaced : (target? directory path).bind fun target =>
        if removed.isDirectoryAt target then none
        else some (removed.put target (.file (Text.toBytes (write fields)) disk.now)) with
    | none =>
      refine saves_of_extends hproper' (hextends.trans hback) (fun hparts => ?_) fun hparts => ?_
      · rwa [eq_of_makeDirectories_parent hparts hmake] at hforth
      · refine content?_of_no_target hproper' hclean hpossible hparts hlocate' hdir' ?_
        intro target htarget
        by_contra hnot
        rw [htarget, Option.bind_some, if_neg hnot] at hreplaced
        cases hreplaced
    | some saved =>
      obtain ⟨target, htarget, hsaved⟩ := Option.bind_eq_some_iff.1 hreplaced
      obtain ⟨hnot, hsaved⟩ := Option.ite_none_left_eq_some.1 hsaved
      obtain rfl := Option.some.inj hsaved
      exact saves_put hproper' (hextends.trans hback) hclean hpossible hlocate' hdir' htarget hnot

/-- A record that was saved is loaded again, and where saving failed the old one is. -/
theorem load_save (hproper : disk.Proper) (hclean : path.Clean) (hsave : canSave disk path)
    {record : Record} (hsound : Sound record) :
    load (save disk path (fields record)).1 path =
      if (save disk path (fields record)).2 then .ok (sorted record) else load disk path := by
  have hcontent := (saves_save hproper hclean hsave (fields record)).content
  cases hok : (save disk path (fields record)).2 with
  | false =>
    rw [hok, if_neg Bool.false_ne_true] at hcontent
    rw [if_neg Bool.false_ne_true, load, load, hcontent]
  | true =>
    rw [hok, if_pos rfl] at hcontent
    rw [if_pos rfl, load, hcontent]
    simp only [ofFile?_write hsound, ofText_write hsound]

/-! ## Recording times -/

theorem sound_refresh {record refreshed : Record} {files : List Text} (hsound : Sound record)
    (h : refresh disk record files = .ok refreshed) : Sound refreshed := by
  induction files generalizing record with
  | nil =>
    obtain rfl := Except.ok.inj h
    exact hsound
  | cons file files ih =>
    obtain ⟨time, htime, h⟩ := bind_eq_ok.1 h
    have htime := modified?_eq_ok htime
    cases time with
    | none => exact ih hsound h
    | some time =>
      obtain ⟨entry, -, rfl⟩ := Option.map_eq_some_iff.1 htime.symm
      exact ih (hsound.put file entry.modified.canonical_toDouble) h

/-- The record that is saved when the times of some files are recorded. -/
def recorded (disk : Disk) (path : Path) (files : List Text) : Except Failure Record := do
  let record ← refresh disk (← load disk path) files
  if canSave disk path then return record.filter fun entry => isThere disk entry.1
  else throw .impossiblePath

/-- What is recorded can be saved. -/
theorem canSave_of_recorded {files : List Text} {new : Record} (h : recorded disk path files = .ok new) :
    canSave disk path := by
  obtain ⟨old, -, h⟩ := bind_eq_ok.1 h
  obtain ⟨refreshed, -, h⟩ := bind_eq_ok.1 h
  split at h
  · assumption
  · cases h

theorem update_eq (disk : Disk) (path : Path) (files : List Text) :
    update disk path files =
      (recorded disk path files).map fun record => (save disk path (fields record)).1 := by
  rw [update, recorded]
  cases load disk path with
  | error failure => rfl
  | ok record =>
    rw [ok_bind, ok_bind]
    cases refresh disk record files with
    | error failure => rfl
    | ok refreshed =>
      rw [ok_bind, ok_bind]
      split <;> rfl

/-- After the times of some files were recorded, the record holds the time of each of them that is there,
and of other files that are there what it held before; where it was not saved, all is as before. -/
theorem exists_load_recorded (hproper : disk.Proper) (hclean : path.Clean) {old new : Record}
    (hold : load disk path = .ok old) {files : List Text} (hnew : recorded disk path files = .ok new) :
    ∃ stored, load (save disk path (fields new)).1 path = .ok stored ∧
      ∀ file entry, isThere disk file → disk.findText? file = some entry →
        Pairs.get? file stored =
          if (save disk path (fields new)).2 ∧ file ∈ files then some entry.modified.toDouble
          else Pairs.get? file old := by
  have hsave := canSave_of_recorded hnew
  rw [recorded, hold, ok_bind] at hnew
  obtain ⟨refreshed, hrefresh, hnew⟩ := bind_eq_ok.1 hnew
  rw [if_pos hsave] at hnew
  have hsound : Sound new := by
    obtain rfl := Except.ok.inj hnew
    exact (sound_refresh (sound_of_load hold) hrefresh).sublist List.filter_sublist
  rw [load_save hproper hclean hsave hsound]
  cases (save disk path (fields new)).2 with
  | false => exact ⟨old, hold, fun file entry _ _ => (if_neg (by simp)).symm⟩
  | true =>
    refine ⟨sorted new, rfl, fun file entry hthere hfile => ?_⟩
    obtain rfl := Except.ok.inj hnew
    rw [get?_sorted hsound, Pairs.get?_filter (p := isThere disk) hthere, get?_refresh hrefresh, hfile]
    simp

end Record

end Scan

end TemplateAudit
