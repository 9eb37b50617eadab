import TemplateAudit.Proofs.Page.Names
import TemplateAudit.Proofs.Path
import TemplateAudit.Proofs.Text.Inflection

/-!
# Where a partial is found

A partial with a plain name is meant to be the first file of its name beside the template or in a shared directory,
or else the only one in the whole tree (`Views.meant?`).  The tree is searched with the name as a pattern, so that
this is what is found only where no bracket in the name makes a set of characters, no two stars stand in it and every
extension begins with a point (`Views.partial?_plain`).
-/

namespace TemplateAudit

/-! ## Patterns made of names -/

namespace Glob

variable {pieces : List Piece} {s t u name : Text}

theorem fits_many (h : fits pieces s = true) : fits (.many :: pieces) s = true := by
  cases s with
  | nil => rwa [fits]
  | cons c s => rw [fits, h, Bool.true_or]

theorem fits_many_nil (s : Text) : fits [.many] s = true := by
  induction s with
  | nil => exact fits_many (by rw [fits]; rfl)
  | cons c s ih => rw [fits, ih, Bool.or_true]

/-- Does no bracket of a name open a set of characters? -/
def OpensNoSet (name : Text) : Prop :=
  ∀ before after, name = before ++ '[' :: after → ']' ∉ after

theorem set?_eq_none (h : ']' ∉ s) : set? s = none := by
  have hbody : ']' ∉ (if s.head? = some '!' then s.drop 1 else s) := by
    split
    · exact fun hin => h (List.mem_of_mem_drop hin)
    · exact h
  rw [set?]
  split
  · rfl
  · rename_i c rest heq
    rw [heq] at hbody
    rw [Text.cutAtChar_eq_none fun hin => hbody (List.mem_cons_of_mem c hin)]
    rfl

/-- A name without sets, taken as a pattern, stands for itself. -/
theorem fits_append (hname : OpensNoSet name) (hu : ']' ∉ u) (h : fits (piecesFrom 0 u) t = true) :
    fits (piecesFrom 0 (name ++ u)) (name ++ t) = true := by
  induction name with
  | nil => exact h
  | cons c name ih =>
    have hrest := ih fun before after heq => hname (c :: before) after (by rw [heq]; rfl)
    rw [List.cons_append, List.cons_append]
    by_cases hmany : c = '*'
    · -- the star stands for itself, and for nothing more
      subst hmany
      rw [piecesFrom, fits, fits_many hrest, Bool.or_true]
    · by_cases hone : c = '?'
      · subst hone
        rw [piecesFrom, fits, hrest]
        · rfl
        · rintro ⟨⟩
      · have hself : fits (.exactly c :: piecesFrom 0 (name ++ u)) (c :: (name ++ t)) = true := by
          rw [fits, hrest]
          · simp [Piece.admits]
          · rintro ⟨⟩
        by_cases hset : c = '['
        · subst hset
          have hnone : set? (name ++ u) = none := set?_eq_none fun hin =>
            (List.mem_append.1 hin).elim (hname [] name rfl) hu
          rwa [piecesFrom, hnone]
        · rwa [piecesFrom.eq_6 _ _ (by simpa using hmany) (by simpa using hone) (by simpa using hset)]

end Glob

namespace Page

namespace Views

variable {views : Views} {referrer : Path} {name file : Text}

/-! ## What is meant -/

/-- The name of a partial without what may stand around it. -/
def plainName (name : Text) : Text :=
  Text.trimChar '/' (Text.trim name)

/-- The name of its file, without the extension. -/
def partialFile (name : Text) : Text :=
  fileName (plainName name)

/-- Where a partial may stand that need not be searched for: beside the template and then in each shared directory,
with each of the extensions. -/
def candidates (views : Views) (referrer : Path) (file : Text) : List Path :=
  (views.partialDirectories referrer).flatMap fun directory =>
    views.settings.extensions.map fun extension => directory.child (file ++ extension)

/-- The first file among these. -/
def beside? (views : Views) (referrer : Path) (file : Text) : Option Path :=
  ((views.candidates referrer file).find? views.disk.isFile).map views.disk.resolve

/-- All files in the tree whose names are that of the partial, but for an extension. -/
def partialsNamed (views : Views) (file : Text) : List Place :=
  match views.disk.locate? views.root with
  | none => []
  | some root =>
    if views.disk.isDirectoryAt root then
      (views.disk.filesBelow root).filter fun place => views.settings.baseName? (place.getLastD []) == some file
    else []

/-- The path of the only one of some files. -/
def only? (views : Views) : List Place → Option Path
  | [place] => some (views.disk.resolve ⟨1, place⟩)
  | _ => none

/-- The file that a plain name means: the first that need not be searched for, or else the only one in the tree. -/
def meant? (views : Views) (referrer : Path) (file : Text) : Option Path :=
  (views.beside? referrer file).or (views.only? (views.partialsNamed file))

/-- Those of the files in the tree that the name of the partial, taken as a pattern, stands for as well. -/
def partialsMatching (views : Views) (file : Text) : List Place :=
  (views.partialsNamed file).filter fun place => Glob.fits (Glob.ofText (file ++ ".*")) (place.getLastD [])

/-- Every extension begins with a point. -/
def Dotted (views : Views) : Prop :=
  ∀ extension ∈ views.settings.extensions, extension ≠ [] → extension.head? = some '.'

/-! ## What is found -/

/-- One step down and one up again. -/
theorem child_eq (hfile : Path.IsPart file) (directory : Path) :
    (directory.child file).parent = directory ∧ (directory.child file).name = file := by
  have hparts : Path.partsOf file = [file] := by
    rw [Path.partsOf, Text.splitAtChar_of_not_mem hfile.2.2, List.filter_eq_self]
    intro part hpart
    rw [List.mem_singleton.1 hpart]
    simp [hfile.1, hfile.2.1]
  have hslashes : Path.slashesOf file = 0 := by
    unfold Path.slashesOf
    split
    · exact absurd List.mem_cons_self hfile.2.2
    · exact absurd List.mem_cons_self hfile.2.2
    · exact absurd List.mem_cons_self hfile.2.2
    · rfl
  have hchild : directory.child file = { directory with parts := directory.parts ++ [file] } := by
    rw [Path.child, Path.join, Path.ofText, hparts, hslashes]
    rfl
  rw [hchild]
  exact ⟨congrArg (Path.mk _) List.dropLast_concat, by simp [Path.name]⟩

/-- Looking into one directory after the other is looking through all that may stand in them. -/
theorem findSome?_withExtension? (hfile : Path.IsPart file) :
    (views.partialDirectories referrer).findSome? (fun directory => views.withExtension? (directory.child file)) =
      views.beside? referrer file := by
  rw [beside?, candidates]
  induction views.partialDirectories referrer with
  | nil => rfl
  | cons directory directories ih =>
    obtain ⟨hparent, hname⟩ := child_eq hfile directory
    rw [List.findSome?_cons, ih, withExtension?, hparent, hname, List.flatMap_cons, List.find?_append]
    cases (views.settings.extensions.map fun extension => directory.child (file ++ extension)).find? views.disk.isFile
    all_goals rfl

theorem filesNamed_eq (file : Text) : views.filesNamed file = views.partialsMatching file := by
  rw [filesNamed, partialsMatching, partialsNamed]
  cases views.disk.locate? views.root with
  | none => rfl
  | some root =>
    dsimp only
    split
    · rw [List.filter_filter]
    · rfl

theorem search?_eq (file : Text) : views.search? file =
    if Text.occursIn "**" file then .error ⟨file⟩ else .ok (views.only? (views.partialsMatching file)) := by
  rw [search?, filesNamed_eq]
  split
  · rfl
  · -- none, one or several files
    rcases views.partialsMatching file with _ | ⟨place, _ | ⟨other, places⟩⟩ <;> rfl

/-- A name that holds a partial is that of the partial and an extension. -/
theorem exists_extension (hfile : file ≠ []) {whole : Text} (h : views.settings.baseName? whole = some file) :
    ∃ extension ∈ views.settings.extensions, extension ≠ [] ∧ whole = file ++ extension := by
  obtain ⟨extension, hmem, hbefore⟩ := List.exists_of_findSome?_eq_some h
  rw [Settings.nameBefore?, Option.ite_none_right_eq_some, Bool.and_eq_true] at hbefore
  obtain ⟨⟨hends, -⟩, hbase⟩ := hbefore
  obtain ⟨start, rfl⟩ := Text.endsWith_iff.1 hends
  have hextension : extension ≠ [] := by
    rintro rfl
    exact hfile (Option.some.inj hbase).symm
  rw [if_neg (by simpa using hextension), List.length_append, Nat.add_sub_cancel, List.take_left] at hbase
  exact ⟨extension, hmem, hextension, by rw [Option.some.inj hbase]⟩

/-- A name without sets misses no file when every extension begins with a point. -/
theorem partialsMatching_eq (hfile : file ≠ []) (hsets : Glob.OpensNoSet file) (hdotted : views.Dotted) :
    views.partialsMatching file = views.partialsNamed file := by
  refine List.filter_eq_self.2 fun place hplace => ?_
  have hbase : views.settings.baseName? (place.getLastD []) = some file := by
    rw [partialsNamed] at hplace
    split at hplace
    · cases hplace
    · split at hplace
      · exact eq_of_beq (List.mem_filter.1 hplace).2
      · cases hplace
  obtain ⟨extension, hmem, hextension, hwhole⟩ := exists_extension hfile hbase
  obtain ⟨more, rfl⟩ := List.head?_eq_some_iff.1 (hdotted extension hmem hextension)
  have hmany : Glob.fits (Glob.piecesFrom 0 ".*") ('.' :: more) = true := by
    have hpieces : Glob.piecesFrom 0 ".*" = [.exactly '.', .many] := rfl
    rw [hpieces, Glob.fits, Glob.fits_many_nil]
    · rfl
    · rintro ⟨⟩
  rw [hwhole]
  exact Glob.fits_append hsets (by decide) hmany

section Plain

variable (hname : plainName name ≠ []) (hslash : '/' ∉ plainName name)
include hslash

theorem isPart_fileName : Path.IsPart (fileName (plainName name)) := by
  refine ⟨List.cons_ne_nil _ _, fun heq => ?_, fun hin => ?_⟩
  · exact absurd (List.cons.inj heq).1 (by decide)
  · rcases List.mem_cons.1 hin with heq | hin
    · exact absurd heq (by decide)
    · exact hslash ((List.dropWhile_sublist _).subset hin)

include hname

theorem partial?_plain : views.partial? name referrer =
    match views.beside? referrer (partialFile name) with
    | some found => .ok (some found)
    | none => views.search? (partialFile name) := by
  have hempty : (plainName name).isEmpty = false := List.isEmpty_eq_false_iff.2 hname
  rw [partialFile, ← findSome?_withExtension? (isPart_fileName hslash), partial?]
  rw [plainName] at hempty hslash ⊢
  simp only [hempty, Text.cutAtLast_eq_none hslash]
  rfl

end Plain

/-- A tree with one partial, which has a set of characters in its name. -/
def bracketed : Views where
  disk :=
    { here := []
      entries := [(["views".toList], .directory Disk.noTime), (["views".toList, "deep".toList], .directory Disk.noTime),
        (["views".toList, "deep".toList, "_a[1].html.erb".toList], .file ⟨#[]⟩ Disk.noTime)] }
  root := ⟨1, ["views".toList]⟩
  settings := Settings.default

end Views

end Page

end TemplateAudit
