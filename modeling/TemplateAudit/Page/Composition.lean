import TemplateAudit.Page.Views

/-!
# The files of a page

A page is put together from an entry, its layout and the partials that these refer to, directly or
through others.  The files are listed in this order: the layout, the entry, the partials of the entry
in depth, the partials of the layout in depth.  No file is listed twice, and two limits keep the
walk through the references finite: one on their depth and one on the number of files.
-/

namespace TemplateAudit

namespace Page

/-- The files of a page, with the text of each. -/
structure Composition where
  entry : Option Path
  layout : Option Path
  files : List Path
  sources : List (Path × Text)
  deriving DecidableEq, Repr

namespace Composition

/-- No page. -/
def empty : Composition :=
  ⟨none, none, [], []⟩

/-- The index of the file with a given path as text; a path that is not listed comes after all
files. -/
def indexOf (page : Composition) (path : Text) : Nat :=
  (page.files.map Path.toText).findIdx (· == path)

/-- The page without the texts of some files. -/
def withoutSources (page : Composition) (paths : List Text) : Composition :=
  { page with sources := page.sources.filter fun source => !paths.contains source.1.toText }

end Composition

/-! ## The walk through the references -/

/-- A file whose references are being followed: how deep it lies, and the references left. -/
structure Frame where
  path : Path
  depth : Nat
  references : List Template.Reference
  deriving Repr

/-- How many steps the frames take when nothing is found. -/
def stepsLeft : List Frame → Nat
  | [] => 0
  | frame :: frames => frame.references.length + 1 + stepsLeft frames

namespace Views

/-- The files listed so far, and those that the references of some frames add.  A reference adds a
file that is not listed yet and can be read; the walk stops at a reference to one more file than
there may be. -/
def follow (views : Views) : List Frame → List Path → Except BadName (List Path)
  | [], files => .ok files
  | ⟨_, _, []⟩ :: frames, files => views.follow frames files
  | ⟨path, depth, reference :: references⟩ :: frames, files =>
    let frames := ⟨path, depth, references⟩ :: frames
    match views.reference? path reference with
    | .error problem => .error problem
    | .ok none => views.follow frames files
    | .ok (some found) =>
      if files.contains found then views.follow frames files
      else if views.settings.maxFiles ≤ files.length then .ok files
      else
        match views.text? found with
        | none => views.follow frames files
        | some source =>
          if views.settings.maxDepth ≤ depth + 1 then views.follow frames (files ++ [found])
          else
            views.follow (⟨found, depth + 1, Template.references source⟩ :: frames)
              (files ++ [found])
termination_by frames files => (views.settings.maxFiles - files.length, stepsLeft frames)
decreasing_by
  all_goals simp only [stepsLeft, List.length_append, List.length_cons, List.length_nil]
  all_goals first
    | exact Prod.Lex.right _ (by omega)
    | exact Prod.Lex.left _ _ (by omega)

/-- The files listed so far, and those that the references of one file add. -/
def followFrom (views : Views) (path : Path) (source : Text) (files : List Path) :
    Except BadName (List Path) :=
  views.follow [⟨path, 0, Template.references source⟩] files

/-! ## The page -/

/-- The layout of an entry with its text, if it can be read. -/
def layoutWithText? (views : Views) (entry : Path) (source : Text) : Option (Path × Text) :=
  (views.layout? entry source).bind fun layout => (views.text? layout).map (layout, ·)

/-- The files of the page of an entry, given their texts. -/
def filesOf (views : Views) (entry : Path) (source : Text) (layout : Option (Path × Text)) :
    Except BadName (List Path) := do
  let files ← views.followFrom entry source ((layout.map Prod.fst).toList ++ [entry])
  match layout with
  | some (path, text) => views.followFrom path text files
  | none => return files

/-- The page of an entry; an entry that is no readable file has none. -/
def compose (views : Views) (entry : Path) : Except BadName Composition :=
  match (views.entryFile? entry).bind fun path => (views.text? path).map (path, ·) with
  | none => .ok .empty
  | some (path, source) => do
    let layout := views.layoutWithText? path source
    let files ← views.filesOf path source layout
    return ⟨some path, layout.map Prod.fst, files,
      files.filterMap fun file => (views.text? file).map (file, ·)⟩

end Views

end Page

end TemplateAudit
