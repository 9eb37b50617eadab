import TemplateAudit.Config.Settings
import TemplateAudit.Disk.Basic
import TemplateAudit.Template.Reference
import TemplateAudit.Text.Blank
import TemplateAudit.Text.Glob

/-!
# The tree of views

Where the templates of an application stand, and how the names of partials and layouts lead to files
there.
-/

namespace TemplateAudit

namespace Page

/-- A tree of templates: the disk it is on, its root as an absolute path, and the settings that say
how it is laid out. -/
structure Views where
  disk : Disk
  root : Path
  settings : Settings

/-- A partial name that cannot be looked for: it holds two stars in a row. -/
structure BadName where
  name : Text
  deriving DecidableEq, Repr

namespace Views

/-! ## Files -/

/-- The text of a template, its lines ending in newlines; a file that is no text is as good as
missing. -/
def text? (views : Views) (path : Path) : Option Text :=
  views.disk.text? path

/-- The first file whose path is the given one with one of the extensions after it. -/
def withExtension? (views : Views) (base : Path) : Option Path :=
  let candidates := views.settings.extensions.map fun extension =>
    base.parent.child (base.name ++ extension)
  (candidates.find? views.disk.isFile).map views.disk.resolve

/-- The file of an entry: a path as it is given, or else from the root of the tree on. -/
def entryFile? (views : Views) (entry : Path) : Option Path :=
  let path := if entry.isAbsolute || views.disk.holds entry then entry else views.root.join entry
  if views.disk.isFile path then some (views.disk.resolve path) else none

/-! ## Layouts -/

/-- The directories in which the layout of an entry may stand. -/
def layoutDirectories (views : Views) (entry : Path) : List Path :=
  [views.root.child views.settings.layoutsDir, entry.parent, views.root]

/-- The names of layouts to be tried: the one that the source names, and the default one. -/
def layoutNames (views : Views) (source : Text) : List Text :=
  (Template.layout? source).toList ++ [views.settings.defaultLayout]

/-- The layout of an entry; no template is its own layout. -/
def layout? (views : Views) (entry : Path) (source : Text) : Option Path :=
  let bases := (views.layoutNames source).flatMap fun name =>
    (views.layoutDirectories entry).map fun directory => directory.child name
  (bases.filterMap views.withExtension?).find? (· != entry)

/-! ## Partials -/

/-- The name of the file of a partial. -/
def fileName (base : Text) : Text :=
  '_' :: base.dropWhile (· == '_')

/-- The files below the root whose name is that of a given partial, with some extension. -/
def filesNamed (views : Views) (name : Text) : List Place :=
  match views.disk.locate? views.root with
  | none => []
  | some root =>
    if views.disk.isDirectoryAt root then
      (views.disk.filesBelow root).filter fun place =>
        let file := place.getLastD []
        Glob.fits (Glob.ofText (name ++ ".*")) file && views.settings.baseName? file == some name
    else []

/-- The only file below the root that has the name of a partial. -/
def search? (views : Views) (name : Text) : Except BadName (Option Path) :=
  if Text.occursIn "**" name then .error ⟨name⟩
  else
    match views.filesNamed name with
    | [place] => .ok (some (views.disk.resolve ⟨1, place⟩))
    | _ => .ok none

/-- The directories in which a partial without a directory of its own is looked for first. -/
def partialDirectories (views : Views) (referrer : Path) : List Path :=
  referrer.parent :: views.settings.sharedDirs.map views.root.child

/-- The file of a partial that a template refers to by a name.  A name with a directory starts from
the root; a plain name is looked for beside the template, then in the shared directories, and then in
the whole tree, where only one file may have it. -/
def partial? (views : Views) (name : Text) (referrer : Path) : Except BadName (Option Path) :=
  let name := Text.trimChar '/' (Text.trim name)
  if name.isEmpty then .ok none
  else
    match Text.cutAtLast '/' name with
    | some (directory, base) =>
      .ok (views.withExtension? ((views.root.child directory).child (fileName base)))
    | none =>
      let file := fileName name
      match (views.partialDirectories referrer).findSome? fun directory =>
          views.withExtension? (directory.child file) with
      | some found => .ok (some found)
      | none => views.search? file

/-- The file of a reference: that of the first of its names that leads to one. -/
def reference? (views : Views) (referrer : Path) : Template.Reference → Except BadName (Option Path)
  | [] => .ok none
  | name :: names =>
    match views.partial? name referrer with
    | .ok none => views.reference? referrer names
    | found => found

/-! ## All templates -/

/-- The templates below the root, in the order of their paths. -/
def templates (views : Views) : List Path :=
  match views.disk.locate? views.root with
  | none => []
  | some root =>
    if views.disk.isDirectoryAt root then
      let files := (views.disk.filesBelow root).filter fun place =>
        views.settings.isTemplate (place.getLastD [])
      (files.map fun place => views.disk.resolve ⟨1, place⟩).mergeSort fun a b =>
        Text.atMost a.toText b.toText
    else []

/-- Is a template a view that is rendered as a page, neither a partial nor a layout? -/
def isEntry (views : Views) (path : Path) : Bool :=
  if path.name.head? = some '_' then false
  else if !path.isPossible then true
  else
    match views.root.parts.isPrefixOf? (views.disk.resolve path).parts with
    | some parts => !parts.dropLast.contains views.settings.layoutsDir
    | none => true

end Views

end Page

end TemplateAudit
