import TemplateAudit.Path
import TemplateAudit.Shape

/-!
# Settings of a scan

The conventions of a template tree, what its files are called and where its layouts and shared
partials stand, and the limits of a scan.
-/

namespace TemplateAudit

open Shape

/-- The settings of a scan. -/
structure Settings where
  /-- What the name of a template ends in; the first that fits counts. -/
  extensions : List Text
  /-- The directory of the layouts. -/
  layoutsDir : Text
  /-- The layout of a view that names none. -/
  defaultLayout : Text
  /-- The directories of partials that are used everywhere. -/
  sharedDirs : List Text
  /-- How deep partials are followed. -/
  maxDepth : Nat
  /-- How many files make up a page at most. -/
  maxFiles : Nat
  /-- Where the record of the last scan is kept. -/
  stateFile : Text
  /-- Are pages examined as a whole? -/
  composePages : Bool
  /-- Are warnings left out? -/
  ignoreWarnings : Bool
  /-- How much of the text of an element a finding keeps. -/
  textLimit : Nat
  deriving DecidableEq, Repr

namespace Settings

/-- The settings where none are given.  Of two extensions where one ends in the other the longer comes
first. -/
def default : Settings where
  extensions := [".html.erb", ".html.haml", ".html.slim", ".erb", ".html"]
  layoutsDir := "layouts"
  defaultLayout := "application"
  sharedDirs := ["layouts", "shared", "application"]
  maxDepth := 25
  maxFiles := 200
  stateFile := "tmp/.a11y_auditor_state.json"
  composePages := true
  ignoreWarnings := false
  textLimit := 100

/-! ## Questions -/

/-- The name of a file without an extension that it ends in, when there is more to it than that.  An
empty extension takes the whole name away. -/
def nameBefore? (file extension : Text) : Option Text :=
  if Text.endsWith extension file && extension.length < file.length then
    some (if extension.isEmpty then [] else file.take (file.length - extension.length))
  else none

/-- The name of a template without its extension; nothing when it is the name of no template. -/
def baseName? (settings : Settings) (file : Text) : Option Text :=
  settings.extensions.findSome? (nameBefore? file)

/-- Is a file a template, by its name? -/
def isTemplate (settings : Settings) (file : Text) : Bool :=
  (settings.baseName? file).isSome

/-- Where the record is kept for a tree of templates at an absolute path; a relative place starts
from where the tree stands, if it can stand anywhere. -/
def statePath? (settings : Settings) (templates : Option Path) : Option Path :=
  let path := Path.ofText settings.stateFile
  if path.isAbsolute then some path else templates.map fun templates => templates.parent.join path

/-! ## Data -/

/-- The settings that the fields of an object give. -/
def ofFields (fields : List (Text × Json)) : Checked Settings :=
  Settings.mk <$> withDefault "template_extensions" (list string) default.extensions fields
    <*> withDefault "layouts_dir" string default.layoutsDir fields
    <*> withDefault "default_layout" string default.defaultLayout fields
    <*> withDefault "shared_dirs" (list string) default.sharedDirs fields
    <*> withDefault "max_depth" positive default.maxDepth fields
    <*> withDefault "max_files" positive default.maxFiles fields
    <*> withDefault "state_file" string default.stateFile fields
    <*> withDefault "compose_pages" switch default.composePages fields
    <*> withDefault "ignore_warnings" switch default.ignoreWarnings fields
    <*> withDefault "text_limit" positive default.textLimit fields

/-- Texts, as data. -/
def textsToJson (items : List Text) : Json :=
  .arr (items.map .str)

/-- The settings, as data. -/
def toJson (settings : Settings) : Json :=
  .obj [("template_extensions", textsToJson settings.extensions),
    ("layouts_dir", .str settings.layoutsDir), ("default_layout", .str settings.defaultLayout),
    ("shared_dirs", textsToJson settings.sharedDirs), ("max_depth", .int settings.maxDepth),
    ("max_files", .int settings.maxFiles), ("state_file", .str settings.stateFile),
    ("compose_pages", .bool settings.composePages),
    ("ignore_warnings", .bool settings.ignoreWarnings), ("text_limit", .int settings.textLimit)]

end Settings

end TemplateAudit
