import TemplateAudit.Disk.Time
import TemplateAudit.Pairs
import TemplateAudit.Path
import TemplateAudit.Text.Stored

/-!
# Disks

A disk holds files and directories, each with the time of its last change.  A place on it is given by
the names from the root down.  A path leads to a place step by step: every step has to start in a
directory, and `..` goes up.
-/

namespace TemplateAudit

/-- What stands at a place. -/
inductive Entry where
  | file (content : ByteArray) (modified : Disk.Time)
  | directory (modified : Disk.Time)
  deriving Inhabited

namespace Entry

/-- The time of the last change. -/
def modified : Entry → Disk.Time
  | file _ time => time
  | directory time => time

/-- The entry with another time. -/
def changedAt (time : Disk.Time) : Entry → Entry
  | file content _ => file content time
  | directory _ => directory time

/-- Is it a directory? -/
def isDirectory : Entry → Bool
  | file _ _ => false
  | directory _ => true

/-- The content of a file. -/
def content? : Entry → Option ByteArray
  | file content _ => some content
  | directory _ => none

end Entry

/-- A place: the names from the root down. -/
abbrev Place := List Text

/-- A disk, with the place that relative paths start from. -/
structure Disk where
  here : Place
  entries : List (Place × Entry)

namespace Disk

/-! ## Places -/

/-- The time of an entry that nobody gave a time. -/
def noTime : Time :=
  ⟨0, 0⟩

/-- The time that the disk gives to what is written now: a second after the latest time of its entries,
so that no entry has it yet. -/
def now (disk : Disk) : Time :=
  ⟨disk.entries.foldl (fun latest entry => max latest entry.2.modified.seconds) 0 + 1, 0⟩

/-- What stands at a place; the root is always there. -/
def at? (disk : Disk) (place : Place) : Option Entry :=
  match place with
  | [] => some (.directory noTime)
  | place => Pairs.get? place disk.entries

/-- Is there a directory at a place? -/
def isDirectoryAt (disk : Disk) (place : Place) : Bool :=
  (disk.at? place).any Entry.isDirectory

/-- The place that one part of a path leads to from another place. -/
def step? (disk : Disk) (place : Place) (part : Text) : Option Place :=
  if disk.isDirectoryAt place then
    if part.isEmpty || part == ['.'] then some place
    else if part == ['.', '.'] then some place.dropLast
    else (disk.at? (place ++ [part])).map fun _ => place ++ [part]
  else none

/-- The place that the parts of a path lead to from another place. -/
def walk? (disk : Disk) : Place → List Text → Option Place
  | place, [] => some place
  | place, part :: parts =>
    match disk.step? place part with
    | some next => disk.walk? next parts
    | none => none

/-! ## Paths -/

/-- The place that a path starts from. -/
def startOf (disk : Disk) (path : Path) : Place :=
  if path.isAbsolute then [] else disk.here

/-- The place that a path leads to. -/
def locate? (disk : Disk) (path : Path) : Option Place :=
  disk.walk? (disk.startOf path) path.parts

/-- What a path leads to. -/
def find? (disk : Disk) (path : Path) : Option Entry :=
  (disk.locate? path).bind disk.at?

/-- What the path that a text writes leads to.  Here a slash at the end asks for a directory, and an
empty text leads nowhere. -/
def findText? (disk : Disk) (s : Text) : Option Entry :=
  if s.isEmpty then none
  else (disk.walk? (if s.head? = some '/' then [] else disk.here) (Text.splitAtChar '/' s)).bind disk.at?

/-- Does a path lead to something? -/
def holds (disk : Disk) (path : Path) : Bool :=
  (disk.find? path).isSome

/-- Does a path lead to a file? -/
def isFile (disk : Disk) (path : Path) : Bool :=
  (disk.find? path).any fun entry => !entry.isDirectory

/-- Does a path lead to a directory? -/
def isDirectory (disk : Disk) (path : Path) : Bool :=
  (disk.find? path).any Entry.isDirectory

/-- The content of the file that a path leads to. -/
def content? (disk : Disk) (path : Path) : Option ByteArray :=
  (disk.find? path).bind Entry.content?

/-- The text of the file that a path leads to, its lines ending in newlines. -/
def text? (disk : Disk) (path : Path) : Option Text :=
  (disk.content? path).bind Text.ofFile?

/-- A path from the root on, without `..`; nothing in between is looked up. -/
def resolve (disk : Disk) (path : Path) : Path :=
  ⟨1, Path.simplify (if path.isAbsolute then path.parts else disk.here ++ path.parts)⟩

/-! ## Directories -/

/-- The names of what stands directly at a place. -/
def namesAt (disk : Disk) (place : Place) : List Text :=
  disk.entries.filterMap fun entry =>
    if entry.1.dropLast = place ∧ entry.1 ≠ [] then entry.1.getLast? else none

/-- The places of the files below a place. -/
def filesBelow (disk : Disk) (place : Place) : List Place :=
  disk.entries.filterMap fun entry =>
    if place.isPrefixOf entry.1 && !entry.2.isDirectory then some entry.1 else none

end Disk

end TemplateAudit
