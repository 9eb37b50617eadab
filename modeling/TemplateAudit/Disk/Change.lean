import TemplateAudit.Disk.Basic

/-!
# Changing a disk

Files are written, removed and moved, and directories are made.  A directory is removed with
everything in it.
-/

namespace TemplateAudit

namespace Disk

/-! ## Single entries -/

/-- The disk with an entry at a place. -/
def put (disk : Disk) (place : Place) (entry : Entry) : Disk :=
  { disk with entries := Pairs.put place entry disk.entries }

/-- The disk without what stands at a place or below it. -/
def remove (disk : Disk) (place : Place) : Disk :=
  { disk with entries := disk.entries.filter fun entry => !place.isPrefixOf entry.1 }

/-- The disk with a given time for what stands at a place. -/
def setTime (disk : Disk) (place : Place) (time : Time) : Disk :=
  match disk.at? place with
  | some entry => disk.put place (entry.changedAt time)
  | none => disk

/-! ## Directories -/

/-- One more part of a path is followed; where nothing stands a directory is made. -/
def makeStep (state : Disk × Option Place) (part : Text) : Disk × Option Place :=
  match state with
  | (disk, none) => (disk, none)
  | (disk, some place) =>
    match disk.step? place part with
    | some next => (disk, some next)
    | none =>
      if disk.isDirectoryAt place then
        (disk.put (place ++ [part]) (.directory noTime), some (place ++ [part]))
      else (disk, none)

/-- The disk where a path leads to a directory, as far as that can be done, and the place of the
directory; nothing when a file stands in the way. -/
def makeDirectories (disk : Disk) (path : Path) : Disk × Option Place :=
  let made := path.parts.foldl makeStep (disk, some (disk.startOf path))
  (made.1, made.2.filter made.1.isDirectoryAt)

/-! ## Files -/

/-- The disk with a file where a path leads to; directories on the way are made. -/
def writeFile (disk : Disk) (path : Path) (content : ByteArray) (time : Time) : Disk :=
  match disk.makeDirectories path.parent with
  | (made, some directory) => made.put (directory ++ [path.name]) (.file content time)
  | (made, none) => made

/-- The disk with the file at one place moved to another, where it replaces a file; nothing when a
directory stands there. -/
def replace? (disk : Disk) (source target : Place) : Option Disk :=
  if disk.isDirectoryAt target then none
  else
    match disk.at? source with
    | some entry => some ((disk.remove source).put target entry)
    | none => none

/-- A name for a temporary file beside the file of a given name. -/
def temporaryName (name : Text) (number : Nat) : Text :=
  '.' :: name ++ '.' :: Text.ofNat number ++ ".tmp"

/-- The first of the temporary names from a number on that is not taken at a place. -/
def freshNameFrom (disk : Disk) (place : Place) (name : Text) : Nat → Nat → Text
  | 0, number => temporaryName name number
  | fuel + 1, number =>
    if (disk.at? (place ++ [temporaryName name number])).isSome then
      freshNameFrom disk place name fuel (number + 1)
    else temporaryName name number

/-- A temporary name that is not taken at a place. -/
def freshName (disk : Disk) (place : Place) (name : Text) : Text :=
  disk.freshNameFrom place name disk.entries.length 0

end Disk

end TemplateAudit
