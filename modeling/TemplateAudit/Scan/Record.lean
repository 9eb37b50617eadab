import TemplateAudit.Decimal.Numeral
import TemplateAudit.Disk.Change
import TemplateAudit.Json.Reader
import TemplateAudit.Json.Writer

/-!
# The record of the last scan

For every template the record holds the time of its last change as the last scan saw it.  It is kept
in a file.  Saving goes through a temporary file beside it, so that no reader ever sees half a
record; a missing or broken record means that nothing was scanned yet.
-/

namespace TemplateAudit

namespace Scan

/-- The record: times by the paths of templates. -/
abbrev Record := List (Text × Decimal.Double)

namespace Record

/-- Why the record cannot be used. -/
inductive Failure where
  /-- The file is no text. -/
  | notText
  /-- The file holds an integer with too many digits. -/
  | hugeInteger
  /-- A time is an integer beyond the range of times. -/
  | beyondRange
  /-- The path of a template or of the record holds a character that no path can have. -/
  | impossiblePath
  deriving DecidableEq, Repr

/-! ## Loading -/

/-- The time that a value stands for, if it stands for one. -/
def timeOf? : Json → Except Failure (Option Decimal.Double)
  | .float x => .ok (some x)
  | .bool holds => .ok (some (.ofInt (if holds then 1 else 0)))
  | .str s => .ok (Decimal.number? s)
  | .int n =>
    let x := Decimal.Double.ofInt n
    if x.isFinite then .ok (some x) else .error .beyondRange
  | _ => .ok none

/-- The record that the fields of an object give; a field that is no time is passed over. -/
def ofFields : List (Text × Json) → Except Failure Record
  | [] => .ok []
  | (path, data) :: fields => do
    let time ← timeOf? data
    let record ← ofFields fields
    return (time.map (path, ·)).toList ++ record

/-- The record that a text writes; one that is no object is empty. -/
def ofText (s : Text) : Except Failure Record :=
  match Json.read s with
  | .ok (.obj fields) => ofFields fields
  | .ok _ => .ok []
  | .error .malformed => .ok []
  | .error .hugeInteger => .error .hugeInteger

/-- The record in a file; a missing one is empty. -/
def load (disk : Disk) (path : Path) : Except Failure Record :=
  match disk.content? path with
  | none => .ok []
  | some bytes =>
    match Text.ofFile? bytes with
    | none => .error .notText
    | some s => ofText s

/-! ## Saving -/

/-- A record as the text of its file: the paths in order, each on a line of its own. -/
def write (fields : List (Text × Json)) : Text :=
  Json.write Json.fileStyle (.obj (fields.mergeSort fun a b => Text.atMost a.1 b.1))

/-- A record as fields. -/
def fields (record : Record) : List (Text × Json) :=
  record.map fun entry => (entry.1, .float entry.2)

/-- The steps of saving; the disk may refuse any of them. -/
inductive SaveStep where
  | makeDirectories
  | makeTemporary
  | writeText
  | replaceFile
  deriving DecidableEq, Repr

/-- The place of a file in its directory; a path that ends in `..` or is the root leads to no file. -/
def target? (directory : Place) (path : Path) : Option Place :=
  if path.name = [] ∨ path.name = ['.', '.'] then none else some (directory ++ [path.name])

/-- Saving, where the disk refuses some steps: the disks that a reader may see one after the other,
and whether it went well.  Where it did not, the temporary file is removed again. -/
def saving (refuses : SaveStep → Bool) (disk : Disk) (path : Path) (content : ByteArray) :
    List Disk × Bool :=
  if refuses .makeDirectories then ([disk], false)
  else
    match disk.makeDirectories path.parent with
    | (made, none) => ([made], false)
    | (made, some directory) =>
      if refuses .makeTemporary then ([made], false)
      else
        let temporary := directory ++ [made.freshName directory path.name]
        let created := made.put temporary (.file ByteArray.empty disk.now)
        if refuses .writeText then ([made, created, created.remove temporary], false)
        else
          let written := created.put temporary (.file content disk.now)
          let replaced :=
            if refuses .replaceFile then none
            else (target? directory path).bind (written.replace? temporary)
          match replaced with
          | some saved => ([made, created, written, saved], true)
          | none => ([made, created, written, written.remove temporary], false)

/-- The disk after saving some fields as a record, and whether it went well. -/
def save (disk : Disk) (path : Path) (fields : List (Text × Json)) : Disk × Bool :=
  let saved := saving (fun _ => false) disk path (Text.toBytes (write fields))
  (saved.1.getLastD disk, saved.2)

/-- Can a record be saved at a path, or at least be refused by the disk?  At an impossible path no file can
be made, which shows when its directory is there. -/
def canSave (disk : Disk) (path : Path) : Bool :=
  path.parent.isPossible && (path.isPossible || (disk.makeDirectories path.parent).2.isNone)

/-- The disk without the file of the record. -/
def clear (disk : Disk) (path : Path) : Disk :=
  match disk.locate? path with
  | some place => if disk.isDirectoryAt place then disk else disk.remove place
  | none => disk

/-! ## Changes -/

/-- The time of the last change of the file that a path leads to, in seconds. -/
def modified? (disk : Disk) (path : Text) : Except Failure (Option Decimal.Double) :=
  if path.contains '\x00' then .error .impossiblePath
  else .ok ((disk.findText? path).map fun entry => entry.modified.toDouble)

/-- Does a record hold another time for a path, or none? -/
def isStale (record : Record) (path : Text) (time : Decimal.Double) : Bool :=
  match Pairs.get? path record with
  | some known => !known.equals time
  | none => true

/-- The candidates that are there and have another time than the record says. -/
def changedIn (disk : Disk) (record : Record) : List Text → Except Failure (List Text)
  | [] => .ok []
  | path :: paths => do
    let time ← modified? disk path
    let changed ← changedIn disk record paths
    return if time.any (isStale record path) then path :: changed else changed

/-- The candidates that have changed since the record was made. -/
def changed (disk : Disk) (path : Path) (candidates : List Text) : Except Failure (List Text) := do
  changedIn disk (← load disk path) candidates

/-- The record with the times that some files have now. -/
def refresh (disk : Disk) (record : Record) : List Text → Except Failure Record
  | [] => .ok record
  | path :: paths => do
    match ← modified? disk path with
    | some time => refresh disk (Pairs.put path time record) paths
    | none => refresh disk record paths

/-- Is a file of the record still there? -/
def isThere (disk : Disk) (path : Text) : Bool :=
  !path.contains '\x00' && (disk.findText? path).isSome

/-- The disk with the times of some files recorded, and without files in the record that are gone. -/
def update (disk : Disk) (path : Path) (files : List Text) : Except Failure Disk := do
  let record ← refresh disk (← load disk path) files
  if canSave disk path then
    return (save disk path (fields (record.filter fun entry => isThere disk entry.1))).1
  else throw .impossiblePath

end Record

end Scan

end TemplateAudit
