import TemplateAudit.Text.Basic

/-!
# Paths

A path is a list of parts, absolute or relative.  Empty parts and `.` say nothing and are left out;
`..` stays, since where it leads depends on the disk.
-/

namespace TemplateAudit

/-- A path.  `slashes` says how many slashes it begins with: none for a relative path, one or exactly
two for an absolute one. -/
structure Path where
  slashes : Nat
  parts : List Text
  deriving DecidableEq, Repr, Inhabited

namespace Path

/-! ## Text -/

/-- The parts between slashes that say something. -/
def partsOf (s : Text) : List Text :=
  (Text.splitAtChar '/' s).filter fun part => !part.isEmpty && part != ['.']

/-- With how many slashes a path begins; three or more count as one. -/
def slashesOf : Text → Nat
  | '/' :: '/' :: '/' :: _ => 1
  | '/' :: '/' :: _ => 2
  | '/' :: _ => 1
  | _ => 0

/-- The path that a text writes. -/
def ofText (s : Text) : Path :=
  ⟨slashesOf s, partsOf s⟩

/-- A path as text; a relative path without parts is `.`. -/
def toText (path : Path) : Text :=
  if path.slashes = 0 ∧ path.parts = [] then ['.']
  else List.replicate path.slashes '/' ++ Text.join ['/'] path.parts

/-! ## Parts -/

/-- Does a path begin at the root? -/
def isAbsolute (path : Path) : Bool :=
  path.slashes != 0

/-- Can anything stand at a path?  The character with the number zero ends a path. -/
def isPossible (path : Path) : Bool :=
  !path.parts.any (·.contains '\x00')

/-- The last part of a path. -/
def name (path : Path) : Text :=
  path.parts.getLastD []

/-- A path without its last part. -/
def parent (path : Path) : Path :=
  { path with parts := path.parts.dropLast }

/-- A path taken from another one on; an absolute path stays as it is. -/
def join (path next : Path) : Path :=
  if next.isAbsolute then next else { path with parts := path.parts ++ next.parts }

/-- The path that a text leads to from another one on. -/
def child (path : Path) (s : Text) : Path :=
  path.join (ofText s)

/-- The root. -/
def root : Path :=
  ⟨1, []⟩

/-- The parts of a path with every `..` taking one part away. -/
def simplify (parts : List Text) : List Text :=
  (parts.foldl (fun above part => if part = "..".toList then above.tail else part :: above)
    []).reverse

/-- An absolute path where nothing in between is looked up: every `..` takes one part away.  A path at
which nothing can stand leads nowhere. -/
def lexical? (path : Path) : Option Path :=
  if path.isPossible then some ⟨1, simplify path.parts⟩ else none

end Path

end TemplateAudit
