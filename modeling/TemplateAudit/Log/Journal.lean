import TemplateAudit.Log.Level
import TemplateAudit.Log.Message

/-!
# Journals

Messages go to journals with dotted names.  A journal that has no level of its own takes the level of
the nearest journal above it that has one, and in the end the level of the journal above all; it
writes the messages that are at least as grave as its level.
-/

namespace TemplateAudit

namespace Log

/-! ## Names -/

/-- The name of the journal above all. -/
def topName : Text :=
  "root"

/-- Does a name stand for the journal above all? -/
def isTop (name : Text) : Bool :=
  name = [] ∨ name = topName

theorem length_cutAtLast {mark : Char} {s : Text} {cut : Text × Text}
    (h : Text.cutAtLast mark s = some cut) : cut.1.length < s.length := by
  induction s generalizing cut with
  | nil => simp [Text.cutAtLast] at h
  | cons c s ih =>
    rw [Text.cutAtLast] at h
    split at h
    · next inner hs =>
      obtain rfl := Option.some.inj h
      have := ih hs
      simp
      omega
    · split at h
      · obtain rfl := Option.some.inj h
        simp
      · simp at h

/-- The names above a name, the nearest first.  The character in front of the dot at which a name was
cut is no place to cut again. -/
def namesAbove (name : Text) : List Text :=
  match h : Text.cutAtLast '.' name with
  | none => []
  | some cut => if cut.1 = [] then [] else cut.1 :: namesAbove cut.1.dropLast
termination_by name.length
decreasing_by
  have := length_cutAtLast h
  simp
  omega

theorem length_of_mem_namesAbove {name above : Text} (h : above ∈ namesAbove name) :
    above.length < name.length := by
  fun_induction namesAbove name with
  | case1 => simp at h
  | case2 => simp at h
  | case3 name cut hcut _ ih =>
    have shorter := length_cutAtLast hcut
    rcases List.mem_cons.1 h with rfl | later
    · exact shorter
    · have deeper := ih later
      simp only [List.length_dropLast] at deeper
      omega

/-! ## Levels of journals -/


/-- The levels of all journals. -/
structure Journals where
  /-- The level of the journal above all. -/
  top : Level
  /-- The levels that journals have of their own. -/
  own : List (Text × Level)
  deriving DecidableEq, Repr

namespace Journals

/-- The journals with a level given to one of them. -/
def give (journals : Journals) (name : Text) (level : Level) : Journals :=
  if isTop name then { journals with top := level }
  else { journals with own := Pairs.put name level journals.own }

/-- The journals with the level that each of some choices asks for, in order. -/
def giveAll (fallback : Level) :
    Journals → List (Text × LevelChoice) → Except LevelRefusal Journals
  | journals, [] => .ok journals
  | journals, (name, choice) :: choices => do
    let level ← choice.resolve fallback
    (journals.give name level).giveAll fallback choices

/-- The journals of a run: the level of the journal above all, the levels of single journals, and
those of journals that are to be silent. -/
def configure (general : LevelChoice) (single silent : List (Text × LevelChoice)) :
    Except LevelRefusal Journals := do
  let top ← general.resolve Level.info
  let journals ← giveAll Level.info ⟨top, []⟩ single
  journals.giveAll Level.critical silent

/-- The journals where those of some names are set up as well, if they are not yet. -/
def mention (journals : Journals) (names : List Text) : Journals :=
  names.foldl (fun journals name =>
    if isTop name || (Pairs.get? name journals.own).isSome then journals
    else journals.give name Level.unset) journals

/-- The level that a journal has of its own, or `Level.unset`. -/
def ownLevel (journals : Journals) (name : Text) : Level :=
  if isTop name then journals.top else (Pairs.get? name journals.own).getD Level.unset

/-- Was a journal set up before one that is to come above it? -/
def isEarlier (journals : Journals) (name above : Text) : Bool :=
  match journals.own.findIdx? (·.1 == name), journals.own.findIdx? (·.1 == above) with
  | some index, some later => index < later
  | _, _ => false

/-- The journal that a journal comes below, without the one above all: the nearest that has been set
up.  One that is set up later comes above those below it, unless the name of the one above all begins
with its name: then they stay where they are. -/
def parent? (journals : Journals) (name : Text) : Option Text :=
  match (namesAbove name).find? fun above => (Pairs.get? above journals.own).isSome with
  | none => none
  | some above =>
    if Text.startsWith above topName && journals.isEarlier name above then none else some above

theorem length_parent? {journals : Journals} {name above : Text}
    (h : journals.parent? name = some above) : above.length < name.length := by
  unfold parent? at h
  split at h
  · simp at h
  · next found hfound =>
    split at h
    · simp at h
    · obtain rfl := Option.some.inj h
      exact length_of_mem_namesAbove (List.mem_of_find?_eq_some hfound)

/-- A journal and those above it, the nearest first, without the one above all. -/
def lineage (journals : Journals) (name : Text) : List Text :=
  match h : journals.parent? name with
  | none => [name]
  | some above => name :: journals.lineage above
termination_by name.length
decreasing_by exact length_parent? h

/-- The levels of a journal and of those above it, the nearest first. -/
def levelsFrom (journals : Journals) (name : Text) : List Level :=
  if isTop name then [journals.top]
  else
    (journals.lineage name).map
      (fun name => (Pairs.get? name journals.own).getD Level.unset) ++ [journals.top]

/-- The level from which a journal writes messages. -/
def level (journals : Journals) (name : Text) : Level :=
  ((journals.levelsFrom name).find? Level.isSet).getD Level.unset

end Journals

/-! ## Entries -/

/-- A message for a journal. -/
structure Entry where
  journal : Text
  level : Level
  /-- The line of the program that made it. -/
  line : Int
  message : Text
  values : List Json

/-- The time that is written in front of an entry: entries are not dated. -/
def stamp : Text :=
  "1970-01-01 00:00:00,000"

/-- Is an entry grave enough to be written?  One below all levels never is. -/
def Journals.accepts (journals : Journals) (entry : Entry) : Bool :=
  Level.unset.value < entry.level.value &&
    (journals.level entry.journal).value ≤ entry.level.value

/-- An entry as it is written, with its newline; nothing when its message cannot be filled. -/
def Entry.written (entry : Entry) : Text :=
  match fill entry.message entry.values with
  | none => []
  | some message =>
    stamp ++ " - " ++ Level.name entry.level ++ " - [" ++ entry.journal ++ ":" ++
      Text.ofInt entry.line ++ "] - " ++ message ++ "\n"

/-- What is written of some entries. -/
def Journals.output (journals : Journals) (entries : List Entry) : Text :=
  (entries.filter journals.accepts).flatMap Entry.written

/-! ## What journals do -/

theorem head?_lineage (journals : Journals) (name : Text) :
    (journals.lineage name).head? = some name := by
  rw [Journals.lineage]
  split <;> rfl

/-- A journal with a level of its own writes from that level on. -/
theorem level_eq_own {journals : Journals} {name : Text}
    (h : (journals.ownLevel name).isSet) : journals.level name = journals.ownLevel name := by
  unfold Journals.level Journals.levelsFrom Journals.ownLevel at *
  split
  · next top =>
    rw [if_pos top] at h
    simp [h]
  · next top =>
    rw [if_neg top] at h
    obtain ⟨names, hnames⟩ := List.head?_eq_some_iff.1 (head?_lineage journals name)
    simp [hnames, h]

end Log

end TemplateAudit
