import TemplateAudit.Json.Shown
import TemplateAudit.Text.Case

/-!
# Levels

How grave a message is, is an integer: the higher, the graver.  Six levels have names, two of them a
second one.  A truth value may stand for one or zero and is told as what it is.
-/

namespace TemplateAudit

namespace Log

/-- How grave a message is. -/
inductive Level where
  | number (n : Int)
  /-- One or zero, given as a truth value. -/
  | truth (holds : Bool)
  deriving DecidableEq, Repr

namespace Level

/-- The integer that a level is. -/
def value : Level → Int
  | number n => n
  | truth holds => if holds then 1 else 0

def critical : Level := number 50

def error : Level := number 40

def warning : Level := number 30

def info : Level := number 20

def debug : Level := number 10

/-- The level of a journal that takes the level of the one above it. -/
def unset : Level := number 0

/-- Does a journal keep to a level instead of taking the one above? -/
def isSet (level : Level) : Bool :=
  level.value != unset.value

/-- The names that are read. -/
def names : List (Text × Level) :=
  [("CRITICAL", critical), ("FATAL", critical), ("ERROR", error), ("WARNING", warning),
    ("WARN", warning), ("INFO", info), ("DEBUG", debug), ("NOTSET", unset)]

/-- A level as data. -/
def toJson : Level → Json
  | number n => .int n
  | truth holds => .bool holds

/-- The name that is written for a level. -/
def name (level : Level) : Text :=
  let known := fun (other : Level) => level.value == other.value
  if known critical then "CRITICAL"
  else if known error then "ERROR"
  else if known warning then "WARNING"
  else if known info then "INFO"
  else if known debug then "DEBUG"
  else if known unset then "NOTSET"
  else "Level " ++ level.toJson.shown

end Level

/-! ## Asking for a level -/

/-- What a level is asked for by. -/
inductive LevelChoice where
  /-- A name, in capitals or not. -/
  | named (name : Text)
  /-- The level itself. -/
  | given (level : Level)
  /-- Something that is neither. -/
  | neither
  deriving DecidableEq, Repr

/-- Why a choice is refused. -/
inductive LevelRefusal where
  /-- The name stands for a text, and a text that names no level is no level. -/
  | unknownName
  /-- It is neither an integer nor a name. -/
  | notALevel
  deriving DecidableEq, Repr

/-- The name of the line layout, which stands for a text. -/
def layoutName : Text :=
  "BASIC_FORMAT"

/-- The name of the table of line styles, which stands for that table. -/
def stylesName : Text :=
  "_STYLES"

/-- The level that a choice asks for; a name that is not known asks for `fallback`. -/
def LevelChoice.resolve (fallback : Level) : LevelChoice → Except LevelRefusal Level
  | named name =>
    let capitals := Text.upper name
    if capitals = layoutName then .error .unknownName
    else if capitals = stylesName then .error .notALevel
    else .ok ((Level.names.lookup capitals).getD fallback)
  | given level => .ok level
  | neither => .error .notALevel

end Log

end TemplateAudit
