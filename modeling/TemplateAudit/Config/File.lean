import TemplateAudit.Config.Rules
import TemplateAudit.Config.Settings
import TemplateAudit.Disk.Basic
import TemplateAudit.Json.Reader

/-!
# Configuration files

A configuration is kept in a file as a JSON object.  A missing or broken file gives the defaults, and
so does one with something wrong in it.
-/

namespace TemplateAudit

namespace Config

/-- Why a file cannot be used at all. -/
inductive Failure where
  /-- It is no text. -/
  | notText
  /-- It holds an integer with too many digits. -/
  | hugeInteger
  /-- The rules to be ignored are given by something that has no items. -/
  | withoutItems
  deriving DecidableEq, Repr

/-- The fields of the object in a file; nothing when there is no such object. -/
def fieldsIn? (content : Option ByteArray) : Except Failure (Option (List (Text × Json))) :=
  match content with
  | none => .ok none
  | some bytes =>
    match Text.ofFile? bytes with
    | none => .error .notText
    | some s =>
      match Json.read s with
      | .ok (.obj fields) => .ok (some fields)
      | .ok _ => .ok none
      | .error .malformed => .ok none
      | .error .hugeInteger => .error .hugeInteger

/-- The field of an object, unless it counts as empty. -/
def filledField (name : Text) (fields : List (Text × Json)) : List (Text × Json) :=
  match Pairs.get? name fields with
  | some data => if data.isFalsy then [] else [(name, data)]
  | none => []

/-- The configuration of the rules in a file.  A field that counts as empty is as good as none. -/
def rulesIn (content : Option ByteArray) : Except Failure RuleConfig := do
  match ← fieldsIn? content with
  | none => return .default
  | some fields =>
    match RuleConfig.ofFields (filledField "checks" fields ++ filledField "ignored_rules" fields) with
    | .ok config => return config
    | .error (.invalid _) => return .default
    | .error .withoutItems => throw .withoutItems

/-- The settings in a file. -/
def settingsIn (content : Option ByteArray) : Except Failure Settings := do
  match ← fieldsIn? content with
  | none => return .default
  | some fields =>
    match Settings.ofFields fields with
    | .valid settings => return settings
    | .invalid _ => return .default

/-- The configuration of the rules in the file that a path leads to, if there is a path. -/
def loadRules (disk : Disk) (path : Option Path) : Except Failure RuleConfig :=
  rulesIn (path.bind disk.content?)

/-- The settings in the file that a path leads to, if there is a path. -/
def loadSettings (disk : Disk) (path : Option Path) : Except Failure Settings :=
  settingsIn (path.bind disk.content?)

end Config

end TemplateAudit
