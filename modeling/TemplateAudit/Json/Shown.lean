import TemplateAudit.Decimal.Shortest
import TemplateAudit.Json.Basic
import TemplateAudit.Text.Shown

/-!
# Values as they are shown

A value in a message is shown to a person and not read back: strings inside a value stand in quotes,
a string alone stands as it is.
-/

namespace TemplateAudit

namespace Json

mutual

/-- A value as it is shown. -/
def shown : Json → Text
  | null => "None"
  | bool holds => if holds then "True" else "False"
  | int n => Text.ofInt n
  | float x => Decimal.recordLayout.write x
  | str text => Text.shown text
  | arr items => '[' :: (Text.join ", " (shownItems items) ++ [']'])
  | obj fields => '\x7b' :: (Text.join ", " (shownFields fields) ++ ['\x7d'])

/-- Each item of an array as it is shown. -/
def shownItems : List Json → List Text
  | [] => []
  | item :: items => shown item :: shownItems items

/-- Each field of an object as it is shown. -/
def shownFields : List (Text × Json) → List Text
  | [] => []
  | (name, value) :: fields => (Text.shown name ++ ": " ++ shown value) :: shownFields fields

end

/-- A value as it stands in a message: a string as it is, all else as it is shown. -/
def plain : Json → Text
  | str text => text
  | value => shown value

end Json

end TemplateAudit
