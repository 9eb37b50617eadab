import TemplateAudit.Rule.Basic

/-!
# A page has a main landmark

A page needs one element that holds its main content.
-/

namespace TemplateAudit

namespace Rule

namespace AriaLandmarks

/-- The name of the rule. -/
def id : Text :=
  "aria_landmarks"

/-- The elements that hold the main content of a page. -/
def mainLandmarks : Css.Selector :=
  [Css.tag "main", Css.withValue "role" "main"]

/-- The finding on a page without a main landmark. -/
def missing (origin : Origin) : Finding :=
  report id "Page missing MAIN landmark" (describePage "Page has no MAIN landmark") origin "1.3.1"
    "Wrap the main content in a <main> tag, usually in the layout:\n\n<main>\n  <%= yield %>\n</main>"
    .warning

/-- The findings on a document. -/
def examine (document : Html.Document) (origin : Origin) : List Finding :=
  if Css.exists? mainLandmarks document then [] else [missing origin]

end AriaLandmarks

/-- The rule that a page has a main landmark. -/
def ariaLandmarks : Rule :=
  ⟨AriaLandmarks.id, "Page has a main landmark",
    fun document origin => .ok (AriaLandmarks.examine document origin), true, true, ["1.3.1"]⟩

end Rule

end TemplateAudit
