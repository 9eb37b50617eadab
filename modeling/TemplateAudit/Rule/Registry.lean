import TemplateAudit.Rule.AriaLandmarks
import TemplateAudit.Rule.ColorContrast
import TemplateAudit.Rule.Dialogs
import TemplateAudit.Rule.DuplicateIds
import TemplateAudit.Rule.FormErrors
import TemplateAudit.Rule.FormLabels
import TemplateAudit.Rule.Headings
import TemplateAudit.Rule.Images
import TemplateAudit.Rule.Interactive
import TemplateAudit.Rule.SkipLinks
import TemplateAudit.Rule.Tables

/-!
# The registry of rules

The rules in the order in which they run.  A rule can be added; of two rules with one name the first
counts.
-/

namespace TemplateAudit

namespace Rule

/-- Rules in the order in which they run. -/
abbrev Registry := List Rule

/-- The rules of this library. -/
def standard : Registry :=
  [ariaLandmarks, colorContrast, duplicateIds, formErrors, formLabels, headingOutline, imageAltText,
    interactiveElements, keyboardAccessibility, skipLink, tableStructure]

namespace Registry

/-- The rule with a given name. -/
def find? (id : Text) (registry : Registry) : Option Rule :=
  List.find? (·.id == id) registry

/-- The registry with a rule added at the end, unless there is one of its name. -/
def register (rule : Rule) (registry : Registry) : Registry :=
  if (registry.find? rule.id).isSome then registry else registry ++ [rule]

/-- The names of the rules. -/
def ids (registry : Registry) : List Text :=
  registry.map (·.id)

/-- Which rules run unless they are switched off. -/
def defaults (registry : Registry) : List (Text × Bool) :=
  registry.map fun rule => (rule.id, rule.enabled)

end Registry

end Rule

end TemplateAudit
