import TemplateAudit.Rule.Basic

/-!
# Dialogs can be used with a keyboard

A dialog holds something that a keyboard can reach.
-/

namespace TemplateAudit

namespace Rule

namespace Dialogs

/-- The name of the rule. -/
def id : Text :=
  "keyboard_accessibility"

/-- The dialogs. -/
def dialogs : Css.Selector :=
  [Css.withValue "role" "dialog", Css.withValue "role" "alertdialog"]

/-- The elements that a keyboard can reach. -/
def reachable : Css.Selector :=
  [Css.tag "button", Css.tag "a", Css.tag "input", Css.tag "textarea", Css.tag "select",
    .simple none [.present "tabindex", .not (.value "tabindex" .equals "-1" false)]]

/-- The finding on a dialog. -/
def unreachable (origin : Origin) (dialog : Html.Place) : Finding :=
  report id "Modal dialog has no focusable elements" (describe dialog origin.textLimit []) origin "2.1.1"
    "Add focusable elements to the modal (buttons, links, inputs), at least a close button." .error

/-- The findings on a document. -/
def examine (document : Html.Document) (origin : Origin) : List Finding :=
  ((Css.select dialogs document).filter fun dialog => (Css.selectIn reachable dialog).isEmpty).map
    (unreachable origin)

end Dialogs

/-- The rule that dialogs can be used with a keyboard. -/
def keyboardAccessibility : Rule :=
  ⟨Dialogs.id, "Dialogs are keyboard accessible",
    fun document origin => .ok (Dialogs.examine document origin), true, false, ["2.1.1"]⟩

end Rule

end TemplateAudit
