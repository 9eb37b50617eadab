import TemplateAudit.Css.Reader
import TemplateAudit.Rule.Basic

/-!
# Selectors for the elements that name a field

A label and an error message name the field they belong to by its id, which may be any text.  The
selectors that look for them are written with the id as a string and then read.
-/

namespace TemplateAudit

namespace Rule

/-- Does a document have an element that the selector written in a text asks for?  The text is one the
rules have made up; if it is no selector, that is the answer. -/
def asks (selector : Text) (document : Html.Document) : Except Text Bool :=
  match Css.Selector.read? selector with
  | some patterns => .ok (Css.exists? patterns document)
  | none => .error ("Invalid selector: " ++ selector)

/-- The selector for the label of the field with a given id. -/
def labelSelector (fieldId : Text) : Text :=
  "label[for=" ++ Css.quote fieldId ++ "]"

/-- The selector for an error message of the field with a given id: one that says so, or one behind its
label. -/
def messageSelector (fieldId : Text) : Text :=
  Text.join ", "
    ["[aria-describedby*=" ++ Css.quote fieldId ++ "]",
      labelSelector fieldId ++ " + .error",
      labelSelector fieldId ++ " + .invalid-feedback"]

end Rule

end TemplateAudit
