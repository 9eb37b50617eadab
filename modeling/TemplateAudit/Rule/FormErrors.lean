import TemplateAudit.Rule.LabelTarget

/-!
# Error messages belong to their fields

A field that is marked as wrong has a message that says so and is linked to it.
-/

namespace TemplateAudit

namespace Rule

namespace FormErrors

/-- The name of the rule. -/
def id : Text :=
  "form_errors"

/-- An element in the wrapper that marks wrong fields. -/
def inWrapper (tag : Text) : Css.Pattern :=
  .descendant (Css.withClass "field_with_errors") (Css.tag tag)

/-- The fields that are marked as wrong. -/
def invalidFields : Css.Selector :=
  [inWrapper "input", inWrapper "textarea", inWrapper "select", Css.withClass "is-invalid",
    Css.withValue "aria-invalid" "true"]

/-- Is a field with an id linked to a message? -/
def hasMessage (document : Html.Document) (field : Html.Place) (fieldId : Text) : Except Text Bool :=
  if isBlank (field.attr? "aria-describedby") then asks (messageSelector fieldId) document
  else .ok true

/-- The finding on a field. -/
def unlinked (field : Html.Place) (fieldId : Text) (origin : Origin) : Finding :=
  report id "Form input error message not associated" (describe field origin.textLimit []) origin "3.3.1"
    ("Associate the error message with the input using aria-describedby:\n\n" ++
      "<input id=\"" ++ fieldId ++ "\" aria-invalid=\"true\" aria-describedby=\"" ++ fieldId ++
      "_error\">\n<span id=\"" ++ fieldId ++ "_error\" class=\"error\">...</span>")
    .error

/-- The findings on one field; a field without an id is left alone. -/
def examineField (document : Html.Document) (origin : Origin) (field : Html.Place) : Verdict :=
  match field.attr? "id" with
  | none => .ok []
  | some fieldId =>
    if Text.saysNothing fieldId then .ok []
    else
      (hasMessage document field fieldId).map fun linked =>
        if linked then [] else [unlinked field fieldId origin]

/-- The findings on a document. -/
def examine (document : Html.Document) (origin : Origin) : Verdict :=
  ((Css.select invalidFields document).mapM (examineField document origin)).map List.flatten

end FormErrors

/-- The rule that error messages belong to their fields. -/
def formErrors : Rule :=
  ⟨FormErrors.id, "Form errors are associated with their inputs", FormErrors.examine, true, false,
    ["3.3.1"]⟩

end Rule

end TemplateAudit
