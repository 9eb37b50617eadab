import TemplateAudit.Rule.LabelTarget

/-!
# Form fields have labels

A field with an id has a label that names it, or a name of its own.  A field without an id cannot be
named by a label and is left alone.
-/

namespace TemplateAudit

namespace Rule

namespace FormLabels

/-- The name of the rule. -/
def id : Text :=
  "form_labels"

/-- An input of a given type. -/
def inputOf (type : Text) : Css.Pattern :=
  .simple (some "input") [.value "type" .equals type false]

/-- The fields that a user fills in. -/
def fields : Css.Selector :=
  [.simple (some "input") [.not (.present "type")], inputOf "text", inputOf "email",
    inputOf "password", inputOf "number", inputOf "tel", inputOf "url", inputOf "search",
    inputOf "date", inputOf "time", inputOf "datetime-local", Css.tag "textarea", Css.tag "select"]

/-- Does a field have a name of its own? -/
def hasOwnName (field : Html.Place) : Bool :=
  !isBlank (field.attr? "aria-label") || !isBlank (field.attr? "aria-labelledby")

/-- The finding on a field. -/
def unlabelled (field : Html.Place) (fieldId : Text) (origin : Origin) : Finding :=
  report id "Form input missing label" (describe field origin.textLimit []) origin "1.3.1"
    ("Choose ONE of these solutions:\n\n1. Add a label: <%= label_tag :" ++ fieldId ++
      ", \"Field name\" %>\n2. Use a wrapping <label for=\"" ++ fieldId ++
      "\"> element\n3. Add aria-label: <%= text_field_tag :name, nil, " ++
      "aria: \x7b label: \"Field name\" \x7d %>")
    .error

/-- The findings on one field. -/
def examineField (document : Html.Document) (origin : Origin) (field : Html.Place) : Verdict :=
  match field.attr? "id" with
  | none => .ok []
  | some fieldId =>
    if Text.saysNothing fieldId then .ok []
    else
      (asks (labelSelector fieldId) document).map fun labelled =>
        if labelled || hasOwnName field then [] else [unlabelled field fieldId origin]

/-- The findings on a document. -/
def examine (document : Html.Document) (origin : Origin) : Verdict :=
  ((Css.select fields document).mapM (examineField document origin)).map List.flatten

end FormLabels

/-- The rule that form fields have labels. -/
def formLabels : Rule :=
  ⟨FormLabels.id, "Form inputs have labels", FormLabels.examine, true, false, ["1.3.1"]⟩

end Rule

end TemplateAudit
