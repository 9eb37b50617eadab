import TemplateAudit.Rule.Basic

/-!
# Buttons and links have names

Whatever is clicked has a text or another name, and no button holds a heading.
-/

namespace TemplateAudit

namespace Rule

namespace Interactive

/-- The name of the rule. -/
def id : Text :=
  "interactive_elements"

/-- Buttons and links. -/
def clickable : Css.Selector :=
  [Css.tag "button", .simple (some "a") [.present "href"], Css.withValue "role" "button",
    Css.withValue "role" "link"]

/-- Does an element have a text, an attribute that names it, or an image with a text? -/
def hasName (place : Html.Place) : Bool :=
  !place.words.isEmpty ||
    [("aria-label" : Text), "aria-labelledby", "title"].any (fun name => !isBlank (place.attr? name)) ||
    hasDescribedImage place

/-- Is an element a button? -/
def isButton (place : Html.Place) : Bool :=
  place.tag == "button" || place.attr? "role" == some ("button" : Text)

/-- The finding on a heading in a button. -/
def nestedHeading (origin : Origin) (button heading : Html.Place) : Finding :=
  let text := heading.words
  report id
    ("Button contains " ++ Text.upper heading.tag ++
      " heading - headings should not be nested inside buttons")
    (describe button origin.textLimit
      [("nested_heading", .str heading.tag), ("heading_text", .str text)])
    origin "4.1.2"
    ("Remove the heading from inside the button. Use plain text or aria-label instead:\n\n" ++
      "<button aria-label=\"" ++ text ++ "\">" ++ text ++ "</button>")
    .error

/-- What to do about a link without a name. -/
def linkAdvice : Text :=
  "Add visible link text (<%= link_to \"Descriptive text\", path %>) or, for icon-only links, an " ++
    "aria-label: <%= link_to path, aria: \x7b label: \"Action\" \x7d do %>"

/-- What to do about a button without a name. -/
def buttonAdvice : Text :=
  "Add visible button text (<button>Save</button>) or, for icon-only buttons, an aria-label: " ++
    "<button aria-label=\"Save\">"

/-- The finding on an element without a name. -/
def nameless (origin : Origin) (place : Html.Place) : Finding :=
  let isLink := place.tag == "a"
  report id (Text.upperFirst place.tag ++ " missing accessible name")
    (describe place origin.textLimit []) origin (if isLink then "2.4.4" else "4.1.2")
    (if isLink then linkAdvice else buttonAdvice) .error

/-- The findings on one element. -/
def examineElement (origin : Origin) (place : Html.Place) : List Finding :=
  (if isButton place then (Css.selectIn headings place).map (nestedHeading origin place) else []) ++
    if hasName place then [] else [nameless origin place]

/-- The findings on a document. -/
def examine (document : Html.Document) (origin : Origin) : List Finding :=
  (Css.select clickable document).flatMap (examineElement origin)

end Interactive

/-- The rule that buttons and links have names. -/
def interactiveElements : Rule :=
  ⟨Interactive.id, "Interactive elements have accessible names",
    fun document origin => .ok (Interactive.examine document origin), true, false,
    ["2.4.4", "4.1.2"]⟩

end Rule

end TemplateAudit
