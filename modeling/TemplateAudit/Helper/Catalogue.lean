import TemplateAudit.Helper.Attributes
import TemplateAudit.Helper.Call

/-!
# The catalogue of view helpers

What each known helper writes.  A renderer gets the call and gives the markup it stands for, with the
end tag apart when the call has a block, or nothing when the call has a shape that the renderer does
not know.
-/

namespace TemplateAudit

namespace Helper

/-- The markup that a call stands for; for a call with a block the markup that closes it comes
apart. -/
structure Rendered where
  markup : Text
  closing : Option Text
  deriving DecidableEq, Repr

/-- A known helper. -/
structure Entry where
  name : Text
  /-- The elements the helper writes. -/
  tags : List Text
  /-- Is the helper called on a receiver? -/
  onReceiver : Bool
  render : Call → Option Rendered

namespace Call

/-- The positional value at an index; a missing one is `nil`. -/
def arg (call : Call) (index : Nat) : Value :=
  call.args.getD index .nil

/-- The attributes of the options. -/
def attributes (call : Call) : List (Text × Text) :=
  optionAttributes call.options

/-- Given attributes, with those of the options entered after them. -/
def attributesOver (call : Call) (attrs : List (Text × Text)) : List (Text × Text) :=
  Pairs.putAll call.attributes attrs

/-- The name of the form field that a call is about. -/
def fieldName? (call : Call) : Option Text :=
  (call.arg 0).asAttribute

end Call

/-! ## Shapes of markup -/

/-- An element without a body. -/
def void (tag : Text) (attrs : List (Text × Text)) : Rendered :=
  ⟨Markup.startTag tag attrs, none⟩

/-- An element with its body. -/
def whole (tag : Text) (attrs : List (Text × Text)) (body : Text) : Rendered :=
  ⟨Markup.startTag tag attrs ++ body ++ Markup.endTag tag, none⟩

/-- An element around a block. -/
def around (tag : Text) (attrs : List (Text × Text)) : Rendered :=
  ⟨Markup.startTag tag attrs, some (Markup.endTag tag)⟩

/-- An element around the block of a call, or with the given body when there is no block. -/
def element (call : Call) (tag : Text) (attrs : List (Text × Text)) (body : Text) : Rendered :=
  if call.block then around tag attrs else whole tag attrs body

/-! ## Form fields -/

/-- A form field of a type that `input` knows. -/
def renderInput (type : Text) (call : Call) : Option Rendered :=
  call.fieldName?.map fun name =>
    void "input" (call.attributesOver [("type", type), ("name", name), ("id", fieldId name)])

/-- A form field that is an element of its own. -/
def renderField (tag : Text) (call : Call) : Option Rendered :=
  call.fieldName?.map fun name =>
    whole tag (call.attributesOver [("name", name), ("id", fieldId name)]) []

/-- The text of a label: its own, or else the name of its field in words. -/
def labelText (call : Call) (name : Text) : Text :=
  match call.arg 1, call.arg 0 with
  | .nil, .dynamic _ => placeholder
  | .nil, _ => Markup.escapeValue (humanize name)
  | content, _ => content.asBody

/-- A label. -/
def renderLabel (call : Call) : Option Rendered :=
  call.fieldName?.map fun name =>
    element call "label" (call.attributesOver [("for", fieldId name)]) (labelText call name)

/-- The button that sends a form. -/
def renderSubmit (attrs : List (Text × Text)) (call : Call) : Option Rendered :=
  some (void "input" (call.attributesOver (("type", "submit") :: attrs)))

/-- The button of a form builder, with a text only when it is given. -/
def renderBuilderSubmit (call : Call) : Option Rendered :=
  match call.arg 0 with
  | .nil => renderSubmit [] call
  | value => renderSubmit [("value", value.asAttribute.getD [])] call

/-- The button of a plain form. -/
def renderSubmitTag (call : Call) : Option Rendered :=
  match call.arg 0 with
  | .nil => renderSubmit [("value", "Save changes")] call
  | value => renderSubmit [("value", value.asAttribute.getD [])] call

/-- A form; it has a block or is not known. -/
def renderForm (call : Call) : Option Rendered :=
  if call.block then some (around "form" call.attributes) else none

/-! ## Images, links and buttons -/

/-- An image. -/
def renderImage (call : Call) : Option Rendered :=
  match call.arg 0 with
  | .nil => none
  | source => some (void "img" (call.attributesOver [("src", source.asAttribute.getD [])]))

/-- The address of a link: a string as it is, anything else is not known. -/
def address : Value → Text
  | .str text => text
  | _ => "#"

/-- A link: around its block, or with its name as text.  A link with one value only has its address
as its name. -/
def renderLink (call : Call) : Option Rendered :=
  if call.block then some (around "a" (call.attributesOver [("href", address (call.arg 0))]))
  else
    match call.args with
    | [] => none
    | [name] => some (whole "a" (call.attributesOver [("href", address name)]) name.asBody)
    | name :: url :: _ =>
      let body := match name with
        | .nil => url.asBody
        | name => name.asBody
      some (whole "a" (call.attributesOver [("href", address url)]) body)

/-- A button, with a text of its own when none is given. -/
def renderButtonTag (call : Call) : Option Rendered :=
  let body := match call.arg 0 with
    | .nil => "Button"
    | content => content.asBody
  some (element call "button" call.attributes body)

/-- The button of a form builder; it has a text or a block, or is not known. -/
def renderButton (call : Call) : Option Rendered :=
  match call.arg 0, call.block with
  | .nil, false => none
  | content, _ => some (element call "button" call.attributes content.asBody)

/-! ## Any element -/

/-- Is a text the name of an element, in small letters and digits?  A final newline is allowed. -/
def isTagName (s : Text) : Bool :=
  match Text.dropFinal '\n' s with
  | [] => false
  | c :: rest => c.isLower && rest.all fun c => c.isLower || c.isDigit

/-- The element that the first value names. -/
def renderContentTag (call : Call) : Option Rendered :=
  match call.arg 0 with
  | .str tag | .sym tag =>
    if isTagName tag then some (element call tag call.attributes (call.arg 1).asBody) else none
  | _ => none

/-! ## The catalogue -/

/-- The helpers for fields of the types that `input` knows. -/
def inputHelpers : List (Text × Text) :=
  [("text_field_tag", "text"), ("password_field_tag", "password"), ("email_field_tag", "email"),
    ("number_field_tag", "number"), ("search_field_tag", "search"), ("telephone_field_tag", "tel"),
    ("phone_field_tag", "tel"), ("url_field_tag", "url"), ("date_field_tag", "date")]

/-- All known helpers. -/
def catalogue : List Entry :=
  (inputHelpers.map fun helper => ⟨helper.1, ["input"], false, renderInput helper.2⟩) ++
  [⟨"text_area_tag", ["textarea"], false, renderField "textarea"⟩,
    ⟨"select_tag", ["select"], false, renderField "select"⟩,
    ⟨"label_tag", ["label"], false, renderLabel⟩,
    ⟨"submit", ["input"], true, renderBuilderSubmit⟩,
    ⟨"submit_tag", ["input"], false, renderSubmitTag⟩,
    ⟨"image_tag", ["img"], false, renderImage⟩,
    ⟨"link_to", ["a"], false, renderLink⟩,
    ⟨"button_tag", ["button"], false, renderButtonTag⟩,
    ⟨"button", ["button"], false, renderButton⟩,
    ⟨"content_tag", [], false, renderContentTag⟩,
    ⟨"form_with", ["form"], false, renderForm⟩,
    ⟨"form_for", ["form"], false, renderForm⟩,
    ⟨"form_tag", ["form"], false, renderForm⟩]

/-- The entry for a helper. -/
def find? (name : Text) : Option Entry :=
  catalogue.find? (·.name == name)

/-- The names of the helpers that write a tag, in alphabetical order. -/
def namesFor (tag : Text) : List Text :=
  ((catalogue.filter (·.tags.contains tag)).map (·.name)).mergeSort Text.atMost

/-- The markup that code stands for when it is a call of a known helper, and whether a block
follows. -/
def render? (code : Text) : Option (Rendered × Bool) :=
  match Call.read? code with
  | none => none
  | some call =>
    match find? call.name with
    | none => none
    | some entry =>
      if entry.onReceiver == call.receiver.isSome then
        (entry.render call).map (·, call.block)
      else none

end Helper

end TemplateAudit
