import TemplateAudit.Helper.Value
import TemplateAudit.Markup.Escape
import TemplateAudit.Text.Case

/-!
# The attributes a helper writes

How the values and options of a call become attributes and body text: which options are attributes
at all, what a value looks like as an attribute, and how an id and a label are made from the name of
a form field.
-/

namespace TemplateAudit

namespace Helper

/-! ## A value in markup -/

/-- A value as the value of an attribute; `nil`, `false` and hashes write no attribute. -/
def Value.asAttribute : Value → Option Text
  | .nil => none
  | .bool holds => if holds then some [] else none
  | .str text => some text
  | .sym name => some name
  | .dynamic _ => some placeholder
  | .hash _ => none

/-- A value as body text. -/
def Value.asBody : Value → Text
  | .str text => Markup.escapeBody text
  | .sym name => Markup.escapeBody name
  | .dynamic _ => placeholder
  | .nil | .bool _ | .hash _ => []

/-! ## Options -/

/-- The options that are written as attributes of the same name. -/
def writtenOptions : List Text :=
  ["id", "class", "title", "alt", "name", "type", "role", "for", "tabindex", "value", "placeholder",
    "href", "src", "lang", "rel", "target", "style"]

/-- Is an option of this name written as an attribute? -/
def isWritten (key : Text) : Bool :=
  writtenOptions.contains key || Text.startsWith "aria-" key || Text.startsWith "data-" key

/-- The attribute that a value writes under a name, entered among others. -/
def putValue (key : Text) (value : Value) (attrs : List (Text × Text)) : List (Text × Text) :=
  match value.asAttribute with
  | some text => Pairs.put key text attrs
  | none => attrs

/-- The attribute name of an entry in the hash under `aria` or `data`. -/
def nestedName (key entry : Text) : Text :=
  key ++ "-" ++ Text.replaceChar '_' '-' entry

/-- The attributes that one option writes, entered among others. -/
def putOption (attrs : List (Text × Text)) (option : Text × Value) : List (Text × Text) :=
  let key := option.1
  match option.2 with
  | .hash entries =>
    if key = "aria" ∨ key = "data" then
      entries.foldl (fun attrs entry => putValue (nestedName key entry.1) entry.2 attrs) attrs
    else attrs
  | value => if isWritten key then putValue key value attrs else attrs

/-- The attributes that the options of a call write. -/
def optionAttributes (options : List (Text × Value)) : List (Text × Text) :=
  options.foldl putOption []

/-! ## Names of form fields -/

/-- May a character stand in an id that is made from a name? -/
def isIdChar (c : Char) : Bool :=
  c.isAlphanum || c == '-' || c == ':' || c == '.'

/-- The id of the form field with a given name: `user[email]` gets `user_email`. -/
def fieldId (name : Text) : Text :=
  (name.filter (· != ']')).map fun c => if isIdChar c then c else '_'

/-- A name without the `_id` it ends in; a final newline after that stays. -/
def withoutIdEnding (name : Text) : Text :=
  match Text.withoutEnding? "_id" name with
  | some start => start
  | none =>
    match Text.withoutEnding? "_id\n" name with
    | some start => start ++ ['\n']
    | none => name

/-- The words a name consists of, with a capital at the start. -/
def humanize (name : Text) : Text :=
  Text.upperFirst (Text.trim (Text.replaceChar '_' ' ' (withoutIdEnding name)))

end Helper

end TemplateAudit
