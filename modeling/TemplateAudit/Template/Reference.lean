import TemplateAudit.Template.Token
import TemplateAudit.Text.Inflection
import TemplateAudit.Text.Letter

/-!
# What a template refers to

The code of a template names partials: `render "name"`, `render partial: "name"` and its older form
`render :partial => "name"`, and `render @things` for the partial of a model.  A template may also
name its layout.
-/

namespace TemplateAudit

namespace Template

/-- A reference to a partial: names to be tried in order. -/
abbrev Reference := List Text

/-! ## Shapes of code -/

/-- The text after a keyword that no word character stands in front of. -/
def afterWord? (word : Text) (before : Option Char) (s : Text) : Option Text :=
  if before.any Text.isWordChar then none else word.isPrefixOf? s

/-- The text after an opening parenthesis that may be there, and the white space around it. -/
def skipParen (s : Text) : Text :=
  match Text.trimStart s with
  | '(' :: rest => Text.trimStart rest
  | rest => rest

/-- Is the character a quote? -/
def isQuote (c : Char) : Bool :=
  c == '\'' || c == '"'

/-- The text between two quotes of either kind, if there is any, and the text after them. -/
def quotedName? : Text → Option (Text × Text)
  | [] => none
  | c :: s =>
    if isQuote c then
      let name := s.takeWhile fun c => !isQuote c
      match s.dropWhile fun c => !isQuote c with
      | [] => none
      | _ :: rest => if name.isEmpty then none else some (name, rest)
    else none

/-- The partial that `render "name"` names, and the text after it. -/
def renderedName? (before : Option Char) (s : Text) : Option (Text × Text) :=
  (afterWord? "render" before s).bind fun rest => quotedName? (skipParen rest)

/-- The text after the key `partial:` or `:partial =>`. -/
def afterPartialKey? (before : Option Char) (s : Text) : Option Text :=
  let label := (afterWord? "partial" before s).bind fun rest =>
    match Text.trimStart rest with
    | ':' :: value => some value
    | _ => none
  let arrow := (":partial".toList.isPrefixOf? s).bind fun rest =>
    match Text.trimStart rest with
    | '=' :: '>' :: value => some value
    | _ => none
  label.or arrow

/-- The partial that the next key with a quoted name gives, and the text after it. -/
def nextPartialKey? (before : Option Char) : Text → Option (Text × Text)
  | [] => none
  | c :: s =>
    match (afterPartialKey? before (c :: s)).bind fun rest => quotedName? (Text.trimStart rest) with
    | some found => some found
    | none => nextPartialKey? (some c) s

/-- The partial that `render` with the key `partial` names, and the text after it. -/
def renderedPartial? (before : Option Char) (s : Text) : Option (Text × Text) :=
  (afterWord? "render" before s).bind fun rest =>
    if rest.head?.any Text.isWordChar then none else nextPartialKey? (some 'r') rest

/-- The model that `render @model` names, and the text after it. -/
def renderedModel? (before : Option Char) (s : Text) : Option (Text × Text) :=
  (afterWord? "render" before s).bind fun rest =>
    match skipParen rest with
    | '@' :: model =>
      let name := model.takeWhile Text.isWordChar
      if name.isEmpty then none else some (name, model.dropWhile Text.isWordChar)
    | _ => none

/-! ## References -/

/-- The names of the partial of a model: in a directory of its own, or just its own name. -/
def modelReference (model : Text) : Reference :=
  let one := Text.singular model
  [Text.plural one ++ '/' :: one, one]

/-- The references in a piece of code: by name, by key, and by model. -/
def referencesIn (code : Text) : List Reference :=
  (Text.readAll renderedName? code).map (fun name => [name]) ++
    (Text.readAll renderedPartial? code).map (fun name => [name]) ++
    (Text.readAll renderedModel? code).map modelReference

/-- The references of a template, each once. -/
def references (source : Text) : List Reference :=
  ((codeFragments source).flatMap fun token => referencesIn token.value).eraseDups

/-! ## Layouts -/

/-- The layout that `layout "name"` names, and the text after it. -/
def namedLayout? (before : Option Char) (s : Text) : Option (Text × Text) :=
  if before = some '-' then none
  else (afterWord? "layout" before s).bind fun rest => quotedName? (skipParen rest)

/-- The layout that a template names first. -/
def layout? (source : Text) : Option Text :=
  (Text.readAll namedLayout? source).head?

end Template

end TemplateAudit
