import TemplateAudit.Text.Blank
import TemplateAudit.Text.Case

/-!
# Where in the markup a value would land

A small machine reads literal markup one character at a time and keeps track of one thing: whether
the next character would be body text, the text of a script or style element, part of a tag, or
part of an attribute value.
-/

namespace TemplateAudit

namespace Markup

/-- The place that the markup read so far has led to.  The states inside a tag carry the name of the
tag as far as it is read. -/
inductive Context where
  /-- Body text. -/
  | data
  /-- After a `<`. -/
  | lt
  /-- After `<!`. -/
  | bang
  /-- After `<!-`. -/
  | bangDash
  /-- In a tag, outside of attribute values; `naming` while its name is still being read. -/
  | tag (name : Text) (naming : Bool)
  /-- In a tag after `=`. -/
  | beforeValue (name : Text)
  /-- In an attribute value in double quotes. -/
  | doubleQuoted (name : Text)
  /-- In an attribute value in single quotes. -/
  | singleQuoted (name : Text)
  /-- In an attribute value without quotes. -/
  | unquoted (name : Text)
  /-- In a comment; `dashes` says how many of the last two characters read are hyphens at the end. -/
  | comment (dashes : Nat)
  /-- In a script or style element; `window` holds its last characters in small letters, as many as
  its end tag has. -/
  | rawText (element : Text) (window : Text)
  deriving DecidableEq, Repr

namespace Context

/-! ## Questions -/

/-- Would a value land in an attribute value? -/
def inAttributeValue : Context → Bool
  | beforeValue _ | doubleQuoted _ | singleQuoted _ | unquoted _ => true
  | _ => false

/-- Would a value land in the text of a script or style element? -/
def inRawText : Context → Bool
  | rawText _ _ => true
  | _ => false

/-- Would a value land in a tag or comment, outside of attribute values? -/
def inTag : Context → Bool
  | lt | bang | bangDash | tag _ _ | comment _ => true
  | _ => false

/-- The name of the state. -/
def label : Context → Text
  | data => "data"
  | lt => "lt"
  | bang => "bang"
  | bangDash => "bang_dash"
  | tag _ _ => "tag"
  | beforeValue _ => "before_value"
  | doubleQuoted _ => "dq"
  | singleQuoted _ => "sq"
  | unquoted _ => "unquoted"
  | comment _ => "comment"
  | rawText _ _ => "raw_text"

/-! ## Reading -/

/-- The elements whose body is not markup: a `<` in there opens no tag. -/
def rawTextElements : List Text :=
  ["script", "style"]

/-- The text that ends the body of a script or style element. -/
def rawTextEnd (element : Text) : Text :=
  '<' :: '/' :: element

/-- The last `count` characters of a text. -/
def lastChars (count : Nat) (s : Text) : Text :=
  s.drop (s.length - count)

/-- The state after the `>` of a tag. -/
def afterTag (name : Text) : Context :=
  let element := Text.lower name
  if element ∈ rawTextElements then rawText element [] else data

/-- The state after one more character of the text of a script or style element. -/
def stepRawText (element window : Text) (c : Char) : Context :=
  let window' := lastChars (rawTextEnd element).length (window ++ Text.lower [c])
  if window' = rawTextEnd element then tag ('/' :: element) false else rawText element window'

/-- The state after one more character. -/
def step : Context → Char → Context
  | data, c => if c = '<' then lt else data
  | lt, c =>
    if Text.isLetter c || c = '/' then tag [c] true
    else if c = '!' then bang
    else if c = '<' then lt
    else data
  | bang, c => if c = '-' then bangDash else if c = '>' then data else tag [] false
  | bangDash, c => if c = '-' then comment 2 else tag [] false
  | comment dashes, c =>
    if c = '>' && dashes = 2 then data
    else comment (if c = '-' then min (dashes + 1) 2 else 0)
  | tag name naming, c =>
    if naming && (Text.isLetterOrNumeral c || c = '-') then tag (name ++ [c]) true
    else if c = '>' then afterTag name
    else if c = '=' then beforeValue name
    else tag name false
  | rawText element window, c => stepRawText element window c
  | beforeValue name, c =>
    if c = '"' then doubleQuoted name
    else if c = '\'' then singleQuoted name
    else if c = '>' then afterTag name
    else if Text.isBlank c then beforeValue name
    else unquoted name
  | doubleQuoted name, c => if c = '"' then tag name false else doubleQuoted name
  | singleQuoted name, c => if c = '\'' then tag name false else singleQuoted name
  | unquoted name, c =>
    if c = '>' then afterTag name
    else if Text.isBlank c then tag name false
    else unquoted name

/-- The state after a piece of markup. -/
def feed (context : Context) (markup : Text) : Context :=
  markup.foldl step context

/-- A piece may be fed in two parts. -/
theorem feed_append (context : Context) (a b : Text) :
    context.feed (a ++ b) = (context.feed a).feed b := by
  simp [feed]

end Context

end Markup

end TemplateAudit
