import TemplateAudit.Helper.Value
import TemplateAudit.Text.Case

/-!
# Attribute values in template source

A finding knows the value of an attribute as it stands in the markup of a template, with a
placeholder for everything that is known only when the template is rendered.  In the source, code
stands there instead.  A value pattern has the literal characters of the value, and a gap for every
placeholder.
-/

namespace TemplateAudit

namespace Locate

/-- A piece of a value pattern. -/
inductive Piece where
  /-- A character that stands in the source itself, in either case. -/
  | literal (c : Char)
  /-- Code, as a tag `<% … %>` or as an interpolation. -/
  | runtime
  deriving DecidableEq, Repr

/-- The literal parts of a value between its placeholders. -/
def literalParts (value : Text) : List Text :=
  Text.splitOn Helper.placeholder value

/-- The pattern of some literal parts. -/
def patternOfParts : List Text → List Piece
  | [] => []
  | [part] => part.map Piece.literal
  | part :: parts => part.map Piece.literal ++ .runtime :: patternOfParts parts

/-- The pattern of a value. -/
def pattern (value : Text) : List Piece :=
  patternOfParts (literalParts value)

/-! ## As a regular expression -/

/-- The characters that mean something in a regular expression. -/
def specialChars : Text :=
  "\t\n\x0b\x0c\r #$&()*+-.?[\\]^\x7b|\x7d~"

/-- A character that stands for itself in a regular expression. -/
def escapeChar (c : Char) : Text :=
  if specialChars.contains c then ['\\', c] else [c]

/-- A piece as a regular expression. -/
def Piece.toText : Piece → Text
  | literal c => escapeChar c
  | runtime => "(?:<%=?.*?%>|#\\\x7b[^\x7d]*\\\x7d)"

/-- A pattern as a regular expression. -/
def patternText (pieces : List Piece) : Text :=
  pieces.flatMap Piece.toText

/-! ## Matching -/

/-- The texts after each place where `part` stands. -/
def afterEach (part : Text) : Text → List Text
  | [] => []
  | c :: s =>
    match part.isPrefixOf? (c :: s) with
    | some rest => rest :: afterEach part s
    | none => afterEach part s

/-- The texts after code at the start of a text; a tag may end at any of its closing marks. -/
def afterRuntime : Text → List Text
  | '<' :: '%' :: s => afterEach "%>" s
  | '#' :: '\x7b' :: s => ((Text.cutAtChar '\x7d' s).map Prod.snd).toList
  | _ => []

/-- Does a value end here: at a quote, white space, a slash, the end of the tag or of the line? -/
def endsValue : Text → Bool
  | [] => true
  | c :: _ => c == '"' || c == '\'' || c == '/' || c == '>' || Text.isBlank c

/-- Does a text begin with a value of a pattern? -/
def beginsWithValue : List Piece → Text → Bool
  | [], s => endsValue s
  | .literal _ :: _, [] => false
  | .literal c :: pieces, d :: s => Text.sameButCase c d && beginsWithValue pieces s
  | .runtime :: pieces, s => (afterRuntime s).any (beginsWithValue pieces)

/-- The places at which a value may begin after an equals sign: at or after each of the white space
characters there, or after the quote that follows them. -/
def valueStarts : Text → List Text
  | [] => [[]]
  | c :: s =>
    if Text.isBlank c then (c :: s) :: valueStarts s
    else if Helper.isQuote c then [c :: s, s]
    else [c :: s]

/-- Does a text begin with an attribute that has a value of a pattern? -/
def beginsWithAttribute (name : Text) (pieces : List Piece) (s : Text) : Bool :=
  match Text.afterPrefixButCase? name s with
  | none => false
  | some rest =>
    match Text.trimStart rest with
    | '=' :: s => (valueStarts s).any (beginsWithValue pieces)
    | _ => false

/-- May the name of an attribute not begin after the character? -/
def joinsName (c : Char) : Bool :=
  Text.isWordChar c || c == '-'

/-- Does an attribute with a value of a pattern stand in a text that `before` stands in front of? -/
def holdsAttributeAfter (name : Text) (pieces : List Piece) (before : Option Char) : Text → Bool
  | [] => false
  | c :: s =>
    (!before.any joinsName && beginsWithAttribute name pieces (c :: s)) ||
      holdsAttributeAfter name pieces (some c) s

/-- Does an attribute with a given value stand in a line? -/
def holdsAttribute (name value line : Text) : Bool :=
  holdsAttributeAfter name (pattern value) none line

end Locate

end TemplateAudit
