import TemplateAudit.Helper.Catalogue
import TemplateAudit.Markup.Context
import TemplateAudit.Markup.Spacing
import TemplateAudit.Template.Token

/-!
# The markup of a template

A template is turned into plain markup that can be examined without rendering it.  Literal markup
stays as it is.  Known helpers are replaced by the element they write; any other value printed
becomes a placeholder in attribute values and in body text, and vanishes elsewhere in a tag.
Statements and comments go, but blocks are followed, so that the element of a helper with a block
is closed where the block ends.
-/

namespace TemplateAudit

namespace Template

open Helper (placeholder)
open Markup (Context)

/-! ## Blocks -/

/-- Does a word end at this place, or does the text? -/
def endsWord : Text → Bool
  | [] => true
  | c :: _ => !Text.isWordChar c

/-- Is the code the end of a block: `end` or a closing brace, and then no letter or numeral? -/
def closesBlock : Text → Bool
  | 'e' :: 'n' :: 'd' :: s => endsWord s
  | '\x7d' :: s => endsWord s
  | _ => false

/-- The words that open a block which `end` closes. -/
def blockKeywords : List Text :=
  ["if", "unless", "case", "while", "until", "for", "begin"]

/-- Does the code begin with a word that opens a block? -/
def beginsWithKeyword (code : Text) : Bool :=
  blockKeywords.any fun word =>
    match word.isPrefixOf? code with
    | some rest => endsWord rest
    | none => false

/-- Does the code end in the word `end`, white space apart? -/
def endsInEnd (code : Text) : Bool :=
  match (Text.trimEnd code).reverse with
  | 'd' :: 'n' :: 'e' :: before => endsWord before
  | _ => false

/-- Does the code end in an opening brace, perhaps with block parameters after it? -/
def opensBrace : Text → Bool
  | [] => false
  | '\x7b' :: s => Helper.isBlockHead s || opensBrace s
  | _ :: s => opensBrace s

/-- Does a statement open a block that a later statement has to close? -/
def opensStatement (code : Text) : Bool :=
  Helper.opensBlock code || opensBrace code || (beginsWithKeyword code && !endsInEnd code)

/-! ## The state of the work -/

/-- The markup written so far, in the pieces in which it was written, the place it has led to, and
for each open block the markup that closes it, if any; the innermost block comes first. -/
structure Extraction where
  pieces : List Text
  context : Context
  blocks : List (Option Text)
  deriving DecidableEq, Repr

namespace Extraction

/-- Nothing is written yet. -/
def start : Extraction :=
  ⟨[], .data, []⟩

/-- A piece of markup is written. -/
def emit (work : Extraction) (piece : Text) : Extraction :=
  ⟨work.pieces ++ [piece], work.context.feed piece, work.blocks⟩

/-- The markup that closes a block is written, if there is any. -/
def emitClosing (work : Extraction) : Option Text → Extraction
  | some closing => work.emit closing
  | none => work

/-- A block is opened. -/
def openBlock (work : Extraction) (closing : Option Text) : Extraction :=
  { work with blocks := closing :: work.blocks }

/-- A block is opened if `opens` says so. -/
def openBlockIf (work : Extraction) (opens : Bool) (closing : Option Text) : Extraction :=
  if opens then work.openBlock closing else work

/-- The innermost block is closed; without an open block nothing happens. -/
def closeBlock (work : Extraction) : Extraction :=
  match work.blocks with
  | [] => work
  | closing :: blocks => { work with blocks }.emitClosing closing

/-- All open blocks are closed, the innermost first. -/
def closeAll (work : Extraction) : Extraction :=
  { work.blocks.foldl emitClosing work with blocks := [] }

/-- A value is printed. -/
def output (work : Extraction) (code : Text) : Extraction :=
  if work.context.inAttributeValue || work.context.inRawText then work.emit placeholder
  else if work.context.inTag then work.openBlockIf (Helper.opensBlock code) none
  else
    match Helper.render? code with
    | some (rendered, block) => (work.emit rendered.markup).openBlockIf block rendered.closing
    | none => if Helper.opensBlock code then work.openBlock none else work.emit placeholder

/-- A statement is run. -/
def statement (work : Extraction) (code : Text) : Extraction :=
  if closesBlock code then work.closeBlock else work.openBlockIf (opensStatement code) none

/-- One more token of the template. -/
def step (work : Extraction) (token : Token) : Extraction :=
  match token.kind with
  | .text => work.emit token.value
  | .output => work.output token.value
  | .statement => work.statement token.value
  | .comment => work

/-- The work after some tokens. -/
def run (work : Extraction) (tokens : List Token) : Extraction :=
  tokens.foldl step work

end Extraction

/-- The markup of a template, in the pieces in which it is written. -/
def markupPieces (source : Text) : List Text :=
  (Extraction.start.run (tokenize source)).closeAll.pieces

/-- The markup of a template. -/
def toMarkup (source : Text) : Text :=
  Markup.tidy (markupPieces source).flatten

end Template

end TemplateAudit
