import TemplateAudit.Decimal.Numeral
import TemplateAudit.Finding
import TemplateAudit.Helper.Catalogue
import TemplateAudit.Locate.Value

/-!
# The lines of findings

A finding is about an element of the markup; its line in the source is found by what the element looks
like.  There are several clues, from the best to the weakest, and the best one that some line
bears out decides.  Elements that look alike are told apart by counting them.
-/

namespace TemplateAudit

namespace Locate

/-! ## What a line holds -/

/-- Does the name of a tag end here? -/
def endsTagName : Text → Bool
  | [] => true
  | c :: _ => c == '>' || c == '/' || Text.isBlank c

/-- Does a tag of a given name open in a line? -/
def opensTag (tag : Text) : Text → Bool
  | [] => false
  | c :: s =>
    (c == '<' && (Text.afterPrefixButCase? tag s).any endsTagName) || opensTag tag s

/-- Does a text begin with one of some words? -/
def beginsWithWord (words : List Text) (s : Text) : Bool :=
  words.any fun word => (word.isPrefixOf? s).any fun rest => !rest.head?.any Text.isWordChar

/-- Does one of some words stand in a text that `before` stands in front of? -/
def holdsWordAfter (words : List Text) (before : Option Char) : Text → Bool
  | [] => false
  | c :: s =>
    (!before.any Text.isWordChar && beginsWithWord words (c :: s)) || holdsWordAfter words (some c) s

/-- Is a helper called in a line that writes a tag of a given name? -/
def callsHelper (tag line : Text) : Bool :=
  holdsWordAfter (Helper.namesFor tag) none line

/-! ## What is known of an element -/

/-- The longest of some texts, the first of them if there are several. -/
def longest : List Text → Text
  | [] => []
  | s :: texts =>
    let rest := longest texts
    if s.length < rest.length then rest else s

/-- The longest literal part of a value, when it has more than one character. -/
def longestLiteral? (value : Option Text) : Option Text :=
  match value with
  | none => none
  | some value =>
    let part := longest ((literalParts value).map Text.trim)
    if 2 ≤ part.length then some part else none

/-- How much of the text of an element is looked for. -/
def mostText : Nat := 20

/-- The text that an element begins with, up to a placeholder. -/
def textStart (element : ElementInfo) : Text :=
  (Text.trim ((literalParts element.text).headD [])).take mostText

/-! ## Clues -/

/-- Something to be looked for in a line. -/
inductive Clue where
  /-- The tag opens, with the given value of an attribute. -/
  | tagWithAttribute (name value : Text)
  /-- The tag opens, and a text stands in the line. -/
  | tagWithText (text : Text)
  /-- A helper for the tag is called, and one of some texts stands in the line. -/
  | helperWithText (texts : List Text)
  /-- The tag opens. -/
  | tagOpens
  /-- A helper for the tag is called. -/
  | helperCalled
  deriving DecidableEq, Repr

/-- Does a line bear out a clue for a tag? -/
def Clue.holds (tag : Text) (clue : Clue) (line : Text) : Bool :=
  match clue with
  | tagWithAttribute name value => opensTag tag line && holdsAttribute name value line
  | tagWithText text => opensTag tag line && Text.occursIn text line
  | helperWithText texts => callsHelper tag line && texts.any fun text => Text.occursIn text line
  | tagOpens => opensTag tag line
  | helperCalled => callsHelper tag line

/-- The clue that the value of an attribute gives. -/
def attributeClue (name : Text) (value : Option Text) : List Clue :=
  match value with
  | none | some [] => []
  | some value => [.tagWithAttribute name value]

/-- The clues to an element, the best first. -/
def clues (element : ElementInfo) : List Clue :=
  let text := textStart element
  let literals := [element.id, element.src, element.href].filterMap longestLiteral?
  attributeClue "id" element.id ++ attributeClue "src" element.src ++
    attributeClue "href" element.href ++ attributeClue "type" element.inputType ++
    (if 3 ≤ text.length then [.tagWithText text] else []) ++
    (if literals.isEmpty then [] else [.helperWithText literals]) ++ [.tagOpens, .helperCalled]

/-! ## Lines -/

/-- The numbers of the lines that bear out a clue, where the first line has the number `number`. -/
def linesHolding (tag : Text) (clue : Clue) (number : Nat) : List Text → List Nat
  | [] => []
  | line :: lines =>
    if clue.holds tag line then number :: linesHolding tag clue (number + 1) lines
    else linesHolding tag clue (number + 1) lines

/-- The lines at which an element may stand: those that bear out the best clue that any line bears
out.  A page as a whole stands at no line. -/
def candidateLines (source : Text) (element : ElementInfo) : List Nat :=
  if element.tag = [] ∨ element.tag = "page".toList then []
  else
    let lines := Text.lines source
    ((clues element).map fun clue => linesHolding element.tag clue 1 lines).find?
      (!·.isEmpty) |>.getD []

/-- The item of a list at an index; an index beyond either end gives the item there. -/
def nearest? {α : Type} (index : Int) (items : List α) : Option α :=
  items[min index.toNat (items.length - 1)]?

/-- The line of the element, where `occurrence` says how many elements that look the same come
first. -/
def findLine? (source : Text) (element : ElementInfo) (occurrence : Int) : Option Nat :=
  nearest? occurrence (candidateLines source element)

/-! ## All findings of a template -/

/-- Why a finding cannot be counted: what it says about its occurrence is no number. -/
inductive Failure where
  /-- It is nothing that a number could be made of. -/
  | notCountable
  /-- It is a text or a float that is no number. -/
  | noNumber
  /-- It is infinite. -/
  | infinite
  deriving DecidableEq, Repr

/-- The whole number that data gives; a fraction is cut off. -/
def countOf : Json → Except Failure Int
  | .int n => .ok n
  | .bool holds => .ok (if holds then 1 else 0)
  | .float .nan => .error .noNumber
  | .float (.infinite _) => .error .infinite
  | .float x => .ok (x.truncate?.getD 0)
  | .str s =>
    match Decimal.integer? s with
    | some n => .ok n
    | none => .error .noNumber
  | _ => .error .notCountable

/-- What findings about elements that look the same have in common. -/
structure Likeness where
  ruleId : Text
  tag : Text
  id : Option Text
  src : Option Text
  href : Option Text
  inputType : Option Text
  text : Text
  deriving DecidableEq, Repr

/-- What a finding has in common with those about elements that look the same. -/
def likeness (finding : Finding) : Likeness :=
  let element := finding.element
  ⟨finding.ruleId, element.tag, element.id, element.src, element.href, element.inputType,
    element.text⟩

/-- Findings with their lines in a file, where `seen` counts the findings in front that look the
same. -/
def locateFrom (source : Text) (file : Option Text) (seen : List (Likeness × Nat)) :
    List Finding → Except Failure (List Finding)
  | [] => .ok []
  | finding :: findings => do
    let place := fun occurrence : Int =>
      finding.located file ((findLine? source finding.element occurrence).map Int.ofNat)
    match Pairs.get? "occurrence".toList finding.element.details with
    | some data =>
      let occurrence ← countOf data
      return place occurrence :: (← locateFrom source file seen findings)
    | none =>
      let occurrence := (Pairs.get? (likeness finding) seen).getD 0
      return place occurrence ::
        (← locateFrom source file (Pairs.tally (likeness finding) seen) findings)

/-- Findings with their lines in a file. -/
def locate (source : Text) (file : Option Text) (findings : List Finding) :
    Except Failure (List Finding) :=
  locateFrom source file [] findings

end Locate

end TemplateAudit
