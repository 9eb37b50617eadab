import TemplateAudit.Html.Document

/-!
# Selectors

A selector is a condition on a place in a document.  It is a list of alternatives; each asks
something of the element itself and perhaps of an element around or in front of it.  The document
itself stands around all its elements: it has no attributes, and a name that no tag can have.
-/

namespace TemplateAudit

namespace Css

open Html (Place)

/-! ## Selectors -/

/-- How the value of an attribute is compared. -/
inductive Comparison where
  /-- The value is the given one, or that with a newline after it. -/
  | equals
  /-- The value begins with the given one. -/
  | beginsWith
  /-- The given value stands somewhere in the value. -/
  | contains
  deriving DecidableEq, Repr

/-- A condition on an element itself. -/
inductive Condition where
  /-- The attribute is present. -/
  | present (name : Text)
  /-- The attribute compares with a value as asked, `anyCase` without regard to case. -/
  | value (name : Text) (how : Comparison) (wanted : Text) (anyCase : Bool)
  /-- The word is one of the classes of the element. -/
  | hasClass (word : Text)
  /-- The condition does not hold. -/
  | not (condition : Condition)
  deriving DecidableEq, Repr

/-- A condition on an element and on where it stands. -/
inductive Pattern where
  /-- The tag is the given one, or any if none is given, and the conditions hold. -/
  | simple (tag : Option Text) (conditions : List Condition)
  /-- An element around matches the first pattern, and the element itself the second. -/
  | descendant (outer inner : Pattern)
  /-- The nearest element in front matches the first pattern, and the element itself the second. -/
  | adjacent (front after : Pattern)
  deriving DecidableEq, Repr

/-- A selector is a list of alternatives. -/
abbrev Selector := List Pattern

/-! ## Matching -/

/-- Does a text begin with `part`, the case of letters apart if `anyCase` says so? -/
def beginsLike (anyCase : Bool) (part s : Text) : Bool :=
  if anyCase then (Text.afterPrefixButCase? part s).isSome else part.isPrefixOf s

/-- Does `part` stand somewhere in a text, the case of letters apart if `anyCase` says so? -/
def standsIn (anyCase : Bool) (part : Text) : Text → Bool
  | [] => part.isEmpty
  | c :: s => beginsLike anyCase part (c :: s) || standsIn anyCase part s

/-- Is a text `part`, the case of letters apart if `anyCase` says so? -/
def isSame (anyCase : Bool) (part s : Text) : Bool :=
  s.length == part.length && beginsLike anyCase part s

/-- Does the value of an attribute compare with a value as asked? -/
def Comparison.holds (how : Comparison) (anyCase : Bool) (wanted value : Text) : Bool :=
  match how with
  | .equals => isSame anyCase wanted value || isSame anyCase wanted (Text.dropFinal '\n' value)
  | .beginsWith => !wanted.isEmpty && beginsLike anyCase wanted value
  | .contains => !wanted.isEmpty && standsIn anyCase wanted value

/-- Does the character part the classes of an element? -/
def isClassGap (c : Char) : Bool :=
  c == ' ' || c == '\t' || c == '\n' || c == '\r' || c == '\x0c'

/-- Does a condition hold of the element at a place?  The attribute `type` is always compared without
regard to case. -/
def Condition.holds (place : Place) : Condition → Bool
  | .present name => (place.attr? name).isSome
  | .value name how wanted anyCase =>
    match place.attr? name with
    | some written => how.holds (anyCase || name == "type") wanted written
    | none => false
  | .hasClass word =>
    (Text.wordsBy isClassGap ((place.attr? "class").getD [])).contains word
  | .not condition => !condition.holds place

/-- The name of the document itself. -/
def wholeTag : Text :=
  "[document]"

/-- The place of the document itself. -/
def whole : Place :=
  ⟨⟨wholeTag, [], [], []⟩, []⟩

/-- Does an element around a place, or the document itself, answer a question about it? -/
def anyAround (asks : Place → Bool) (above : List Html.Spot) : Bool :=
  match above with
  | [] => asks whole
  | here :: above => asks ⟨here, above⟩ || anyAround asks above

/-- Does a place match a pattern? -/
def Pattern.matchesAt : Pattern → Place → Bool
  | .simple tag conditions, place =>
    tag.all (· == place.tag) && conditions.all (·.holds place)
  | .descendant outer inner, place =>
    inner.matchesAt place && place.tag != wholeTag &&
      anyAround (fun around => outer.matchesAt around) place.above
  | .adjacent front after, place =>
    after.matchesAt place &&
      match place.previous? with
      | some previous => front.matchesAt previous
      | none => false

/-- Does a place match a selector? -/
def Selector.matchesAt (selector : Selector) (place : Place) : Bool :=
  selector.any (·.matchesAt place)

/-! ## Asking a document -/

/-- The places of a document that match a selector, in document order. -/
def select (selector : Selector) (document : Html.Document) : List Place :=
  (Html.places document).filter (Selector.matchesAt selector)

/-- The places in an element that match a selector, in document order. -/
def selectIn (selector : Selector) (place : Place) : List Place :=
  place.descendants.filter (Selector.matchesAt selector)

/-- Does a place of a document match a selector? -/
def exists? (selector : Selector) (document : Html.Document) : Bool :=
  !(select selector document).isEmpty

/-! ## Writing selectors -/

/-- Any element with the given tag. -/
def tag (name : Text) : Pattern :=
  .simple (some name) []

/-- Any element with the given attribute. -/
def withAttr (name : Text) : Pattern :=
  .simple none [.present name]

/-- Any element whose attribute has the given value. -/
def withValue (name value : Text) : Pattern :=
  .simple none [.value name .equals value false]

/-- Any element with the given class. -/
def withClass (word : Text) : Pattern :=
  .simple none [.hasClass word]

end Css

end TemplateAudit
