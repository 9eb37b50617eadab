import TemplateAudit.Html.Event
import TemplateAudit.Pairs

/-!
# The document of some markup

A document is a forest of elements and texts.  It is built from the events of the markup without
correcting them: an end tag closes the innermost open element of its name and everything in it, an
end tag without such an element does nothing, and void elements close themselves.

A place in a document is an element together with the way to it: the siblings before it, and the
same for the elements around it.  Selectors ask about places.
-/

namespace TemplateAudit

namespace Html

/-! ## Documents -/

/-- What a text in a document is: ordinary text, an unread section, or the text of one of the
elements whose text is not shown with that of the others. -/
inductive TextKind where
  | ordinary
  | cdata
  | special (tag : Text)
  deriving DecidableEq, Repr

/-- An element or a text. -/
inductive Node where
  | element (tag : Text) (attrs : List (Text × Text)) (children : List Node)
  | text (kind : TextKind) (content : Text)
  deriving Repr, Inhabited

/-- The elements and texts that stand in no other element. -/
abbrev Document := List Node

/-! ## Building -/

/-- The elements that have no content. -/
def voidElements : List Text :=
  ["area", "base", "basefont", "bgsound", "br", "col", "command", "embed", "frame", "hr", "image",
    "img", "input", "isindex", "keygen", "link", "menuitem", "meta", "nextid", "param", "source",
    "spacer", "track", "wbr"]

/-- The elements that have a kind of text of their own. -/
def specialElements : List Text :=
  ["script", "style", "template", "rt", "rp"]

/-- The elements in which white space is kept as it is. -/
def spacedElements : List Text :=
  ["pre", "textarea"]

/-- An open element: its tag, its attributes, and its content so far in reverse. -/
structure Frame where
  tag : Text
  attrs : List (Text × Text)
  content : List Node
  deriving Repr

/-- A document being built: the open elements from the inside out, what stands in none of them, the
pieces of text since the last tag in reverse, and the void elements whose end tag would be ignored. -/
structure Building where
  frames : List Frame
  top : List Node
  pending : List Text
  closedVoids : List Text
  deriving Repr

namespace Building

/-- Nothing is built yet. -/
def start : Building :=
  ⟨[], [], [], []⟩

/-- The node is put at the end of the innermost open element. -/
def add (node : Node) (work : Building) : Building :=
  match work.frames with
  | [] => { work with top := node :: work.top }
  | frame :: frames => { work with frames := { frame with content := node :: frame.content } :: frames }

/-- White space that a tag may stand next to. -/
def isSpacing (c : Char) : Bool :=
  c == ' ' || c == '\n' || c == '\t' || c == '\x0c' || c == '\r'

/-- A text of white space only counts as one newline or one space. -/
def collapse (s : Text) : Text :=
  if s.all isSpacing then (if s.contains '\n' then ['\n'] else [' ']) else s

/-- What ordinary text is at this point. -/
def kindHere (work : Building) : TextKind :=
  match work.frames.find? fun frame => specialElements.contains frame.tag with
  | some frame => .special frame.tag
  | none => .ordinary

/-- The pending text is added as a text of the given kind. -/
def flushAs (kind : TextKind) (work : Building) : Building :=
  match work.pending with
  | [] => work
  | pieces =>
    let s := pieces.reverse.flatten
    let kept := work.frames.any fun frame => spacedElements.contains frame.tag
    { work with pending := [] }.add (.text kind (if kept then s else collapse s))

/-- The pending text is added as ordinary text. -/
def flush (work : Building) : Building :=
  work.flushAs work.kindHere

/-- The innermost open element is closed. -/
def closeOne (work : Building) : Building :=
  match work.frames with
  | [] => work
  | frame :: frames =>
    { work with frames }.add (.element frame.tag frame.attrs frame.content.reverse)

/-- The innermost open elements are closed, as many as `count`. -/
def closeMany : Nat → Building → Building
  | 0, work => work
  | count + 1, work => closeMany count work.closeOne

/-- The innermost open element of a tag is closed, and what is open in it. -/
def close (tag : Text) (work : Building) : Building :=
  let work := work.flush
  match work.frames.findIdx? (·.tag == tag) with
  | some index => closeMany (index + 1) work
  | none => work

/-- An element is opened. -/
def openElement (tag : Text) (attrs : List (Text × Text)) (work : Building) : Building :=
  let work := work.flush
  { work with frames := ⟨tag, attrs, []⟩ :: work.frames }

/-- An end tag is met: the first one after a void element is ignored. -/
def endTag (tag : Text) (work : Building) : Building :=
  if work.closedVoids.contains tag then { work with closedVoids := work.closedVoids.erase tag }
  else work.close tag

/-- A start tag is met. -/
def startTag (tag : Text) (attrs : List (Text × Text)) (selfClosing : Bool) (work : Building) :
    Building :=
  let work := work.openElement tag attrs
  if selfClosing then work.close tag
  else if voidElements.contains tag then
    let work := work.close tag
    { work with closedVoids := work.closedVoids ++ [tag] }
  else work

/-- Some text is met. -/
def text (data : Text) (work : Building) : Building :=
  { work with pending := data :: work.pending }

/-- One event is met. -/
def step (work : Building) : Event → Building
  | .text data => work.text data
  | .startTag tag attrs selfClosing => work.startTag tag (Pairs.ofEntries attrs) selfClosing
  | .endTag tag => work.endTag tag
  | .cdata data => (work.flush.text data).flushAs .cdata
  | .aside => work.flush

/-- All open elements are closed. -/
def finish (work : Building) : Document :=
  let work := work.flush
  (closeMany work.frames.length work).top.reverse

end Building

/-- The document of the events of some markup. -/
def ofEvents (events : List Event) : Document :=
  (events.foldl Building.step Building.start).finish

/-- The document of some markup. -/
def ofMarkup (markup : Text) : Except Rejection Document :=
  (events markup).map ofEvents

/-- The document of the markup of a template, where byte order marks mean nothing. -/
def parse (markup : Text) : Except Rejection Document :=
  ofMarkup (markup.filter (· != '\uFEFF'))

/-! ## Attributes that hold lists of words -/

/-- Does an attribute of an element hold a list of words? -/
def holdsWords (tag name : Text) : Bool :=
  [("class" : Text), "accesskey", "dropzone"].contains name ||
    [(("a" : Text), ("rel" : Text)), ("a", "rev"), ("link", "rel"), ("link", "rev"),
      ("td", "headers"), ("th", "headers"), ("form", "accept-charset"), ("object", "archive"),
      ("area", "rel"), ("icon", "sizes"), ("iframe", "sandbox"), ("output", "for")].contains (tag, name)

/-- An event with the words of its attributes one space apart. -/
def Event.withWords : Event → Event
  | .startTag tag attrs selfClosing =>
    .startTag tag
      (attrs.map fun attr => (attr.1, if holdsWords tag attr.1 then Text.oneSpaced attr.2 else attr.2))
      selfClosing
  | event => event

/-- The document of some markup, where attributes that hold lists of words have them one space
apart. -/
def ofMarkupWithWords (markup : Text) : Except Rejection Document :=
  (events markup).map fun events => ofEvents (events.map Event.withWords)

/-! ## Text -/

mutual

/-- The texts in a node of the kinds that are asked for, one after the other. -/
def Node.textOf (wanted : TextKind → Bool) : Node → Text
  | .text kind content => if wanted kind then content else []
  | .element _ _ children => textOfAll wanted children

/-- The texts in some nodes of the kinds that are asked for, one after the other. -/
def textOfAll (wanted : TextKind → Bool) : List Node → Text
  | [] => []
  | node :: nodes => node.textOf wanted ++ textOfAll wanted nodes

end

/-- Is a text of this kind part of the text of an element?  An element with a kind of text of its own
has that only; any other has the ordinary texts and the unread sections. -/
def countsIn (tag : Text) (kind : TextKind) : Bool :=
  if specialElements.contains tag then kind == .special tag
  else kind == .ordinary || kind == .cdata

/-! ## Places -/

/-- An element at its place among its siblings; `before` holds the siblings in front of it, the nearest
first. -/
structure Spot where
  tag : Text
  attrs : List (Text × Text)
  children : List Node
  before : List Node
  deriving Repr, Inhabited

/-- An element of a document with the elements around it, the nearest first. -/
structure Place where
  here : Spot
  above : List Spot
  deriving Repr, Inhabited

mutual

/-- The places in a node, in document order. -/
def placesIn (above : List Spot) (before : List Node) : Node → List Place
  | .text _ _ => []
  | .element tag attrs children =>
    let here : Spot := ⟨tag, attrs, children, before⟩
    ⟨here, above⟩ :: placesInAll (here :: above) [] children

/-- The places in some nodes, in document order. -/
def placesInAll (above : List Spot) (before : List Node) : List Node → List Place
  | [] => []
  | node :: nodes => placesIn above before node ++ placesInAll above (node :: before) nodes

end

/-- The places of a document, in document order. -/
def places (document : Document) : List Place :=
  placesInAll [] [] document

namespace Place

/-- The tag of the element. -/
def tag (place : Place) : Text :=
  place.here.tag

/-- The value of an attribute; a present one without a value is empty. -/
def attr? (place : Place) (name : Text) : Option Text :=
  Pairs.get? name place.here.attrs

/-- Does the element have an attribute with something in it but white space? -/
def hasValue (place : Place) (name : Text) : Bool :=
  (place.attr? name).any fun value => !Text.saysNothing value

/-- The text in the element. -/
def text (place : Place) : Text :=
  textOfAll (countsIn place.tag) place.here.children

/-- The words of the text in the element, one space apart. -/
def words (place : Place) : Text :=
  Text.oneSpaced place.text

/-- The place of the element around. -/
def parent? (place : Place) : Option Place :=
  match place.above with
  | [] => none
  | here :: above => some ⟨here, above⟩

/-- The places in the element, in document order. -/
def descendants (place : Place) : List Place :=
  placesInAll (place.here :: place.above) [] place.here.children

/-- The place of the element that is the nearest sibling in front. -/
def previous? (place : Place) : Option Place :=
  go place.here.before
where
  /-- The nearest element among siblings. -/
  go : List Node → Option Place
    | [] => none
    | .text _ _ :: nodes => go nodes
    | .element tag attrs children :: nodes => some ⟨⟨tag, attrs, children, nodes⟩, place.above⟩

end Place

end Html

end TemplateAudit
