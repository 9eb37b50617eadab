import TemplateAudit.Markup.Context

/-!
# Well-formed markup

Markup is a row of pieces: text, comments, document types, tags, and script and style elements with their
bodies.  A piece is written as a marked text: each of its characters carries the zone that stands behind
it.  So the pieces say by themselves, without a machine that reads them, where a value would land at
every place of the markup (`zoneAt`).
-/

namespace TemplateAudit

namespace Markup

/-! ## Zones -/

/-- What a place of markup belongs to. -/
inductive Zone where
  /-- Body text. -/
  | body
  /-- The place behind a `<` that opens something. -/
  | opening
  /-- The place behind `<!`. -/
  | bang
  /-- The place behind `<!-`. -/
  | bangDash
  /-- A comment. -/
  | comment
  /-- A tag, or a document type, outside of attribute values. -/
  | tag
  /-- The place between `=` and a value. -/
  | beforeValue
  /-- A value in double quotes. -/
  | doubleQuoted
  /-- A value in single quotes. -/
  | singleQuoted
  /-- A value without quotes. -/
  | unquoted
  /-- The body of a script or style element. -/
  | rawText
  deriving DecidableEq, Repr

/-- Is it part of the value of an attribute? -/
def Zone.isValue : Zone → Bool
  | beforeValue | doubleQuoted | singleQuoted | unquoted => true
  | _ => false

/-- Is it part of a tag, a document type or a comment, outside of attribute values? -/
def Zone.isTag : Zone → Bool
  | opening | bang | bangDash | comment | tag => true
  | _ => false

/-- The zone that a state of the reading machine stands for. -/
def Context.zone : Context → Zone
  | data => .body
  | lt => .opening
  | bang => .bang
  | bangDash => .bangDash
  | tag _ _ => .tag
  | beforeValue _ => .beforeValue
  | doubleQuoted _ => .doubleQuoted
  | singleQuoted _ => .singleQuoted
  | unquoted _ => .unquoted
  | comment _ => .comment
  | rawText _ _ => .rawText

/-- A text whose characters carry the zones behind them. -/
abbrev MarkedText := List (Char × Zone)

/-- A text in one zone. -/
def Zone.on (zone : Zone) (s : Text) : MarkedText :=
  s.map (·, zone)

/-- A text in one zone, behind which another one stands. -/
def Zone.upTo (zone behind : Zone) (s : Text) : MarkedText :=
  zone.on s.dropLast ++ behind.on s.getLast?.toList

/-! ## Tags -/

/-- How a value is written. -/
inductive Quoting where
  | double
  | single
  | none
  deriving DecidableEq, Repr

/-- The value of an attribute, with the white space on both sides of the `=` in front of it. -/
structure AttrValue where
  before : Text
  after : Text
  quoting : Quoting
  content : Text
  deriving Repr

/-- An attribute, with the white space in front of it. -/
structure Attr where
  space : Text
  name : Text
  value : Option AttrValue
  deriving Repr

/-- A tag: its name, its attributes, and the white space and perhaps the slash in front of its `>`. -/
structure Tag where
  name : Text
  attrs : List Attr
  space : Text
  slash : Bool
  deriving Repr

/-- A value with its quotes. -/
def AttrValue.markedContent (value : AttrValue) : MarkedText :=
  match value.quoting with
  | .double => ('"', .doubleQuoted) :: Zone.on .doubleQuoted value.content ++ [('"', .tag)]
  | .single => ('\'', .singleQuoted) :: Zone.on .singleQuoted value.content ++ [('\'', .tag)]
  | .none => Zone.on .unquoted value.content

/-- What follows the name of an attribute with a value. -/
def AttrValue.marked (value : AttrValue) : MarkedText :=
  Zone.on .tag value.before ++ ('=', .beforeValue) :: Zone.on .beforeValue value.after ++
    value.markedContent

/-- An attribute, written. -/
def Attr.marked (attr : Attr) : MarkedText :=
  Zone.on .tag attr.space ++ Zone.on .tag attr.name ++ (attr.value.map AttrValue.marked).getD []

/-- What stands between the name of a tag and its `>`. -/
def Tag.markedRest (tag : Tag) : MarkedText :=
  tag.attrs.flatMap Attr.marked ++ Zone.on .tag tag.space ++
    (if tag.slash then [('/', .tag)] else [])

/-- Does the `>` or the slash of a tag follow a value without quotes at once? -/
def Tag.endsUnquoted (tag : Tag) : Bool :=
  tag.space.isEmpty &&
    tag.attrs.getLast?.any fun attr => attr.value.any fun value => value.quoting == .none

/-! ## Pieces -/

/-- A piece of markup. -/
inductive Piece where
  /-- Body text. -/
  | text (content : Text)
  /-- A comment. -/
  | comment (content : Text)
  /-- A document type. -/
  | doctype (content : Text)
  /-- The start tag of an element that is no script or style element. -/
  | startTag (tag : Tag)
  /-- An end tag. -/
  | endTag (tag : Tag)
  /-- A script or style element: its start tag, its body, and its end tag. -/
  | rawElement (start : Tag) (body : Text) (ending : Tag)
  deriving Repr

/-- A piece, written. -/
def Piece.marked : Piece → MarkedText
  | text content => Zone.on .body content
  | comment content =>
    [('<', .opening), ('!', .bang), ('-', .bangDash), ('-', .comment)] ++ Zone.on .comment content ++
      [('-', .comment), ('-', .comment), ('>', .body)]
  | doctype content =>
    [('<', .opening), ('!', .bang)] ++ Zone.on .tag ("DOCTYPE".toList ++ content) ++ [('>', .body)]
  | startTag tag => ('<', .opening) :: Zone.on .tag tag.name ++ tag.markedRest ++ [('>', .body)]
  | endTag tag =>
    ('<', .opening) :: ('/', .tag) :: Zone.on .tag tag.name ++ tag.markedRest ++ [('>', .body)]
  | rawElement start body ending =>
    ('<', .opening) :: Zone.on .tag start.name ++ start.markedRest ++ ('>', .rawText) ::
      Zone.on .rawText body ++ Zone.upTo .rawText .tag ('<' :: '/' :: ending.name) ++
      ending.markedRest ++ [('>', .body)]

/-- Pieces in a row, written. -/
def markedAll (pieces : List Piece) : MarkedText :=
  pieces.flatMap Piece.marked

/-- The text of pieces in a row. -/
def written (pieces : List Piece) : Text :=
  (markedAll pieces).map Prod.fst

/-- The zone behind so many characters of pieces in a row. -/
def zoneAt (pieces : List Piece) (count : Nat) : Zone :=
  (((markedAll pieces).take count).getLast?.map Prod.snd).getD .body

/-! ## Rules of writing -/

/-- Is a text white space only? -/
def IsSpace (s : Text) : Prop :=
  ∀ c ∈ s, Text.isBlank c = true

instance (s : Text) : Decidable (IsSpace s) :=
  Text.decidableForallMem _ s

/-- May the character stand in a name? -/
def isNameChar (c : Char) : Bool :=
  !Text.isBlank c && !([('"' : Char), '\'', '=', '>', '/'].contains c)

/-- May a text be a name? -/
def IsName (s : Text) : Prop :=
  ∀ c ∈ s, isNameChar c = true

instance (s : Text) : Decidable (IsName s) :=
  Text.decidableForallMem _ s

/-- A value does not hold what it ends at. -/
def Quoting.Fits (content : Text) : Quoting → Prop
  | .double => '"' ∉ content
  | .single => '\'' ∉ content
  | .none => content ≠ [] ∧ (∀ c ∈ content, Text.isBlank c = false ∧ c ≠ '>') ∧
      ∀ c ∈ content.head?, c ≠ '"' ∧ c ≠ '\''

instance (content : Text) : (quoting : Quoting) → Decidable (quoting.Fits content)
  | .double => inferInstanceAs (Decidable ('"' ∉ content))
  | .single => inferInstanceAs (Decidable ('\'' ∉ content))
  | .none =>
    @instDecidableAnd _ _ _ (@instDecidableAnd _ _ (Text.decidableForallMem _ content)
      (Text.decidableForallMemOption _ content.head?))

/-- A value is written by the rules. -/
def AttrValue.WellFormed (value : AttrValue) : Prop :=
  IsSpace value.before ∧ IsSpace value.after ∧ value.quoting.Fits value.content

instance (value : AttrValue) : Decidable value.WellFormed :=
  inferInstanceAs (Decidable (_ ∧ _ ∧ _))

/-- An attribute is written by the rules; there is white space in front of it. -/
def Attr.WellFormed (attr : Attr) : Prop :=
  attr.space ≠ [] ∧ IsSpace attr.space ∧ IsName attr.name ∧ ∀ value ∈ attr.value, value.WellFormed

instance (attr : Attr) : Decidable attr.WellFormed :=
  @instDecidableAnd _ _ _ (@instDecidableAnd _ _ _ (@instDecidableAnd _ _ _
    (Option.decidableForallMem attr.value)))

/-- A tag is written by the rules; a slash does not follow a value without quotes at once. -/
def Tag.WellFormed (tag : Tag) : Prop :=
  IsName tag.name ∧ (∀ attr ∈ tag.attrs, attr.WellFormed) ∧ IsSpace tag.space ∧
    (tag.slash = true → tag.endsUnquoted = false)

instance (tag : Tag) : Decidable tag.WellFormed :=
  inferInstanceAs (Decidable (_ ∧ _ ∧ _ ∧ _))

/-- The name of a tag in small letters. -/
def Tag.element (tag : Tag) : Text :=
  tag.name.map Char.toLower

/-- May the tag be the start tag of an element that is no script or style element?  Its name is made of
ASCII characters, a letter first. -/
def Tag.OpensElement (tag : Tag) : Prop :=
  tag.name.head?.any Char.isAlpha = true ∧ (∀ c ∈ tag.name, c.toNat < 128) ∧
    tag.element ∉ Context.rawTextElements

instance (tag : Tag) : Decidable tag.OpensElement :=
  @instDecidableAnd _ _ _ (@instDecidableAnd _ _ (Text.decidableForallMem _ _) _)

/-- A piece is written by the rules. -/
def Piece.WellFormed : Piece → Prop
  | text content => '<' ∉ content
  | comment content =>
    ¬['>'] <+: content ∧ ¬['-', '>'] <+: content ∧ ¬['-', '-', '>'] <:+: content
  | doctype content => ∀ c ∈ content, c ≠ '>' ∧ c ≠ '='
  | startTag tag => tag.WellFormed ∧ tag.OpensElement
  | endTag tag => tag.WellFormed
  | rawElement start body ending =>
    start.WellFormed ∧ ending.WellFormed ∧ start.slash = false ∧
      start.element ∈ Context.rawTextElements ∧ ending.element = start.element ∧
      ¬Context.rawTextEnd start.element <:+: body.map Char.toLower

instance : (piece : Piece) → Decidable piece.WellFormed
  | .text content => inferInstanceAs (Decidable ('<' ∉ content))
  | .comment _ => inferInstanceAs (Decidable (¬_ ∧ ¬_ ∧ ¬_))
  | .doctype content => Text.decidableForallMem _ content
  | .startTag _ => inferInstanceAs (Decidable (_ ∧ _))
  | .endTag tag => inferInstanceAs (Decidable tag.WellFormed)
  | .rawElement _ _ _ => inferInstanceAs (Decidable (_ ∧ _ ∧ _ ∧ _ ∧ _ ∧ ¬_))

end Markup

end TemplateAudit
