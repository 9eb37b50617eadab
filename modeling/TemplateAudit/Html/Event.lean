import TemplateAudit.Html.Reference
import TemplateAudit.Text.Blank
import TemplateAudit.Text.Case

/-!
# Reading markup

Markup is read as a list of events: text, start tags with their attributes, end tags, and the
constructs that are neither.  The reader is lenient: what is no well-formed construct is text.  Only
a marked section of an unknown kind and a character reference with too long a number are refused.

The text is read twice over.  The first time the reader stops at a construct that the text does not
finish; the second time it goes on from there, knowing that no more text will come.
-/

namespace TemplateAudit

namespace Html

/-- What the reader of markup meets. -/
inductive Event where
  /-- A piece of text; neighbouring pieces belong together. -/
  | text (data : Text)
  /-- A start tag with its attributes as written. -/
  | startTag (name : Text) (attrs : List (Text × Text)) (selfClosing : Bool)
  /-- An end tag. -/
  | endTag (name : Text)
  /-- A section of unread text. -/
  | cdata (data : Text)
  /-- A comment, declaration or processing instruction. -/
  | aside
  deriving DecidableEq, Repr

/-- Markup that the reader refuses. -/
inductive Rejection where
  /-- A marked section has no name. -/
  | sectionWithoutName
  /-- A marked section has a name that no kind of section has. -/
  | unknownSection (name : Text)
  /-- A character reference has a number of more decimal digits than are read. -/
  | longNumber
  deriving DecidableEq, Repr

/-- What became of reading one construct. -/
inductive Construct where
  /-- It was read, and reading goes on at `rest`; `raw` names the element whose body is text only, if
  that is where reading goes on. -/
  | read (event : List Event) (raw : Option Text) (rest : Text)
  /-- The text ends within it. -/
  | unfinished
  /-- It is refused. -/
  | rejected (reason : Rejection)
  deriving Repr

/-! ## Start tags -/

/-- May the name of a tag go on with the character? -/
def isTagNameChar (c : Char) : Bool :=
  !(c == '\t' || c == '\n' || c == '\r' || c == '\x0c' || c == ' ' || c == '/' || c == '>' ||
    c == '\x00')

/-- The name of a tag at the start of a text, and the text after it. -/
def tagName? : Text → Option (Text × Text)
  | [] => none
  | c :: s =>
    if c.isAlpha then some (c :: s.takeWhile isTagNameChar, s.dropWhile isTagNameChar) else none

/-- The text after the white space and the slashes that part attributes; a slash before the end of
the tag stays. -/
def skipGap : Text → Text
  | [] => []
  | '/' :: '>' :: s => '/' :: '>' :: s
  | c :: s => if c = '/' || Text.isBlank c then skipGap s else c :: s

/-- May an attribute value without quotes hold the character? -/
def isBareChar (c : Char) : Bool :=
  !(c == '>' || Text.isBlank c)

/-- The value without quotes at the start of a text, and the text after it. -/
def bareValue (s : Text) : Text × Text :=
  (s.takeWhile isBareChar, s.dropWhile isBareChar)

/-- The value at the start of a text, and the text after it; nothing when a quote is not closed. -/
def closedValue? : Text → Option (Text × Text)
  | '"' :: s => Text.cutAtChar '"' s
  | '\'' :: s => Text.cutAtChar '\'' s
  | s => some (bareValue s)

/-- The value after the name of an attribute, and the text after it.  Several equals signs count as
one.  Before a quote that is not closed the value is empty if white space stands there; else the
last of several signs belongs to a value without quotes. -/
def value? (s : Text) : Option (Text × Text) :=
  match Text.trimStart s with
  | '=' :: signs =>
    let afterSigns := signs.dropWhile (· == '=')
    let start := Text.trimStart afterSigns
    match closedValue? start with
    | some found => some found
    | none =>
      if start.length < afterSigns.length then some ([], start)
      else if afterSigns.length < signs.length then some (bareValue ('=' :: start))
      else none
  | _ => none

/-- May an attribute begin after the character? -/
def mayPrecedeAttribute (c : Char) : Bool :=
  c == '\'' || c == '"' || c == '/' || Text.isBlank c

/-- May the name of an attribute go on with the character? -/
def isAttributeNameChar (c : Char) : Bool :=
  !(c == '/' || c == '=' || c == '>' || Text.isBlank c)

/-- The attribute at the start of a text that stands after the character `before`, with its value as
written, and the text after it and the gap that follows. -/
def attribute? (before : Char) : Text → Option ((Text × Text) × Text)
  | [] => none
  | c :: s =>
    if mayPrecedeAttribute before && !(c == '/' || c == '>' || Text.isBlank c) then
      let name := Text.lower (c :: s.takeWhile isAttributeNameChar)
      let rest := s.dropWhile isAttributeNameChar
      match value? rest with
      | some (value, rest) => some ((name, value), skipGap rest)
      | none => some ((name, []), skipGap rest)
    else none

theorem length_skipGap_le (s : Text) : (skipGap s).length ≤ s.length := by
  fun_induction skipGap s with
  | case1 => simp
  | case2 s => simp
  | case3 c s _ _ ih => exact Nat.le_succ_of_le ih
  | case4 c s _ _ => simp

theorem length_cutAtChar_lt {mark : Char} {s : Text} {cut : Text × Text}
    (h : Text.cutAtChar mark s = some cut) : cut.2.length < s.length := by
  induction s generalizing cut with
  | nil => simp [Text.cutAtChar] at h
  | cons c s ih =>
    unfold Text.cutAtChar at h
    split at h
    · cases h; simp
    · obtain ⟨cut', hcut, rfl⟩ := Option.map_eq_some_iff.1 h
      have shorter := ih hcut
      exact Nat.lt_succ_of_lt shorter

theorem length_closedValue?_le {s : Text} {found : Text × Text} (h : closedValue? s = some found) :
    found.2.length ≤ s.length := by
  unfold closedValue? at h
  split at h
  · exact Nat.le_succ_of_le (Nat.le_of_lt (length_cutAtChar_lt h))
  · exact Nat.le_succ_of_le (Nat.le_of_lt (length_cutAtChar_lt h))
  · cases h
    exact Text.length_dropWhile_le _ s

theorem length_value?_le {s : Text} {found : Text × Text} (h : value? s = some found) :
    found.2.length ≤ s.length := by
  unfold value? at h
  split at h
  · next signs heq =>
    have h₁ := Text.length_trimStart_le s
    rw [heq] at h₁
    have h₂ := Text.length_dropWhile_le (· == '=') signs
    have h₃ := Text.length_trimStart_le (signs.dropWhile (· == '='))
    simp only [List.length_cons] at h₁
    dsimp only at h
    split at h
    · next found' hc =>
      cases h
      have h₄ := length_closedValue?_le hc
      omega
    · split at h
      · cases h
        dsimp only
        omega
      · split at h
        · cases h
          have h₄ := Text.length_dropWhile_le isBareChar
            ('=' :: Text.trimStart (signs.dropWhile (· == '=')))
          simp only [List.length_cons] at h₄
          simp only [bareValue]
          omega
        · simp at h
  · simp at h

theorem length_attribute?_lt {before : Char} {s : Text} {found : (Text × Text) × Text}
    (h : attribute? before s = some found) : found.2.length < s.length := by
  unfold attribute? at h
  split at h
  · simp at h
  · next c s =>
    split at h
    · have h₁ := Text.length_dropWhile_le isAttributeNameChar s
      dsimp only at h
      split at h
      · next value rest hv =>
        cases h
        have h₂ := length_value?_le hv
        have h₃ := length_skipGap_le rest
        simp only [List.length_cons] at h₂ ⊢
        omega
      · cases h
        have h₃ := length_skipGap_le (s.dropWhile isAttributeNameChar)
        simp only [List.length_cons]
        omega
    · simp at h

/-- The attributes at the start of a text that stands after the character `before`, and the text
after them. -/
def attributesOf (before : Char) (s : Text) : List (Text × Text) × Text :=
  match h : attribute? before s with
  | none => ([], s)
  | some (attr, rest) =>
    let found := attributesOf ((Text.consumed s rest).getLastD before) rest
    (attr :: found.1, found.2)
termination_by s.length
decreasing_by exact length_attribute?_lt h

/-- Attributes with the references in their values read; nothing when one cannot be read. -/
def readValues? : List (Text × Text) → Option (List (Text × Text))
  | [] => some []
  | (name, value) :: attrs =>
    match readValue? value, readValues? attrs with
    | some value, some attrs => some ((name, value) :: attrs)
    | _, _ => none

/-- The elements whose body is text only. -/
def rawElements : List Text :=
  ["script", "style"]

/-- The start tag that a text begins with. -/
def readStartTag (s : Text) : Construct :=
  match s with
  | [] => .unfinished
  | _ :: t =>
    match tagName? t with
    | none => .unfinished
    | some (written, afterName) =>
      let name := Text.lower written
      let gap := skipGap afterName
      let found := attributesOf ((Text.consumed s gap).getLastD '<') gap
      let finished : (List (Text × Text) → Construct) → Construct := fun construct =>
        match readValues? found.1 with
        | some attrs => construct attrs
        | none => .rejected .longNumber
      match found.2 with
      | [] => .unfinished
      | '>' :: rest =>
        finished fun attrs =>
          .read [.startTag name attrs false] (if rawElements.contains name then some name else none)
            rest
      | '/' :: '>' :: rest => finished fun attrs => .read [.startTag name attrs true] none rest
      | c :: _ =>
        if c.isAlpha || c == '=' || c == '/' then .unfinished
        else finished fun _ => .read [.text (Text.consumed s found.2)] none found.2

/-! ## End tags -/

/-- May the name in an end tag without anything else hold the character? -/
def isEndNameChar (c : Char) : Bool :=
  c.isAlphanum || c == '-' || c == '.' || c == ':' || c == '_'

/-- The name that an end tag holds, when it holds nothing else but white space. -/
def plainEndName? (inside : Text) : Option Text :=
  match Text.trim inside with
  | [] => none
  | c :: s => if c.isAlpha && s.all isEndNameChar then some (Text.lower (c :: s)) else none

/-- The end tag that a text begins with.  In an element whose body is text only, everything but its
own end tag is text. -/
def readEndTag (raw : Option Text) (s : Text) : Construct :=
  let t := s.drop 2
  match Text.cutAtChar '>' t with
  | none => .unfinished
  | some (inside, rest) =>
    let asText := Construct.read [.text (Text.consumed s rest)] raw rest
    match plainEndName? inside, raw with
    | some name, some element =>
      if name = element then .read [.endTag name] none rest else asText
    | some name, none => .read [.endTag name] none rest
    | none, some _ => asText
    | none, none =>
      match tagName? t with
      | some (name, _) => .read [.endTag (Text.lower name)] none rest
      | none => .read (if inside.isEmpty then [] else [.aside]) none rest

/-! ## Comments, declarations and sections -/

/-- The text after the first end of a comment. -/
def afterComment? : Text → Option Text
  | [] => none
  | '-' :: '-' :: s =>
    match Text.trimStart s with
    | '>' :: rest => some rest
    | _ => afterComment? ('-' :: s)
  | _ :: s => afterComment? s

/-- Something to pass over, when its end was found. -/
def asideUpTo (raw : Option Text) : Option Text → Construct
  | some rest => .read [.aside] raw rest
  | none => .unfinished

/-- The text after a closing bracket and white space, as often as `count` says, and a `>`. -/
def afterBrackets? : Nat → Text → Option Text
  | 0, s => match s with
    | '>' :: rest => some rest
    | _ => none
  | count + 1, s => match s with
    | ']' :: rest => afterBrackets? count (Text.trimStart rest)
    | _ => none

/-- The text in front of the first end of a section with `count` brackets, and the text after it. -/
def cutAtBrackets? (count : Nat) : Text → Option (Text × Text)
  | [] => none
  | c :: s =>
    match afterBrackets? count (c :: s) with
    | some rest => some ([], rest)
    | none => (cutAtBrackets? count s).map fun cut => (c :: cut.1, cut.2)

/-- May the name of a section go on with the character? -/
def isSectionNameChar (c : Char) : Bool :=
  c.isAlphanum || c == '-' || c == '_' || c == '.'

/-- How many brackets end a section of a given name. -/
def sectionBrackets? (name : Text) : Option Nat :=
  if [("temp" : Text), "cdata", "ignore", "include", "rcdata"].contains name then some 2
  else if [("if" : Text), "else", "endif"].contains name then some 1
  else none

/-- The event for the text of a section. -/
def sectionEvent (data : Text) : Event :=
  if Text.upper (data.take 6) = "CDATA[" then .cdata (data.drop 6) else .aside

/-- The marked section whose text after `<![` is given. -/
def readSection (raw : Option Text) : Text → Construct
  | [] => .unfinished
  | c :: s =>
    if c.isAlpha then
      let name := Text.lower (c :: s.takeWhile isSectionNameChar)
      if (Text.trimStart (s.dropWhile isSectionNameChar)).isEmpty then .unfinished
      else
        match sectionBrackets? name with
        | none => .rejected (.unknownSection name)
        | some count =>
          match cutAtBrackets? count (c :: s) with
          | none => .unfinished
          | some (data, rest) => .read [sectionEvent data] raw rest
    else .rejected .sectionWithoutName

/-- The declaration whose text after `<!` is given. -/
def readDeclaration (raw : Option Text) (s : Text) : Construct :=
  match s with
  | '-' :: '-' :: t => asideUpTo raw (afterComment? t)
  | '[' :: t => readSection raw t
  | s =>
    let t := if Text.lower (s.take 7) = "doctype" then s.drop 7 else s
    asideUpTo raw ((Text.cutAtChar '>' t).map Prod.snd)

/-! ## One step -/

/-- What became of one step of the reader. -/
inductive Step where
  /-- Reading goes on. -/
  | next (events : List Event) (raw : Option Text) (rest : Text)
  /-- Reading stops with some text left over. -/
  | stop (events : List Event) (rest : Text)
  /-- The markup is refused. -/
  | reject (reason : Rejection)
  deriving Repr

/-- The text in front of the next place where a construct may begin. -/
def isPlainChar (c : Char) : Bool :=
  !(c == '&' || c == '<')

/-- The text after an end tag of a given element, which may have white space around its name. -/
def afterRawEnd? (element : Text) : Text → Option Text
  | '<' :: '/' :: s =>
    match Text.afterPrefixButCase? element (Text.trimStart s) with
    | some rest =>
      match Text.trimStart rest with
      | '>' :: rest => some rest
      | _ => none
    | none => none
  | _ => none

/-- The text of an element in front of its end tag. -/
def beforeRawEnd? (element : Text) : Text → Option Text
  | [] => none
  | c :: s =>
    if (afterRawEnd? element (c :: s)).isSome then some []
    else (beforeRawEnd? element s).map (c :: ·)

/-- The text that stands in for a construct that never ends: up to its next `>`, or else up to the
next `<`, or else its first character only. -/
def unfinishedText (s : Text) : Text :=
  match s with
  | [] => []
  | c :: t =>
    match Text.cutAtChar '>' t with
    | some cut => c :: (cut.1 ++ ['>'])
    | none =>
      match Text.cutAtChar '<' t with
      | some cut => c :: cut.1
      | none => [c]

/-- The step at a `<`. -/
def stepAtTag (atEnd : Bool) (raw : Option Text) (s : Text) : Step :=
  let construct := match s.drop 1 with
    | [] => none
    | c :: t =>
      if c.isAlpha then some (readStartTag s)
      else if c = '/' then some (readEndTag raw s)
      else if c = '?' then some (asideUpTo raw ((Text.cutAtChar '>' t).map Prod.snd))
      else if c = '!' then some (readDeclaration raw t)
      else some (.read [.text ['<']] raw (c :: t))
  match construct with
  | none => .stop [] s
  | some (.read events raw rest) => .next events raw rest
  | some (.rejected reason) => .reject reason
  | some .unfinished =>
    if atEnd then
      let text := unfinishedText s
      .next [.text text] raw (s.drop text.length)
    else .stop [] s

/-- The number of a reference at the start of a text, when a character that is no digit follows, and
the text after it. -/
def bodyNumber? (s : Text) : Option (Numbered × Text) :=
  match number? s with
  | some (n, c :: rest) => if isHexDigit c then none else some (n, c :: rest)
  | _ => none

/-- May the name of a reference in body text go on with the character? -/
def isBodyNameChar (c : Char) : Bool :=
  c.isAlphanum || c == '-' || c == '.'

/-- The name of a reference at the start of a text, when a character that is no letter or digit
follows, and the text after it. -/
def bodyName? : Text → Option (Text × Text)
  | [] => none
  | c :: s =>
    if c.isAlpha then
      let name := c :: s.takeWhile isBodyNameChar
      match s.dropWhile isBodyNameChar with
      | [] =>
        -- the last character that is no letter or digit has to end the name
        match name.reverse.dropWhile Char.isAlphanum with
        | [] => none
        | _ :: start => some (start.reverse, name.drop start.length)
      | rest => some (name, rest)
    else none

/-- The step at an `&`, with the text after it. -/
def stepAtReference (atEnd : Bool) (raw : Option Text) (s : Text) : Step :=
  match s with
  | [] => .stop [] ['&']
  | '#' :: t =>
    match bodyNumber? t with
    | some (.number n, rest) => .next [.text [charOfNumber n]] raw (semicolon rest).2
    | some (.tooLong, _) => .reject .longNumber
    | none => if t.contains ';' then .stop [.text ['&', '#']] t else .stop [] ('&' :: s)
  | c :: t =>
    match bodyName? s with
    | some (name, rest) => .next [.text (bodyNamed name)] raw (semicolon rest).2
    | none =>
      if c.isAlpha then .stop [] (if atEnd && t.isEmpty then s else '&' :: s)
      else .next [.text ['&']] raw s

/-- One step of the reader. -/
def step (atEnd : Bool) (raw : Option Text) (s : Text) : Step :=
  let plain := match raw with
    | some element => beforeRawEnd? element s
    | none => some (s.takeWhile isPlainChar)
  match plain with
  | none => .stop [] s
  | some (c :: text) => .next [.text (c :: text)] raw (s.drop (text.length + 1))
  | some [] =>
    match s with
    | [] => .stop [] []
    | '&' :: t => stepAtReference atEnd raw t
    | s => stepAtTag atEnd raw s

/-! ## Reading it all -/

/-- The reader goes on until it stops: the events, and the text left over with the element it is in
the body of.  A step that reads nothing would stop it too. -/
def readOn (atEnd : Bool) (raw : Option Text) (s : Text) :
    Except Rejection (List Event × Option Text × Text) :=
  match step atEnd raw s with
  | .reject reason => .error reason
  | .stop events rest => .ok (events, raw, rest)
  | .next events raw' rest =>
    if rest.length < s.length then
      match readOn atEnd raw' rest with
      | .ok (more, end') => .ok (events ++ more, end')
      | .error reason => .error reason
    else .ok (events, raw', rest)
termination_by s.length

/-- The events of a text.  What is left over at the end is text, but for the body of an element that
is not closed, which is lost. -/
def events (markup : Text) : Except Rejection (List Event) := do
  let (first, raw, rest) ← readOn false none markup
  let (second, raw, rest) ← readOn true raw rest
  let last := if raw.isNone && !rest.isEmpty then [Event.text rest] else []
  return first ++ second ++ last

end Html

end TemplateAudit
