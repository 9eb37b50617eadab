import TemplateAudit.Helper.Value

/-!
# Calls of view helpers

Template code such as `link_to "Home", root_path, class: "nav" do` is read as a call: an optional
receiver, a name, positional values, options, and whether a block follows.
-/

namespace TemplateAudit

namespace Helper

/-- A call of a helper. -/
structure Call where
  receiver : Option Text
  name : Text
  args : List Value
  options : List (Text × Value)
  block : Bool
  deriving Repr, Inhabited

/-! ## The start of a block -/

/-- Is the text nothing but white space, but for an optional list of block parameters between bars
in front of it? -/
def isBlockHead (s : Text) : Bool :=
  match Text.trimStart s with
  | [] => true
  | '|' :: s' =>
    match Text.cutAtChar '|' s' with
    | some cut => Text.saysNothing cut.2
    | none => false
  | _ => false

/-- Does the text begin with white space and then open a block that goes on to its end? -/
def opensBlockHere : Text → Bool
  | [] => false
  | c :: s =>
    Text.isBlank c &&
      match Text.trimStart s with
      | 'd' :: 'o' :: rest => isBlockHead rest
      | _ => false

/-- The code in front of the `do` that opens a block at its end. -/
def beforeBlock? : Text → Option Text
  | [] => none
  | c :: s => if opensBlockHere (c :: s) then some [] else (beforeBlock? s).map (c :: ·)

/-- Does a block begin at the end of the code? -/
def opensBlock (code : Text) : Bool :=
  (beforeBlock? code).isSome

/-! ## The head of a call -/

/-- May the name of a helper or its receiver begin with the character? -/
def beginsName (c : Char) : Bool :=
  c.isLower || c == '_'

/-- The name a text begins with, and the text after it. -/
def name? : Text → Option (Text × Text)
  | [] => none
  | c :: s =>
    if beginsName c then some (c :: s.takeWhile Text.isWordChar, s.dropWhile Text.isWordChar)
    else none

/-- A name together with a question or exclamation mark that may end it, and the text after it. -/
def markedName? (s : Text) : Option (Text × Text) :=
  match name? s with
  | some (name, '?' :: rest) => some (name ++ ['?'], rest)
  | some (name, '!' :: rest) => some (name ++ ['!'], rest)
  | found => found

/-- The receiver and the name that code begins with, and the text after them. -/
def head? (code : Text) : Option (Option Text × Text × Text) :=
  let plain := (markedName? code).map fun found => (none, found)
  match name? code with
  | some (receiver, '.' :: rest) =>
    match markedName? rest with
    | some found => some (some receiver, found)
    | none => plain
  | _ => plain

/-! ## Reading a call -/

/-- The text of the arguments after the name of a helper: in parentheses, or after white space. -/
def argumentText? : Text → Option Text
  | '(' :: s =>
    match closingParen? ('(' :: s) with
    | some index => some (s.take (index - 1))
    | none => none
  | c :: s =>
    if Text.saysNothing (c :: s) then some []
    else if Text.isBlank c then some (Text.trim (c :: s))
    else none
  | [] => some []

/-- Positional values and options with one more argument read.  The entries of a hash that is no
option itself are options. -/
def addArgument (found : List Value × List (Text × Value)) (piece : Text) :
    List Value × List (Text × Value) :=
  match keyed? piece with
  | some entry => (found.1, Pairs.put entry.1 (Value.read entry.2) found.2)
  | none =>
    match Value.read piece with
    | .hash entries => (found.1, Pairs.putAll entries found.2)
    | value => (found.1 ++ [value], found.2)

/-- The call that code consists of. -/
def Call.read? (code : Text) : Option Call :=
  let code := Text.trim code
  let before := beforeBlock? code
  match head? ((before.map Text.trimEnd).getD code) with
  | none => none
  | some (receiver, name, rest) =>
    match argumentText? rest with
    | none => none
    | some arguments =>
      let found := (pieces ',' arguments).foldl addArgument ([], [])
      some ⟨receiver, name, found.1, found.2, before.isSome⟩

end Helper

end TemplateAudit
