import TemplateAudit.Css.Quoted
import TemplateAudit.Css.Selector

/-!
# Reading selectors

The written form of selectors: tags, `*`, `.class`, `[name]`, `[name="value"]` with `^=` and `*=` and
the flag `i`, `:not(…)`, a space for an element within, `+` for the nearest element after, and commas
between alternatives.
-/

namespace TemplateAudit

namespace Css

/-! ## Words -/

/-- May a name in a selector hold the character? -/
def isIdentChar (c : Char) : Bool :=
  c.isAlphanum || c == '-' || c == '_' || 128 ≤ c.toNat

/-- The name at the start of a text, and the text after it. -/
def ident? (s : Text) : Option (Text × Text) :=
  let name := s.takeWhile isIdentChar
  if name.isEmpty then none else some (name, s.dropWhile isIdentChar)

/-- The text after white space. -/
def skipSpace (s : Text) : Text :=
  s.dropWhile isClassGap

/-! ## Conditions -/

/-- The comparison at the start of a text, and the text after it. -/
def comparison? : Text → Option (Comparison × Text)
  | '=' :: s => some (.equals, s)
  | '^' :: '=' :: s => some (.beginsWith, s)
  | '*' :: '=' :: s => some (.contains, s)
  | _ => none

/-- The end of the condition in brackets on a value, and the text after it. -/
def valueEnd? (name : Text) (how : Comparison) (wanted s : Text) : Option (Condition × Text) :=
  match skipSpace s with
  | ']' :: s => some (.value name how wanted false, s)
  | 'i' :: s =>
    match skipSpace s with
    | ']' :: s => some (.value name how wanted true, s)
    | _ => none
  | _ => none

/-- The condition after an opening bracket, and the text after it.  The name of an attribute may be
written in capitals. -/
def bracket? (s : Text) : Option (Condition × Text) :=
  match (ident? s).map fun found => (found.1.map Char.toLower, found.2) with
  | none => none
  | some (name, ']' :: s) => some (.present name, s)
  | some (name, s) =>
    match comparison? s with
    | none => none
    | some (how, s) =>
      match string? s with
      | none => none
      | some (wanted, s) => valueEnd? name how wanted s

/-- The condition at the start of a text, and the text after it. -/
def plainCondition? : Text → Option (Condition × Text)
  | '[' :: s => bracket? s
  | '.' :: s => (ident? s).map fun found => (.hasClass found.1, found.2)
  | _ => none

/-- The condition at the start of a text, perhaps in a `:not(…)`, and the text after it. -/
def condition? (s : Text) : Option (Condition × Text) :=
  match List.isPrefixOf? (":not(" : Text) s with
  | none => plainCondition? s
  | some s =>
    match plainCondition? s with
    | some (condition, ')' :: s) => some (.not condition, s)
    | _ => none

/-! ## Patterns -/

/-- The conditions at the start of a text, at most `fuel` of them, and the text after them. -/
def conditionsOf : Nat → Text → List Condition × Text
  | 0, s => ([], s)
  | fuel + 1, s =>
    match condition? s with
    | none => ([], s)
    | some (condition, rest) =>
      let found := conditionsOf fuel rest
      (condition :: found.1, found.2)

/-- The pattern for one element at the start of a text, and the text after it. -/
def simple? (s : Text) : Option (Pattern × Text) :=
  let start : Option (Option Text × Text) := match s with
    | '*' :: s => some (none, s)
    | s => (ident? s).map fun found => (some (found.1.map Char.toLower), found.2)
  match start with
  | some (tag, s) =>
    let found := conditionsOf s.length s
    some (.simple tag found.1, found.2)
  | none =>
    let found := conditionsOf s.length s
    if found.1.isEmpty then none else some (.simple none found.1, found.2)

/-- The alternatives from a text on in which a pattern is read already, with at most `fuel` more
patterns. -/
def selectorFrom? : Nat → Pattern → Text → Option Selector
  | 0, _, _ => none
  | fuel + 1, pattern, s =>
    match skipSpace s with
    | [] => some [pattern]
    | ',' :: rest =>
      match simple? (skipSpace rest) with
      | some (next, rest) => (selectorFrom? fuel next rest).map (pattern :: ·)
      | none => none
    | '+' :: rest =>
      match simple? (skipSpace rest) with
      | some (next, rest) => selectorFrom? fuel (.adjacent pattern next) rest
      | none => none
    | rest =>
      if rest.length < s.length then
        match simple? rest with
        | some (next, rest) => selectorFrom? fuel (.descendant pattern next) rest
        | none => none
      else none

/-- The selector that a text writes. -/
def Selector.read? (s : Text) : Option Selector :=
  match simple? (skipSpace s) with
  | some (pattern, rest) => selectorFrom? (s.length + 1) pattern rest
  | none => none

end Css

end TemplateAudit
