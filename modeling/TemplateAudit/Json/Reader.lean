import TemplateAudit.Decimal.Numeral
import TemplateAudit.Html.Reference
import TemplateAudit.Json.Basic

/-!
# Reading JSON

A text is read as one JSON value, with white space around it.  The names `NaN`, `Infinity` and
`-Infinity` count as numbers.  Of fields with one name the last counts, at the place of the first.
-/

namespace TemplateAudit

namespace Json

/-- Why a text is not read. -/
inductive ReadError where
  /-- It is no JSON value. -/
  | malformed
  /-- It holds an integer with too many digits. -/
  | hugeInteger
  deriving DecidableEq, Repr

/-- Is the character white space between the parts of a value? -/
def isGap (c : Char) : Bool :=
  c == ' ' || c == '\t' || c == '\n' || c == '\r'

/-- The text after white space. -/
def skipGap (s : Text) : Text :=
  s.dropWhile isGap

/-! ## Strings -/

/-- The number that four hexadecimal digits write, and the text after them. -/
def fourHex? : Text → Option (Nat × Text)
  | a :: b :: c :: d :: s =>
    if [a, b, c, d].all Html.isHexDigit then some (Html.numberOf 16 [a, b, c, d], s) else none
  | _ => none

/-- The character that a letter stands for after a backslash. -/
def escaped? (c : Char) : Option Char :=
  [('"', '"'), ('\\', '\\'), ('/', '/'), ('b', '\x08'), ('f', '\x0c'), ('n', '\n'), ('r', '\r'),
    ('t', '\t')].lookup c

/-- Is a number the first half of a character beyond the first plane? -/
def isHighHalf (n : Nat) : Bool :=
  0xD800 ≤ n && n ≤ 0xDBFF

/-- Is a number the second half of a character beyond the first plane? -/
def isLowHalf (n : Nat) : Bool :=
  0xDC00 ≤ n && n ≤ 0xDFFF

/-- The character with a number; half a character gives the replacement character. -/
def charOf (n : Nat) : Char :=
  if n.isValidChar then Char.ofNat n else '\uFFFD'

/-- The character written by numbers after a backslash and a `u`, and the text after it.  Two numbers
may be the halves of one character. -/
def unicode? (s : Text) : Option (Char × Text) :=
  match fourHex? s with
  | none => none
  | some (n, rest) =>
    let alone := some (charOf n, rest)
    if isHighHalf n then
      match rest with
      | '\\' :: 'u' :: more =>
        match fourHex? more with
        | some (m, rest) =>
          if isLowHalf m then some (Char.ofNat (0x10000 + (n - 0xD800) * 0x400 + (m - 0xDC00)), rest)
          else alone
        | none => alone
      | _ => alone
    else alone

/-- The rest of a string up to its quote, and the text after it. -/
def readString : Nat → Text → Except ReadError (Text × Text)
  | _, [] => .error .malformed
  | 0, _ => .error .malformed
  | _ + 1, '"' :: s => .ok ([], s)
  | fuel + 1, '\\' :: 'u' :: s =>
    match unicode? s with
    | none => .error .malformed
    | some (c, rest) => (readString fuel rest).map fun found => (c :: found.1, found.2)
  | fuel + 1, '\\' :: c :: s =>
    match escaped? c with
    | none => .error .malformed
    | some d => (readString fuel s).map fun found => (d :: found.1, found.2)
  | fuel + 1, c :: s =>
    if c.toNat < 0x20 ∨ c = '\\' then .error .malformed
    else (readString fuel s).map fun found => (c :: found.1, found.2)

/-! ## Numbers -/

/-- The digits before the point of a number, and the text after them. -/
def wholeDigits? : Text → Option (Text × Text)
  | '0' :: s => some (['0'], s)
  | c :: s =>
    if c.isDigit then some (c :: s.takeWhile Char.isDigit, s.dropWhile Char.isDigit) else none
  | [] => none

/-- The digits after the point of a number, if there are any, and the text after them. -/
def fractionDigits (s : Text) : Text × Text :=
  match s with
  | '.' :: c :: t =>
    if c.isDigit then (c :: t.takeWhile Char.isDigit, t.dropWhile Char.isDigit) else ([], s)
  | _ => ([], s)

/-- The exponent of a number, if there is one, and the text after it. -/
def exponentOf (s : Text) : Option Int × Text :=
  match s with
  | c :: t =>
    if c = 'e' ∨ c = 'E' then
      let signed := Decimal.sign t
      let digits := signed.2.takeWhile Char.isDigit
      if digits.isEmpty then (none, s)
      else (some (Decimal.intOf signed.1 digits), signed.2.dropWhile Char.isDigit)
    else (none, s)
  | [] => (none, s)

/-- The number without a sign at the start of a text, and the text after it. -/
def readUnsigned (negative : Bool) (s : Text) : Except ReadError (Json × Text) :=
  match wholeDigits? s with
  | none => .error .malformed
  | some (whole, s) =>
    let fraction := fractionDigits s
    let exponent := exponentOf fraction.2
    if fraction.1.isEmpty && exponent.1.isNone then
      if Decimal.mostDigits < whole.length then .error .hugeInteger
      else .ok (int (Decimal.intOf negative whole), exponent.2)
    else
      .ok (float (Decimal.doubleOf negative whole fraction.1 (exponent.1.getD 0)), exponent.2)

/-! ## Values -/

/-- The values that a name stands for. -/
def namedValues : List (Text × Json) :=
  [("null", null), ("true", bool true), ("false", bool false), ("NaN", float .nan),
    ("Infinity", float (.infinite false)), ("-Infinity", float (.infinite true))]

/-- The value at the start of a text that is a name or a number, and the text after it. -/
def readPlain (s : Text) : Except ReadError (Json × Text) :=
  match namedValues.findSome? fun named => (named.1.isPrefixOf? s).map (named.2, ·) with
  | some found => .ok found
  | none =>
    match s with
    | '-' :: s => readUnsigned true s
    | s => readUnsigned false s

mutual

/-- The value at the start of a text, and the text after it. -/
def readValue : Nat → Text → Except ReadError (Json × Text)
  | 0, _ => .error .malformed
  | _ + 1, '"' :: s => (readString (s.length + 1) s).map fun found => (str found.1, found.2)
  | fuel + 1, '[' :: s =>
    match skipGap s with
    | ']' :: rest => .ok (arr [], rest)
    | s => (readItems fuel s).map fun found => (arr found.1, found.2)
  | fuel + 1, '\x7b' :: s =>
    match skipGap s with
    | '\x7d' :: rest => .ok (obj [], rest)
    | s => (readFields fuel s).map fun found => (obj (Pairs.ofEntries found.1), found.2)
  | _ + 1, s => readPlain s

/-- The items of an array from a text on, and the text after the bracket that closes it. -/
def readItems : Nat → Text → Except ReadError (List Json × Text)
  | 0, _ => .error .malformed
  | fuel + 1, s => do
    let (item, s) ← readValue fuel s
    match skipGap s with
    | ',' :: s =>
      let (items, s) ← readItems fuel (skipGap s)
      return (item :: items, s)
    | ']' :: s => return ([item], s)
    | _ => .error .malformed

/-- The fields of an object from a text on, and the text after the brace that closes it. -/
def readFields : Nat → Text → Except ReadError (List (Text × Json) × Text)
  | 0, _ => .error .malformed
  | fuel + 1, '"' :: s => do
    let (name, s) ← readString (s.length + 1) s
    match skipGap s with
    | ':' :: s =>
      let (value, s) ← readValue fuel (skipGap s)
      match skipGap s with
      | ',' :: s =>
        let (fields, s) ← readFields fuel (skipGap s)
        return ((name, value) :: fields, s)
      | '\x7d' :: s => return ([(name, value)], s)
      | _ => .error .malformed
    | _ => .error .malformed
  | _ + 1, _ => .error .malformed

end

/-- The value that a text writes. -/
def read (s : Text) : Except ReadError Json :=
  match readValue (s.length + 1) (skipGap s) with
  | .error reason => .error reason
  | .ok (value, rest) => if (skipGap rest).isEmpty then .ok value else .error .malformed

end Json

end TemplateAudit
