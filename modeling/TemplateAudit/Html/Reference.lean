import TemplateAudit.Decimal.Numeral

/-!
# Character references

Markup writes a character by its number, `&#8226;` or `&#x2022;`, or by its name, `&bull;`.  Body
text and attribute values read references by slightly different rules: in an attribute value some
names need no semicolon and control characters vanish.  A number of too many decimal digits is read
nowhere.
-/

namespace TemplateAudit

namespace Html

/-! ## Numbers -/

/-- The characters that the numbers from 128 to 159 stand for in the Windows character set for
Western Europe; a number that is not listed stands for itself. -/
def westernRange : List (Nat × Nat) :=
  [(0x80, 0x20AC), (0x82, 0x201A), (0x83, 0x0192), (0x84, 0x201E), (0x85, 0x2026), (0x86, 0x2020),
    (0x87, 0x2021), (0x88, 0x02C6), (0x89, 0x2030), (0x8A, 0x0160), (0x8B, 0x2039), (0x8C, 0x0152),
    (0x8E, 0x017D), (0x91, 0x2018), (0x92, 0x2019), (0x93, 0x201C), (0x94, 0x201D), (0x95, 0x2022),
    (0x96, 0x2013), (0x97, 0x2014), (0x98, 0x02DC), (0x99, 0x2122), (0x9A, 0x0161), (0x9B, 0x203A),
    (0x9C, 0x0153), (0x9E, 0x017E), (0x9F, 0x0178)]

/-- The character with a given number; a number that no character has gives the replacement
character. -/
def charOfNumber (n : Nat) : Char :=
  if n = 0 ∨ ¬n.isValidChar then '\uFFFD' else Char.ofNat ((westernRange.lookup n).getD n)

/-- Is a number one of a control character or of a code point that is no character? -/
def isUnusable (n : Nat) : Bool :=
  (1 ≤ n && n ≤ 8) || n == 0xB || (0xE ≤ n && n ≤ 0x1F) || n == 0x7F ||
    (0xFDD0 ≤ n && n ≤ 0xFDEF) || (0xFFFE ≤ n % 0x10000 && n ≤ 0x10FFFF)

/-- The value of a digit, the letters a to f included. -/
def hexValue (c : Char) : Nat :=
  if c.isDigit then c.toNat - '0'.toNat
  else if c.isUpper then c.toNat - 'A'.toNat + 10
  else c.toNat - 'a'.toNat + 10

/-- Is the character a hexadecimal digit? -/
def isHexDigit (c : Char) : Bool :=
  c.isDigit || ('a' ≤ c && c ≤ 'f') || ('A' ≤ c && c ≤ 'F')

/-- The number that digits write in a base. -/
def numberOf (base : Nat) (digits : Text) : Nat :=
  digits.foldl (fun n c => n * base + hexValue c) 0

/-- The number of a reference as it is written. -/
inductive Numbered where
  | number (n : Nat)
  /-- It has more decimal digits than are read. -/
  | tooLong
  deriving DecidableEq, Repr

/-- The number at the start of a text, decimal or hexadecimal after an `x`, and the text after it. -/
def number? (s : Text) : Option (Numbered × Text) :=
  match s with
  | 'x' :: s | 'X' :: s =>
    let digits := s.takeWhile isHexDigit
    if digits.isEmpty then none else some (.number (numberOf 16 digits), s.dropWhile isHexDigit)
  | s =>
    let digits := s.takeWhile Char.isDigit
    if digits.isEmpty then none
    else
      some (if digits.length ≤ Decimal.mostDigits then .number (numberOf 10 digits) else .tooLong,
        s.dropWhile Char.isDigit)

/-! ## Names -/

/-- A name for a character; an old name stands for it in attribute values also without a
semicolon. -/
structure Name where
  name : Text
  char : Char
  old : Bool
  deriving Repr

/-- The names that templates use. -/
def names : List Name :=
  [⟨"amp", '&', true⟩, ⟨"lt", '<', true⟩, ⟨"gt", '>', true⟩, ⟨"quot", '"', true⟩,
    ⟨"nbsp", '\u00A0', true⟩, ⟨"copy", '©', true⟩, ⟨"eacute", 'é', true⟩, ⟨"bull", '•', false⟩,
    ⟨"hellip", '…', false⟩, ⟨"rarr", '→', false⟩]

/-- The character that has a name. -/
def named? (name : Text) : Option Char :=
  (names.find? (·.name == name)).map (·.char)

/-- The character that has an old name. -/
def oldNamed? (name : Text) : Option Char :=
  (names.find? fun entry => entry.old && entry.name == name).map (·.char)

/-! ## Body text -/

/-- The text that a name in body text stands for; a name that is not known stays, without its
semicolon. -/
def bodyNamed (name : Text) : Text :=
  match named? name with
  | some c => [c]
  | none => '&' :: name

/-! ## Attribute values -/

/-- The text for a number in an attribute value. -/
def valueNumbered (n : Nat) : Text :=
  if isUnusable n then [] else [charOfNumber n]

/-- May a character stand in the name of a reference in an attribute value? -/
def isNameChar (c : Char) : Bool :=
  !(c == '\t' || c == '\n' || c == '\x0c' || c == ' ' || c == '<' || c == '&' || c == '#' || c == ';')

/-- The character for the longest old name that a name begins with, and the rest of the name. -/
def longestOldName? (name : Text) : Nat → Option (Char × Text)
  | 0 => none
  | n + 1 =>
    match oldNamed? (name.take (n + 1)) with
    | some c => some (c, name.drop (n + 1))
    | none => longestOldName? name n

/-- The text for a name in an attribute value, with the mark after it. -/
def valueNamed (name mark : Text) : Text :=
  match if mark.isEmpty then oldNamed? name else named? name with
  | some c => [c]
  | none =>
    match longestOldName? name name.length with
    | some (c, rest) => c :: (rest ++ mark)
    | none => '&' :: (name ++ mark)

/-- The semicolon that a text begins with, if any, and the text after it. -/
def semicolon : Text → Text × Text
  | ';' :: s => ([';'], s)
  | s => ([], s)

/-- The reference after an `&` in an attribute value: the text it stands for, if its number can be
read, and the text after it. -/
def valueReference? (s : Text) : Option (Option Text × Text) :=
  match s with
  | '#' :: digits =>
    match number? digits with
    | some (.number n, rest) => some (some (valueNumbered n), (semicolon rest).2)
    | some (.tooLong, rest) => some (none, rest)
    | none => none
  | s =>
    let name := (s.takeWhile isNameChar).take 32
    if name.isEmpty then none
    else
      let mark := semicolon (s.drop name.length)
      some (some (valueNamed name mark.1), mark.2)

/-- An attribute value with its references read, from a place where `skip` characters of the last
reference still have to be passed over; nothing when it holds a number that is too long. -/
def readValueFrom? : Nat → Text → Option Text
  | _, [] => some []
  | skip + 1, _ :: s => readValueFrom? skip s
  | 0, '&' :: s =>
    match valueReference? s with
    | some (some text, rest) => (readValueFrom? (s.length - rest.length) s).map (text ++ ·)
    | some (none, _) => none
    | none => (readValueFrom? 0 s).map ('&' :: ·)
  | 0, c :: s => (readValueFrom? 0 s).map (c :: ·)

/-- An attribute value with its references read; nothing when it holds a number that is too long. -/
def readValue? (value : Text) : Option Text :=
  readValueFrom? 0 value

end Html

end TemplateAudit
