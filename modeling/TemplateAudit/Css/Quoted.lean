import TemplateAudit.Html.Reference

/-!
# Strings in selectors

A value goes into a selector as a string in double quotes.  A quote and a backslash get a backslash
in front; a control character is written by its number, with a space after it so that the character
that follows is not taken for a part of the number.
-/

namespace TemplateAudit

namespace Css

/-! ## Writing -/

/-- The digits of a number to the base 16, in small letters. -/
def hexDigits (n : Nat) : Text :=
  Nat.toDigits 16 n

/-- A character of a string as it is written. -/
def quoteChar (c : Char) : Text :=
  if c = '"' ∨ c = '\\' then ['\\', c]
  else if c = '\x00' then ['\uFFFD']
  else if c.toNat < 0x20 ∨ c.toNat = 0x7F then '\\' :: (hexDigits c.toNat ++ [' '])
  else [c]

/-- A string with its quotes. -/
def quote (s : Text) : Text :=
  '"' :: (s.flatMap quoteChar ++ ['"'])

/-! ## Reading -/

/-- The white space that ends the number of a character. -/
def isNumberEnd (c : Char) : Bool :=
  c == ' ' || c == '\t' || c == '\n' || c == '\r' || c == '\x0c'

/-- The character a number stands for; a number that no character has gives the replacement
character. -/
def charOfNumber (n : Nat) : Char :=
  if n = 0 ∨ ¬n.isValidChar then '\uFFFD' else Char.ofNat n

/-- The digits of a number after a backslash, at most six. -/
def numberDigits (s : Text) : Text :=
  (s.take 6).takeWhile Html.isHexDigit

/-- What an escape stands for, given the text after its backslash, and how many characters of that
text belong to it. -/
def readEscape (s : Text) : Text × Nat :=
  match numberDigits s with
  | [] => (s.take 1, 1)
  | digits =>
    let ended := ((s.drop digits.length).head?).any isNumberEnd
    ([charOfNumber (Html.numberOf 16 digits)], digits.length + if ended then 1 else 0)

/-- The body of a string with its escapes read; `skip` characters of the last escape still have to be
passed over. -/
def decodeFrom : Nat → Text → Text
  | _, [] => []
  | skip + 1, _ :: s => decodeFrom skip s
  | 0, '\\' :: s => (readEscape s).1 ++ decodeFrom (readEscape s).2 s
  | 0, c :: s => c :: decodeFrom 0 s

/-- The body of a string with its escapes read. -/
def decode (body : Text) : Text :=
  decodeFrom 0 body

/-- The body of the string in double quotes at the start of a text, and the text after it.  A
backslash protects the next character; a line end does not belong in a string. -/
def stringBody? : Text → Option (Text × Text)
  | [] => none
  | '\\' :: c :: s => (stringBody? s).map fun found => ('\\' :: c :: found.1, found.2)
  | c :: s =>
    if c = '"' then some ([], s)
    else if c = '\n' ∨ c = '\r' ∨ c = '\x0c' then none
    else (stringBody? s).map fun found => (c :: found.1, found.2)

/-- The string at the start of a text, and the text after it. -/
def string? : Text → Option (Text × Text)
  | '"' :: s => (stringBody? s).map fun found => (decode found.1, found.2)
  | _ => none

end Css

end TemplateAudit
