import TemplateAudit.Css.Quoted
import TemplateAudit.Decimal.Shortest
import TemplateAudit.Json.Basic

/-!
# Writing JSON

A value is written in a style: what stands between items and after names, whether items get lines of
their own, whether characters beyond ASCII are written by their numbers, and how numbers are set
out.
-/

namespace TemplateAudit

namespace Json

/-- How values are written. -/
structure Style where
  /-- What stands between the items of a value on one line. -/
  comma : Text
  /-- What stands between the name of a field and its value. -/
  colon : Text
  /-- By how many spaces items on lines of their own are indented. -/
  indent : Option Nat
  /-- Are characters beyond ASCII written by their numbers? -/
  ascii : Bool
  /-- How numbers are set out. -/
  layout : Decimal.Layout

/-- The style of the key of a finding: as short as it can be. -/
def keyStyle : Style :=
  ⟨",", ":", none, false, Decimal.keyLayout⟩

/-- The style of data on one line. -/
def lineStyle : Style :=
  ⟨", ", ": ", none, true, Decimal.fileLayout⟩

/-- The style of a file of its own, with a line for each item. -/
def fileStyle : Style :=
  ⟨",", ": ", some 2, true, Decimal.fileLayout⟩

/-! ## Strings -/

/-- Four hexadecimal digits for a number below 65536. -/
def fourHex (n : Nat) : Text :=
  let digits := Css.hexDigits n
  List.replicate (4 - digits.length) '0' ++ digits

/-- A number after a backslash and a `u`. -/
def numbered (n : Nat) : Text :=
  '\\' :: 'u' :: fourHex n

/-- A character written by its number; one beyond the first plane is written as its two halves. -/
def numberedChar (c : Char) : Text :=
  let n := c.toNat
  if n < 0x10000 then numbered n
  else numbered (0xD800 + (n - 0x10000) / 0x400) ++ numbered (0xDC00 + (n - 0x10000) % 0x400)

/-- The letter that stands for a character after a backslash. -/
def letterFor? (c : Char) : Option Char :=
  [('"', '"'), ('\\', '\\'), ('\n', 'n'), ('\r', 'r'), ('\t', 't'), ('\x08', 'b'),
    ('\x0c', 'f')].lookup c

/-- A character of a string as it is written. -/
def writeChar (ascii : Bool) (c : Char) : Text :=
  match letterFor? c with
  | some letter => ['\\', letter]
  | none => if c.toNat < 0x20 ∨ (ascii ∧ 0x7F ≤ c.toNat) then numberedChar c else [c]

/-- A string with its quotes. -/
def writeString (ascii : Bool) (s : Text) : Text :=
  '"' :: (s.flatMap (writeChar ascii) ++ ['"'])

/-! ## Values -/

/-- A line end with the indent for a depth, in a style with lines. -/
def Style.newline (style : Style) (depth : Nat) : Text :=
  match style.indent with
  | some width => '\n' :: List.replicate (width * depth) ' '
  | none => []

/-- Written items between brackets, at a depth. -/
def Style.enclose (style : Style) (depth : Nat) (first last : Char) (items : List Text) : Text :=
  if items.isEmpty then [first, last]
  else
    first :: (style.newline (depth + 1) ++
      Text.join (style.comma ++ style.newline (depth + 1)) items ++ style.newline depth ++ [last])

mutual

/-- A value at a depth, written in a style. -/
def writeAt (style : Style) (depth : Nat) : Json → Text
  | null => "null"
  | bool holds => if holds then "true" else "false"
  | int n => Text.ofInt n
  | float x => style.layout.write x
  | str text => writeString style.ascii text
  | arr items => style.enclose depth '[' ']' (writeItems style (depth + 1) items)
  | obj fields => style.enclose depth '\x7b' '\x7d' (writeFields style (depth + 1) fields)

/-- The items of an array at a depth, each written. -/
def writeItems (style : Style) (depth : Nat) : List Json → List Text
  | [] => []
  | item :: items => writeAt style depth item :: writeItems style depth items

/-- The fields of an object at a depth, each written. -/
def writeFields (style : Style) (depth : Nat) : List (Text × Json) → List Text
  | [] => []
  | (name, value) :: fields =>
    (writeString style.ascii name ++ style.colon ++ writeAt style depth value) ::
      writeFields style depth fields

end

/-- A value, written in a style. -/
def write (style : Style) (value : Json) : Text :=
  writeAt style 0 value

end Json

end TemplateAudit
