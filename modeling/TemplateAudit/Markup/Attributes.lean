import TemplateAudit.Text.Blank

/-!
# Reading written attributes

The other side of writing attributes: in front of each one stands a space, its name goes up to the equals sign, and
its value up to the next double quote.  References in a value stand for characters.
-/

namespace TemplateAudit

namespace Markup

/-- The text with the references for characters that mean something in markup resolved, from left to right; an
ampersand that begins no such reference stands for itself. -/
def unescape : Text → Text
  | [] => []
  | '&' :: 'a' :: 'm' :: 'p' :: ';' :: s => '&' :: unescape s
  | '&' :: 'l' :: 't' :: ';' :: s => '<' :: unescape s
  | '&' :: 'g' :: 't' :: ';' :: s => '>' :: unescape s
  | '&' :: 'q' :: 'u' :: 'o' :: 't' :: ';' :: s => '"' :: unescape s
  | '&' :: '#' :: 'x' :: '2' :: '7' :: ';' :: s => '\'' :: unescape s
  | c :: s => c :: unescape s

/-- May the name of an attribute hold the character?  White space, quotes, equals signs and the end of a tag have a
meaning between attributes. -/
def isWrittenNameChar (c : Char) : Bool :=
  !Text.isBlank c && c != '"' && c != '\'' && c != '=' && c != '>'

/-- The name of an attribute: not empty, and none of its characters means something between attributes. -/
def IsWrittenName (name : Text) : Prop :=
  name ≠ [] ∧ name.all isWrittenNameChar = true

instance (name : Text) : Decidable (IsWrittenName name) :=
  inferInstanceAs (Decidable (_ ∧ _))

/-- A text is read as attributes: a space, a name, an equals sign and a value up to the next double quote, over and
over until nothing is left. -/
inductive ReadAs : Text → List (Text × Text) → Prop
  | nil : ReadAs [] []
  | cons {name value rest : Text} {attrs : List (Text × Text)} (hname : IsWrittenName name) (hvalue : '"' ∉ value)
      (hrest : ReadAs rest attrs) :
      ReadAs (' ' :: (name ++ '=' :: '"' :: (value ++ '"' :: rest))) ((name, unescape value) :: attrs)

end Markup

end TemplateAudit
