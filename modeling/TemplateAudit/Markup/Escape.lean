import TemplateAudit.Text.Basic

/-!
# Writing markup

Text goes into markup with the characters that mean something there written as references.
-/

namespace TemplateAudit

namespace Markup

/-- The reference for a character that means something in body text. -/
def escapeBodyChar (c : Char) : Text :=
  if c = '&' then "&amp;" else if c = '<' then "&lt;" else if c = '>' then "&gt;" else [c]

/-- The reference for a character that means something in an attribute value. -/
def escapeValueChar (c : Char) : Text :=
  if c = '"' then "&quot;" else if c = '\'' then "&#x27;" else escapeBodyChar c

/-- A text as body text. -/
def escapeBody (s : Text) : Text :=
  s.flatMap escapeBodyChar

/-- A text as an attribute value, fit for either kind of quotes. -/
def escapeValue (s : Text) : Text :=
  s.flatMap escapeValueChar

/-- An attribute with a space in front of it. -/
def oneAttribute (name value : Text) : Text :=
  " " ++ name ++ "=\"" ++ escapeValue value ++ "\""

/-- Attributes in order. -/
def attributes (attrs : List (Text × Text)) : Text :=
  attrs.flatMap fun attr => oneAttribute attr.1 attr.2

/-- The start tag of an element. -/
def startTag (tag : Text) (attrs : List (Text × Text)) : Text :=
  "<" ++ tag ++ attributes attrs ++ ">"

/-- The end tag of an element. -/
def endTag (tag : Text) : Text :=
  "</" ++ tag ++ ">"

end Markup

end TemplateAudit
