import TemplateAudit.Text.Basic

/-!
# Singular and plural

The name of a thing from the name of many of them and the other way round, by the endings `s` and
`ies`.
-/

namespace TemplateAudit

namespace Text

/-- The name of one of the things that a word names. -/
def singular (word : Text) : Text :=
  match withoutEnding? "ies" word with
  | some (c :: start) => c :: start ++ ['y']
  | _ => if endsWith "s" word && !endsWith "ss" word then word.dropLast else word

/-- The vowels: after one of them a final `y` stays. -/
def vowels : Text :=
  "aeiou"

/-- Does a word end in a `y` after something that is no vowel? -/
def endsInChangingY (word : Text) : Bool :=
  match word.reverse with
  | 'y' :: c :: _ => !vowels.contains c
  | _ => false

/-- The name of many of the things that a word names. -/
def plural (word : Text) : Text :=
  if endsInChangingY word then word.dropLast ++ "ies"
  else if endsWith "s" word then word
  else word ++ ['s']

end Text

end TemplateAudit
