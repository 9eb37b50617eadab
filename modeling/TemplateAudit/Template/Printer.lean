import TemplateAudit.Template.Token
import TemplateAudit.Text.Replace

/-!
# Writing a template

A template is written from items, each of which is literal text or code with what the code is for.  In
literal text every `<%` is written as `<%%`; code stands between `<%` and `%>` with a space on either
side.
-/

namespace TemplateAudit

namespace Template

/-- What a template is written from: literal text, or the code of a tag. -/
structure Item where
  kind : Kind
  value : Text
  deriving DecidableEq, Repr

namespace Item

/-- The mark that is written after the `<%` of a tag. -/
def mark : Kind → Text
  | .output => ['=']
  | .comment => ['#']
  | .statement | .text => []

/-- An item as it is written. -/
def print (item : Item) : Text :=
  match item.kind with
  | .text => Text.replace ['<', '%'] ['<', '%', '%'] item.value
  | kind => '<' :: '%' :: mark kind ++ ' ' :: item.value ++ [' ', '%', '>']

/-- Literal text that is written says something.  Code does not hold the end of a tag and has no white
space around it. -/
def IsWritable (item : Item) : Prop :=
  match item.kind with
  | .text => item.value ≠ []
  | _ => ¬['%', '>'] <:+: item.value ∧ Text.IsTrimmed item.value

instance : (item : Item) → Decidable item.IsWritable
  | ⟨.text, value⟩ => inferInstanceAs (Decidable (value ≠ []))
  | ⟨.output, value⟩ | ⟨.statement, value⟩ | ⟨.comment, value⟩ =>
    have := List.instDecidableIsInfixOfDecidableEq ['%', '>'] value
    inferInstanceAs (Decidable (¬['%', '>'] <:+: value ∧ Text.IsTrimmed value))

end Item

end Template

end TemplateAudit
