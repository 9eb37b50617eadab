import TemplateAudit.Finding
import TemplateAudit.Shape

/-!
# Reading findings

A finding is read from data with the fields of `Finding.toJson`.  The rule, the message and the tag of
the element have to be there; all else has a default.
-/

namespace TemplateAudit

open Shape

/-- A severity by its name. -/
def Severity.read : Json → Checked Severity
  | .str name =>
    if name = Severity.error.name then pure .error
    else if name = Severity.warning.name then pure .warning
    else wrong .unknown
  | _ => wrong .unknown

/-- The element around. -/
def ParentInfo.read : Json → Checked ParentInfo :=
  record fun fields =>
    ParentInfo.mk <$> required "tag" string fields
      <*> withDefault "id" (orNull string) none fields
      <*> withDefault "classes" (orNull string) none fields

/-- The element that a finding is about. -/
def ElementInfo.read : Json → Checked ElementInfo :=
  record fun fields =>
    ElementInfo.mk <$> required "tag" string fields
      <*> withDefault "id" (orNull string) none fields
      <*> withDefault "classes" (orNull string) none fields
      <*> withDefault "href" (orNull string) none fields
      <*> withDefault "src" (orNull string) none fields
      <*> withDefault "input_type" (orNull string) none fields
      <*> withDefault "text" string [] fields
      <*> withDefault "parent" (orNull ParentInfo.read) none fields
      <*> withDefault "details" (table pure) [] fields

/-- The number of a line: a whole number of at least one. -/
def lineNumber (data : Json) : Checked Int :=
  match integer data with
  | .valid n => if 1 ≤ n then pure n else wrong .noLine
  | .invalid problems => .invalid problems

/-- A finding. -/
def Finding.read : Json → Checked Finding :=
  record fun fields =>
    Finding.mk <$> required "rule_id" string fields
      <*> required "message" string fields
      <*> withDefault "severity" Severity.read .error fields
      <*> required "element" ElementInfo.read fields
      <*> withDefault "file" (orNull string) none fields
      <*> withDefault "line" (orNull lineNumber) none fields
      <*> withDefault "remediation" string [] fields
      <*> withDefault "wcag" (orNull string) none fields
      <*> withDefault "page_level" switch false fields

end TemplateAudit
