import TemplateAudit.Json.Writer

/-!
# Findings

A finding is one accessibility defect: the rule that found it, what it says, the element it is about
and, once it is known, the file and the line.  Findings are values; placing one in a file gives a new
finding.  The key of a finding tells it apart from every other one in a run.
-/

namespace TemplateAudit

/-- How much a finding weighs. -/
inductive Severity where
  | error
  | warning
  deriving DecidableEq, Repr, Inhabited

/-- The name of a severity. -/
def Severity.name : Severity → Text
  | .error => "error"
  | .warning => "warning"

/-- The element around the one a finding is about. -/
structure ParentInfo where
  tag : Text
  id : Option Text
  classes : Option Text
  deriving DecidableEq, Repr, Inhabited

/-- The element a finding is about: enough of it to find it in the source again and to describe
it. -/
structure ElementInfo where
  tag : Text
  id : Option Text
  classes : Option Text
  href : Option Text
  src : Option Text
  inputType : Option Text
  text : Text
  parent : Option ParentInfo
  details : List (Text × Json)
  deriving Repr, Inhabited

/-- A finding. -/
structure Finding where
  ruleId : Text
  message : Text
  severity : Severity
  element : ElementInfo
  file : Option Text
  line : Option Int
  remediation : Text
  wcag : Option Text
  pageLevel : Bool
  deriving Repr, Inhabited

/-! ## As data -/

/-- A text that may be missing, as data. -/
def Json.ofText? : Option Text → Json
  | some text => .str text
  | none => .null

/-- An integer that may be missing, as data. -/
def Json.ofInt? : Option Int → Json
  | some n => .int n
  | none => .null

/-- The element around, as data. -/
def ParentInfo.toJson (parent : ParentInfo) : Json :=
  .obj [("tag", .str parent.tag), ("id", .ofText? parent.id), ("classes", .ofText? parent.classes)]

/-- The element, as data. -/
def ElementInfo.toJson (element : ElementInfo) : Json :=
  .obj [("tag", .str element.tag), ("id", .ofText? element.id),
    ("classes", .ofText? element.classes), ("href", .ofText? element.href),
    ("src", .ofText? element.src), ("input_type", .ofText? element.inputType),
    ("text", .str element.text),
    ("parent", (element.parent.map ParentInfo.toJson).getD .null),
    ("details", .obj element.details)]

namespace Finding

/-- The finding, as data. -/
def toJson (finding : Finding) : Json :=
  .obj [("rule_id", .str finding.ruleId), ("message", .str finding.message),
    ("severity", .str finding.severity.name), ("element", finding.element.toJson),
    ("file", .ofText? finding.file), ("line", .ofInt? finding.line),
    ("remediation", .str finding.remediation), ("wcag", .ofText? finding.wcag),
    ("page_level", .bool finding.pageLevel)]

/-- The key of a finding: all of it, written as short as it can be. -/
def key (finding : Finding) : Text :=
  Json.write Json.keyStyle finding.toJson

/-! ## Questions and changes -/

/-- Is the finding an error? -/
def isError (finding : Finding) : Bool :=
  finding.severity == .error

/-- The finding at a place in a file. -/
def located (finding : Finding) (file : Option Text) (line : Option Int) : Finding :=
  { finding with file, line }

/-- The finding as one about a composed page. -/
def ofPage (finding : Finding) : Finding :=
  { finding with pageLevel := true }

end Finding

end TemplateAudit
