import TemplateAudit.Config.Rules
import TemplateAudit.Rule.Registry

/-!
# Examining a document

The active rules examine a document one after the other.  A rule that fails costs its own findings
only; why it failed is kept.
-/

namespace TemplateAudit

namespace Rule

/-- What is told about a rule while a document is examined. -/
inductive Status where
  | start
  | passed
  | foundIssues
  | failed
  deriving DecidableEq, Repr

/-- The name of a status. -/
def Status.name : Status → Text
  | start => "start"
  | passed => "passed"
  | foundIssues => "found_issues"
  | failed => "error"

/-- The status of a rule at its number among all. -/
structure Progress where
  number : Nat
  total : Nat
  title : Text
  status : Status
  deriving DecidableEq, Repr

/-- What came of examining a document: the findings in the order of the rules, why rules failed, and
what was told on the way. -/
structure Examination where
  findings : List Finding
  failures : List (Text × Text)
  progress : List Progress
  deriving Repr

/-- The rules that are switched on, not ignored and not excluded. -/
def active (rules : Registry) (config : RuleConfig) (excluded : List Text) : List Rule :=
  rules.filter fun rule => !excluded.contains rule.id && config.isActive rule.id rule.enabled

namespace Examination

/-- Nothing is examined yet. -/
def start : Examination :=
  ⟨[], [], []⟩

/-- The status that a verdict gives. -/
def statusOf : Verdict → Status
  | .error _ => .failed
  | .ok [] => .passed
  | .ok _ => .foundIssues

/-- What a rule said is added. -/
def add (work : Examination) (number total : Nat) (rule : Rule) (verdict : Verdict) : Examination :=
  let told := [⟨number, total, rule.title, .start⟩, ⟨number, total, rule.title, statusOf verdict⟩]
  match verdict with
  | .ok findings =>
    { work with findings := work.findings ++ findings, progress := work.progress ++ told }
  | .error reason =>
    { work with
      failures := Pairs.put rule.id reason work.failures
      progress := work.progress ++ told }

/-- More rules examine a document, the first of them with a given number. -/
def run (document : Html.Document) (origin : Origin) (total : Nat) :
    Nat → List Rule → Examination → Examination
  | _, [], work => work
  | number, rule :: rules, work =>
    run document origin total (number + 1) rules
      (work.add number total rule (rule.examine document origin))

end Examination

/-- The active rules examine a document. -/
def examineAll (rules : Registry) (config : RuleConfig) (excluded : List Text)
    (document : Html.Document) (origin : Origin) : Examination :=
  let active := active rules config excluded
  Examination.run document origin active.length 1 active .start

end Rule

end TemplateAudit
