import TemplateAudit.Rule.Examination

/-!
# Examining one document after another

An examiner holds the rules and their configuration, and what its last examination has left behind: the
findings that it collected and why rules failed.  It clears both when the next examination starts.
-/

namespace TemplateAudit

namespace Rule

/-- An examination that is asked for: the document, where it came from, the rules left out this time, and
whether somebody is told how it goes. -/
structure Task where
  document : Html.Document
  origin : Option Origin
  excluded : List Text
  isTold : Bool

/-- The rules with their configuration, the findings collected so far and why rules failed. -/
structure Examiner where
  rules : Registry
  config : RuleConfig
  collected : List Finding
  failures : List (Text × Text)

namespace Task

/-- What a rule says about the document of a task. -/
def verdict (task : Task) (rule : Rule) : Verdict :=
  rule.examine task.document (task.origin.getD .unknown)

/-- What is told about a rule at its number among all. -/
def told (task : Task) (number total : Nat) (rule : Rule) : List Progress :=
  if task.isTold then
    [⟨number, total, rule.title, .start⟩,
      ⟨number, total, rule.title, Examination.statusOf (task.verdict rule)⟩]
  else []

end Task

namespace Examiner

/-- An examiner that has examined nothing yet. -/
def new (rules : Registry) (config : RuleConfig) : Examiner :=
  ⟨rules, config, [], []⟩

/-- What the last examination has left behind is cleared away. -/
def clear (examiner : Examiner) : Examiner :=
  { examiner with collected := [], failures := [] }

/-- What a rule said is taken up. -/
def takeUp (examiner : Examiner) (rule : Rule) : Verdict → Examiner
  | .ok findings => { examiner with collected := examiner.collected ++ findings }
  | .error reason => { examiner with failures := Pairs.put rule.id reason examiner.failures }

/-- More rules of a task are tried, the first of them with a given number; what is told comes with the
examiner. -/
def tryFrom (task : Task) (total : Nat) : Nat → List Rule → Examiner → Examiner × List Progress
  | _, [], examiner => (examiner, [])
  | number, rule :: rules, examiner =>
    let rest := tryFrom task total (number + 1) rules (examiner.takeUp rule (task.verdict rule))
    (rest.1, task.told number total rule ++ rest.2)

/-- The examination of a document, and the examiner after it. -/
def examine (examiner : Examiner) (task : Task) : Examiner × Examination :=
  let active := active examiner.rules examiner.config task.excluded
  let tried := tryFrom task active.length 1 active examiner.clear
  (tried.1, ⟨tried.1.collected, tried.1.failures, tried.2⟩)

/-- Examinations one after the other, and the examiner after them. -/
def examineEach (examiner : Examiner) : List Task → Examiner × List Examination
  | [] => (examiner, [])
  | task :: tasks =>
    let first := examiner.examine task
    let rest := first.1.examineEach tasks
    (rest.1, first.2 :: rest.2)

end Examiner

end Rule

end TemplateAudit
