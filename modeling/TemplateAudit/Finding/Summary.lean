import TemplateAudit.Finding
import TemplateAudit.Pairs

/-!
# Counting findings

Findings are grouped and counted by rule, by severity and by file, in the order in which a rule or a
file first occurs.
-/

namespace TemplateAudit

namespace Finding

/-- The findings of each rule. -/
def byRule (findings : List Finding) : List (Text × List Finding) :=
  (findings.map (·.ruleId)).eraseDups.map fun rule =>
    (rule, findings.filter fun finding => finding.ruleId == rule)

/-- How many findings each rule has. -/
def countByRule (findings : List Finding) : List (Text × Nat) :=
  Pairs.counts (findings.map (·.ruleId))

/-- How many findings each file has; findings in no file do not count. -/
def countByFile (findings : List Finding) : List (Text × Nat) :=
  Pairs.counts ((findings.filterMap (·.file)).filter fun file => !file.isEmpty)

/-- How many findings have a given severity. -/
def countOfSeverity (severity : Severity) (findings : List Finding) : Nat :=
  findings.countP fun finding => finding.severity == severity

end Finding

end TemplateAudit
