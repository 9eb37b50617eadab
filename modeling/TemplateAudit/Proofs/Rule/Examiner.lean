import Mathlib.Data.List.Forall2
import TemplateAudit.Rule.Examiner

/-!
# Examinations keep to themselves

`Reports` says what the examination of a document should answer, given the rules, their configuration and
nothing else: the findings of the rules that run and do not fail, in order, which rules failed and why,
and what was told on the way.  Whatever an examiner has left from earlier examinations, each of a list of
examinations answers this (`reports_examineEach`).  It is also what `examineAll` answers
(`examineAll_eq_examine`).
-/

namespace TemplateAudit

namespace Rule

/-! ## What an examination should answer -/

/-- A rule runs when it is switched on, not ignored and not left out. -/
def Runs (config : RuleConfig) (excluded : List Text) (rule : Rule) : Prop :=
  (Pairs.get? rule.id config.checks).getD rule.enabled = true ∧
    (∀ exemption ∈ config.ignored, exemption.rule ≠ rule.id) ∧ rule.id ∉ excluded

instance (config : RuleConfig) (excluded : List Text) (rule : Rule) :
    Decidable (Runs config excluded rule) :=
  inferInstanceAs (Decidable (_ ∧ _ ∧ _))

/-- The rules that run, in the order of the registry. -/
def running (rules : Registry) (config : RuleConfig) (excluded : List Text) : List Rule :=
  rules.filter fun rule => Runs config excluded rule

/-- What is told about a rule with a title at its number among all, after what it said. -/
inductive Tells (number total : Nat) (title : Text) : Verdict → List Progress → Prop
  | failed (reason : Text) :
      Tells number total title (.error reason)
        [⟨number, total, title, .start⟩, ⟨number, total, title, .failed⟩]
  | foundIssues (finding : Finding) (findings : List Finding) :
      Tells number total title (.ok (finding :: findings))
        [⟨number, total, title, .start⟩, ⟨number, total, title, .foundIssues⟩]
  | passed :
      Tells number total title (.ok [])
        [⟨number, total, title, .start⟩, ⟨number, total, title, .passed⟩]

/-- An examination answers what was asked for. -/
structure Reports (rules : Registry) (config : RuleConfig) (task : Task) (examination : Examination) :
    Prop where
  /-- The findings of the rules that run and do not fail come in the order of the rules. -/
  findings : examination.findings =
    (running rules config task.excluded).flatMap fun rule => (task.verdict rule).toOption.getD []
  /-- A rule is noted as failed when one of its name runs and fails. -/
  failed_iff : ∀ id, id ∈ examination.failures.map Prod.fst ↔
    ∃ rule ∈ running rules config task.excluded, rule.id = id ∧ ∃ reason, task.verdict rule = .error reason
  /-- No rule is noted twice. -/
  nodup_failed : (examination.failures.map Prod.fst).Nodup
  /-- The reason noted is that of the last rule of the name that fails. -/
  reason : ∀ before rule after reason,
    running rules config task.excluded = before ++ rule :: after → task.verdict rule = .error reason →
      (∀ later ∈ after, later.id = rule.id → (task.verdict later).isOk) →
        Pairs.get? rule.id examination.failures = some reason
  /-- Of each rule that runs, the first with the number one, it is told that it starts and how it ended. -/
  progress : task.isTold → ∃ parts,
    List.Forall₂ (fun entry part =>
      Tells entry.2 (running rules config task.excluded).length entry.1.title (task.verdict entry.1) part)
      ((running rules config task.excluded).zipIdx 1) parts ∧ examination.progress = parts.flatten
  /-- Nobody is told anything unasked. -/
  quiet : ¬task.isTold → examination.progress = []

theorem active_eq_running (rules : Registry) (config : RuleConfig) (excluded : List Text) :
    active rules config excluded = running rules config excluded := by
  refine List.filter_congr fun rule _ => Bool.eq_iff_iff.2 ?_
  simp [Runs, RuleConfig.isActive, RuleConfig.isEnabled, RuleConfig.isIgnored, and_comm, and_left_comm]

/-! ## What the rules leave behind -/

namespace Task

variable (task : Task)

/-- The rules that fail, each with its reason. -/
def failed (rules : List Rule) : List (Text × Text) :=
  rules.filterMap fun rule =>
    match task.verdict rule with
    | .ok _ => none
    | .error reason => some (rule.id, reason)

theorem failed_append (rules rules' : List Rule) :
    task.failed (rules ++ rules') = task.failed rules ++ task.failed rules' :=
  List.filterMap_append

theorem mem_keys_failed {rules : List Rule} {id : Text} :
    id ∈ (task.failed rules).map Prod.fst ↔
      ∃ rule ∈ rules, rule.id = id ∧ ∃ reason, task.verdict rule = .error reason := by
  rw [failed, List.map_filterMap, List.mem_filterMap]
  refine exists_congr fun rule => and_congr_right fun _ => ?_
  cases task.verdict rule with
  | ok findings => simp
  | error reason => simp

/-- What is told about a rule, if anything is. -/
theorem tells_told (htold : task.isTold) (number total : Nat) (rule : Rule) :
    Tells number total rule.title (task.verdict rule) (task.told number total rule) := by
  rw [told, if_pos htold]
  cases task.verdict rule with
  | error reason => exact .failed reason
  | ok findings =>
    cases findings with
    | nil => exact .passed
    | cons finding findings => exact .foundIssues finding findings

end Task

namespace Examiner

variable (task : Task)

/-- One more rule adds its findings or its failure. -/
theorem takeUp_eq (examiner : Examiner) (rule : Rule) :
    examiner.takeUp rule (task.verdict rule) =
      { examiner with
        collected := examiner.collected ++ (task.verdict rule).toOption.getD []
        failures := Pairs.putAll (task.failed [rule]) examiner.failures } := by
  unfold Task.failed
  rw [List.filterMap_cons, List.filterMap_nil]
  cases task.verdict rule with
  | ok findings => rfl
  | error reason => simp [takeUp, Pairs.putAll, Except.toOption]

/-- Some rules leave the findings of those that do not fail and the reasons of those that do, beside what
was there before. -/
theorem tryFrom_eq (total number : Nat) (rules : List Rule) (examiner : Examiner) :
    tryFrom task total number rules examiner =
      ({ examiner with
          collected := examiner.collected ++
            rules.flatMap fun rule => (task.verdict rule).toOption.getD []
          failures := Pairs.putAll (task.failed rules) examiner.failures },
        (rules.zipIdx number).flatMap fun entry => task.told entry.2 total entry.1) := by
  induction rules generalizing number examiner with
  | nil => simp [tryFrom, Task.failed, Pairs.putAll]
  | cons rule rules ih =>
    have hfailed : task.failed (rule :: rules) = task.failed [rule] ++ task.failed rules :=
      task.failed_append [rule] rules
    rw [tryFrom, ih, takeUp_eq, hfailed, Pairs.putAll, Pairs.putAll, Pairs.putAll, List.foldl_append,
      List.flatMap_cons, List.zipIdx_cons, List.flatMap_cons, List.append_assoc]

/-- The answer to a task is made of the rules that run. -/
theorem examine_snd (examiner : Examiner) :
    (examiner.examine task).2 =
      ⟨(running examiner.rules examiner.config task.excluded).flatMap fun rule =>
          (task.verdict rule).toOption.getD [],
        Pairs.ofEntries (task.failed (running examiner.rules examiner.config task.excluded)),
        ((running examiner.rules examiner.config task.excluded).zipIdx 1).flatMap fun entry =>
          task.told entry.2 (running examiner.rules examiner.config task.excluded).length entry.1⟩ := by
  simp only [examine, tryFrom_eq, active_eq_running, clear, List.nil_append, Pairs.ofEntries]

/-- Of two rules of one name that fail the later one gives the reason. -/
theorem get?_failed {before after : List Rule} {rule : Rule} {reason : Text}
    (hfails : task.verdict rule = .error reason)
    (hlast : ∀ later ∈ after, later.id = rule.id → (task.verdict later).isOk) :
    Pairs.get? rule.id (Pairs.ofEntries (task.failed (before ++ rule :: after))) = some reason := by
  have hhere : task.failed (rule :: after) = (rule.id, reason) :: task.failed after := by
    simp only [Task.failed, List.filterMap_cons, hfails]
  have hnew : rule.id ∉ (task.failed after).reverse.map Prod.fst := by
    rw [List.map_reverse, List.mem_reverse, Task.mem_keys_failed]
    rintro ⟨later, hlater, hid, reason', hfails'⟩
    have hok := hlast later hlater hid
    rw [hfails'] at hok
    cases hok
  rw [Pairs.get?_ofEntries, Task.failed_append, hhere, List.reverse_append, List.reverse_cons,
    Pairs.get?_append, Pairs.get?_append, Pairs.get?_eq_none hnew, Option.none_or, Pairs.get?,
    if_pos rfl, Option.some_or]

/-- **One examination answers what was asked for**, whatever the examiner has left from others. -/
theorem reports_examine (examiner : Examiner) :
    Reports examiner.rules examiner.config task (examiner.examine task).2 := by
  rw [examine_snd]
  refine ⟨rfl, fun id => ?_, Pairs.nodup_keys_ofEntries _, ?_, fun htold => ?_, fun hquiet => ?_⟩
  · exact Pairs.mem_keys_ofEntries.trans task.mem_keys_failed
  · intro before rule after reason hrules hfails hlast
    rw [hrules]
    exact get?_failed task hfails hlast
  · refine ⟨_, ?_, List.flatMap_def⟩
    rw [List.forall₂_map_right_iff, List.forall₂_same]
    exact fun entry _ => task.tells_told htold _ _ _
  · refine List.flatMap_eq_nil_iff.2 fun entry _ => ?_
    rw [Task.told, if_neg hquiet]

/-- An examination changes neither the rules nor their configuration. -/
theorem examine_keeps (examiner : Examiner) :
    (examiner.examine task).1.rules = examiner.rules ∧
      (examiner.examine task).1.config = examiner.config := by
  rw [examine, tryFrom_eq]
  exact ⟨rfl, rfl⟩

/-- **Examinations one after the other do not leak.**  Each of them answers what its own task asks for,
given the rules and the configuration; what the examiner collected and noted before plays no part. -/
theorem reports_examineEach (examiner : Examiner) (tasks : List Task) :
    List.Forall₂ (Reports examiner.rules examiner.config) tasks (examiner.examineEach tasks).2 := by
  induction tasks generalizing examiner with
  | nil => exact .nil
  | cons task tasks ih =>
    have hrest := ih (examiner.examine task).1
    rw [(examine_keeps task examiner).1, (examine_keeps task examiner).2] at hrest
    exact .cons (reports_examine task examiner) hrest

/-! ## Examining a document once -/

/-- Trying rules one after the other is the same with an examiner and without. -/
theorem run_eq_tryFrom (htold : task.isTold) (total number : Nat) (rules : List Rule)
    (work : Examination) (examiner : Examiner) (hfindings : examiner.collected = work.findings)
    (hfailures : examiner.failures = work.failures) :
    Examination.run task.document (task.origin.getD .unknown) total number rules work =
      ⟨(tryFrom task total number rules examiner).1.collected,
        (tryFrom task total number rules examiner).1.failures,
        work.progress ++ (tryFrom task total number rules examiner).2⟩ := by
  induction rules generalizing number work examiner with
  | nil => simp [Examination.run, tryFrom, hfindings, hfailures]
  | cons rule rules ih =>
    have hverdict : rule.examine task.document (task.origin.getD .unknown) = task.verdict rule := rfl
    have htell : task.told number total rule = [⟨number, total, rule.title, .start⟩,
        ⟨number, total, rule.title, Examination.statusOf (task.verdict rule)⟩] := if_pos htold
    rw [Examination.run, hverdict, tryFrom, htell]
    generalize task.verdict rule = verdict
    obtain ⟨hcollected, hnoted⟩ :
        (examiner.takeUp rule verdict).collected = (work.add number total rule verdict).findings ∧
          (examiner.takeUp rule verdict).failures = (work.add number total rule verdict).failures := by
      cases verdict with
      | ok findings => exact ⟨congrArg (· ++ findings) hfindings, hfailures⟩
      | error reason => exact ⟨hfindings, congrArg (Pairs.put rule.id reason) hfailures⟩
    have hprogress : (work.add number total rule verdict).progress = work.progress ++
        [⟨number, total, rule.title, .start⟩,
          ⟨number, total, rule.title, Examination.statusOf verdict⟩] := by
      cases verdict <;> rfl
    rw [ih (number + 1) _ _ hcollected hnoted, hprogress, List.append_assoc]

end Examiner

/-- **Examining a document once** is what an examiner does with one task. -/
theorem examineAll_eq_examine (rules : Registry) (config : RuleConfig) (excluded : List Text)
    (document : Html.Document) (origin : Origin) :
    examineAll rules config excluded document origin =
      ((Examiner.new rules config).examine ⟨document, some origin, excluded, true⟩).2 :=
  Examiner.run_eq_tryFrom ⟨document, some origin, excluded, true⟩ rfl _ _ _ .start
    (Examiner.new rules config).clear rfl rfl

end Rule

end TemplateAudit
