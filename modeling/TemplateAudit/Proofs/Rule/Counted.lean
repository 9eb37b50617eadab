import TemplateAudit.Locate.Line
import TemplateAudit.Proofs.Outcome
import TemplateAudit.Proofs.Rule.Outline
import TemplateAudit.Rule.Examination

/-!
# The findings of the rules can be counted

A finding may say itself how many elements that look the same come before its own, and then this has to be
a number.  What the rules of this library find says so with an integer or not at all (`isCounted_standard`),
so that all of it can be located (`exists_locate`).
-/

namespace TemplateAudit

open Outcome

namespace Finding

/-- What a finding says about its occurrence, if anything, is an integer. -/
def IsCounted (finding : Finding) : Prop :=
  ∀ data ∈ Pairs.get? "occurrence".toList finding.element.details, ∃ n, data = .int n

theorem isCounted_of_nil {finding : Finding} (h : finding.element.details = []) : finding.IsCounted := by
  rw [IsCounted, h]
  exact nofun

/-- What is found unless something holds, and says nothing about its occurrence. -/
theorem isCounted_unless {p : Prop} [Decidable p] {finding made : Finding}
    (hmade : made.element.details = []) (h : finding ∈ if p then [] else [made]) : finding.IsCounted := by
  split at h
  · cases h
  · obtain rfl := List.mem_singleton.1 h
    exact isCounted_of_nil hmade

end Finding

namespace Locate

/-- Findings that can be counted can be located. -/
theorem exists_locateFrom (source : Text) (file : Option Text) {findings : List Finding}
    (h : ∀ finding ∈ findings, finding.IsCounted) (seen : List (Likeness × Nat)) :
    ∃ located, locateFrom source file seen findings = .ok located := by
  induction findings generalizing seen with
  | nil => exact ⟨[], rfl⟩
  | cons finding findings ih =>
    obtain ⟨hfinding, hfindings⟩ := List.forall_mem_cons.1 h
    rw [locateFrom]
    cases hdata : Pairs.get? "occurrence".toList finding.element.details with
    | none =>
      obtain ⟨rest, hrest⟩ := ih hfindings (Pairs.tally (likeness finding) seen)
      exact ⟨_, by simp only [hrest]; rfl⟩
    | some data =>
      obtain ⟨n, rfl⟩ := hfinding data hdata
      obtain ⟨rest, hrest⟩ := ih hfindings seen
      exact ⟨_, by simp only [hrest]; rfl⟩

theorem exists_locate (source : Text) (file : Option Text) {findings : List Finding}
    (h : ∀ finding ∈ findings, finding.IsCounted) :
    ∃ located, locate source file findings = .ok located :=
  exists_locateFrom source file h []

end Locate

namespace Rule

variable {document : Html.Document} {origin : Origin} {findings : List Finding}

/-! ## The rules -/

/-- Every finding that a rule makes can be counted. -/
def Counts (rule : Rule) : Prop :=
  ∀ document origin findings, rule.examine document origin = .ok findings →
    ∀ finding ∈ findings, finding.IsCounted

/-- A rule that never fails. -/
theorem counts_of_ok {id title : Text} {enabled ofPages : Bool} {wcag : List Text}
    {found : Html.Document → Origin → List Finding}
    (h : ∀ document origin, ∀ finding ∈ found document origin, finding.IsCounted) :
    Counts ⟨id, title, fun document origin => .ok (found document origin), enabled, ofPages, wcag⟩ := by
  intro document origin findings hfound
  obtain rfl := Except.ok.inj hfound
  exact h document origin

theorem counts_ariaLandmarks : Counts ariaLandmarks :=
  counts_of_ok fun document origin finding hfinding => by
    rw [AriaLandmarks.examine] at hfinding
    exact Finding.isCounted_unless rfl hfinding

theorem counts_colorContrast : Counts colorContrast :=
  counts_of_ok fun _ _ => List.forall_mem_nil _

theorem counts_duplicateIds : Counts duplicateIds :=
  counts_of_ok fun document origin finding hfinding => by
    obtain ⟨entry, -, rfl⟩ := List.mem_map.1 hfinding
    intro data hdata
    exact ⟨entry.2, (Option.some.inj hdata).symm⟩

/-- A rule that examines one field after the other. -/
theorem isCounted_of_fields {fields : List Html.Place} {examineField : Html.Place → Verdict}
    (h : ∀ field findings, examineField field = .ok findings → ∀ finding ∈ findings, finding.IsCounted)
    (hfound : (fields.mapM examineField).map List.flatten = .ok findings) :
    ∀ finding ∈ findings, finding.IsCounted := by
  obtain ⟨found, hfields, rfl⟩ := map_eq_ok.1 hfound
  intro finding hfinding
  obtain ⟨onField, honField, hfinding⟩ := List.mem_flatten.1 hfinding
  obtain ⟨field, -, hfield⟩ := (mem_of_mapM_eq_ok hfields onField).1 honField
  exact h field onField hfield finding hfinding

theorem counts_formErrors : Counts formErrors := fun document origin _ =>
  isCounted_of_fields fun field findings hfound => by
    rw [FormErrors.examineField] at hfound
    split at hfound
    · cases hfound
      exact List.forall_mem_nil _
    · split at hfound
      · cases hfound
        exact List.forall_mem_nil _
      · obtain ⟨linked, -, rfl⟩ := map_eq_ok.1 hfound
        exact fun finding hfinding => Finding.isCounted_unless rfl hfinding

theorem counts_formLabels : Counts formLabels := fun document origin _ =>
  isCounted_of_fields fun field findings hfound => by
    rw [FormLabels.examineField] at hfound
    split at hfound
    · cases hfound
      exact List.forall_mem_nil _
    · split at hfound
      · cases hfound
        exact List.forall_mem_nil _
      · obtain ⟨labelled, -, rfl⟩ := map_eq_ok.1 hfound
        exact fun finding hfinding => Finding.isCounted_unless rfl hfinding

theorem counts_headingOutline : Counts headingOutline :=
  counts_of_ok fun document origin finding hfinding => by
    obtain ⟨found, hfound, rfl⟩ := List.mem_map.1 hfinding
    exact Finding.isCounted_of_nil (congrArg (·.details) (Headings.mem_of_mem_analyse hfound).2)

theorem counts_imageAltText : Counts imageAltText :=
  counts_of_ok fun document origin finding hfinding => by
    obtain ⟨image, -, rfl⟩ := List.mem_map.1 hfinding
    exact Finding.isCounted_of_nil rfl

theorem counts_interactiveElements : Counts interactiveElements :=
  counts_of_ok fun document origin finding hfinding => by
    obtain ⟨place, -, hfinding⟩ := List.mem_flatMap.1 hfinding
    rw [Interactive.examineElement] at hfinding
    split at hfinding
    · rcases List.mem_append.1 hfinding with hnested | hnameless
      · obtain ⟨heading, -, rfl⟩ := List.mem_map.1 hnested
        intro data hdata
        cases hdata
      · exact Finding.isCounted_unless rfl hnameless
    · exact Finding.isCounted_unless rfl hfinding

theorem counts_keyboardAccessibility : Counts keyboardAccessibility :=
  counts_of_ok fun document origin finding hfinding => by
    obtain ⟨dialog, -, rfl⟩ := List.mem_map.1 hfinding
    exact Finding.isCounted_of_nil rfl

theorem counts_skipLink : Counts skipLink :=
  counts_of_ok fun document origin finding hfinding => by
    rw [SkipLinks.examine] at hfinding
    split at hfinding
    · obtain rfl := List.mem_singleton.1 hfinding
      exact Finding.isCounted_of_nil rfl
    · cases hfinding

theorem counts_tableStructure : Counts tableStructure :=
  counts_of_ok fun document origin finding hfinding => by
    obtain ⟨table, -, rfl⟩ := List.mem_map.1 hfinding
    exact Finding.isCounted_of_nil rfl

theorem counts_standard : ∀ rule ∈ standard, rule.Counts := by
  simp only [standard, List.forall_mem_cons]
  exact ⟨counts_ariaLandmarks, counts_colorContrast, counts_duplicateIds, counts_formErrors,
    counts_formLabels, counts_headingOutline, counts_imageAltText, counts_interactiveElements,
    counts_keyboardAccessibility, counts_skipLink, counts_tableStructure, List.forall_mem_nil _⟩

/-! ## An examination -/

theorem isCounted_run {rules : List Rule} {number total : Nat} {work : Examination}
    (hrules : ∀ rule ∈ rules, rule.Counts) (hwork : ∀ finding ∈ work.findings, finding.IsCounted) :
    ∀ finding ∈ (Examination.run document origin total number rules work).findings,
      finding.IsCounted := by
  induction rules generalizing number work with
  | nil => exact hwork
  | cons rule rules ih =>
    obtain ⟨hrule, hrules⟩ := List.forall_mem_cons.1 hrules
    refine ih hrules ?_
    unfold Examination.add
    dsimp only
    split
    · rename_i found hfound
      exact List.forall_mem_append.2 ⟨hwork, hrule document origin found hfound⟩
    · exact hwork

/-- **What the rules of this library find can be counted.** -/
theorem isCounted_standard (config : RuleConfig) (excluded : List Text) (document : Html.Document)
    (origin : Origin) : ∀ finding ∈ (examineAll standard config excluded document origin).findings,
      finding.IsCounted :=
  isCounted_run (fun rule hrule => counts_standard rule (List.mem_filter.1 hrule).1) (List.forall_mem_nil _)

end Rule

end TemplateAudit
