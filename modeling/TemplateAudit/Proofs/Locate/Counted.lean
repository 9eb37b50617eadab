import TemplateAudit.Proofs.Pairs
import TemplateAudit.Proofs.Rule.Counted

/-!
# Which line a finding of a template is given

A finding that says how many elements that look the same come first is placed by that number.  Any other
one is placed by the number of such findings in front of it that have the same likeness
(`locate_eq`).  Numbers that go beyond the lines in question lead to the last of them (`findLine?_eq_iff`).
-/

namespace TemplateAudit

namespace Locate

/-- What a finding says about its occurrence. -/
def recorded? (finding : Finding) : Option Json :=
  Pairs.get? "occurrence".toList finding.element.details

/-- The findings that do not say how many elements come first. -/
def unrecorded (findings : List Finding) : List Finding :=
  findings.filter fun finding => (recorded? finding).isNone

/-- The number by which a finding behind some others is placed. -/
def occurrenceAfter (front : List Finding) (finding : Finding) : Int :=
  match recorded? finding with
  | some (.int n) => n
  | _ => (unrecorded front).countP fun other => likeness other = likeness finding

/-- A finding behind some others, with its line. -/
def placedAfter (source : Text) (file : Option Text) (front : List Finding) (finding : Finding) : Finding :=
  finding.located file
    ((findLine? source finding.element (occurrenceAfter front finding)).map Int.ofNat)

variable {source : Text} {file : Option Text} {findings front : List Finding} {finding : Finding}

theorem occurrenceAfter_of_recorded {n : Int} (h : recorded? finding = some (.int n)) :
    occurrenceAfter front finding = n := by
  rw [occurrenceAfter, h]

theorem occurrenceAfter_of_unrecorded (h : recorded? finding = none) :
    occurrenceAfter front finding = (unrecorded front).countP fun other => likeness other = likeness finding := by
  rw [occurrenceAfter, h]

theorem unrecorded_concat (front : List Finding) (finding : Finding) :
    unrecorded (front ++ [finding]) =
      unrecorded front ++ if (recorded? finding).isNone then [finding] else [] := by
  rw [unrecorded, List.filter_append, List.filter_cons, List.filter_nil]
  rfl

theorem locateFrom_eq (front : List Finding) (hcounted : ∀ finding ∈ findings, finding.IsCounted)
    {seen : List (Likeness × Nat)}
    (hseen : ∀ likeness', (Pairs.get? likeness' seen).getD 0 =
      (unrecorded front).countP fun other => likeness other = likeness') :
    locateFrom source file seen findings =
      .ok ((Pairs.withFront findings).map fun entry =>
        placedAfter source file (front ++ entry.1) entry.2) := by
  induction findings generalizing seen front with
  | nil => rfl
  | cons finding findings ih =>
    obtain ⟨hfinding, hfindings⟩ := List.forall_mem_cons.1 hcounted
    rw [Pairs.withFront_cons, List.map_cons, List.map_map, List.append_nil, locateFrom]
    have hrest : ∀ entry : List Finding × Finding,
        placedAfter source file (front ++ [finding] ++ entry.1) entry.2 =
          placedAfter source file (front ++ finding :: entry.1) entry.2 := fun entry => by
      rw [List.append_assoc, List.singleton_append]
    cases hrecorded : Pairs.get? "occurrence".toList finding.element.details with
    | some data =>
      obtain ⟨n, rfl⟩ := hfinding data hrecorded
      have hthis : occurrenceAfter front finding = n := occurrenceAfter_of_recorded hrecorded
      have hseen' : ∀ likeness', (Pairs.get? likeness' seen).getD 0 =
          (unrecorded (front ++ [finding])).countP fun other => likeness other = likeness' := by
        intro likeness'
        rw [hseen, unrecorded_concat, recorded?, hrecorded]
        simp
      simp only [ih (front ++ [finding]) hfindings hseen', hrest]
      rw [placedAfter, hthis]
      rfl
    | none =>
      have hthis : occurrenceAfter front finding =
          ((Pairs.get? (likeness finding) seen).getD 0 : Nat) := by
        rw [occurrenceAfter_of_unrecorded hrecorded, hseen]
      have hseen' : ∀ likeness', (Pairs.get? likeness' (Pairs.tally (likeness finding) seen)).getD 0 =
          (unrecorded (front ++ [finding])).countP fun other => likeness other = likeness' := by
        intro likeness'
        rw [Pairs.getD_tally, hseen, unrecorded_concat, recorded?, hrecorded]
        simp [List.countP_append, List.countP_singleton]
      simp only [ih (front ++ [finding]) hfindings hseen', hrest]
      rw [placedAfter, hthis]
      rfl

/-- **Findings of a template are placed by what they say about their occurrence, or else by counting
those in front that look the same.** -/
theorem locate_eq (source : Text) (file : Option Text)
    (hcounted : ∀ finding ∈ findings, finding.IsCounted) :
    locate source file findings =
      .ok ((Pairs.withFront findings).map fun entry =>
        placedAfter source file entry.1 entry.2) :=
  locateFrom_eq [] hcounted fun _ => rfl

/-- Findings that leave it to be counted are placed by the findings in front of them that look the same. -/
theorem locate_eq_of_unrecorded (source : Text) (file : Option Text)
    (h : ∀ finding ∈ findings, recorded? finding = none) :
    locate source file findings =
      .ok ((Pairs.withFront findings).map fun entry =>
        entry.2.located file ((findLine? source entry.2.element
          (entry.1.countP fun other => likeness other = likeness entry.2 : Nat)).map Int.ofNat)) := by
  have hcounted : ∀ finding ∈ findings, finding.IsCounted := fun finding hfinding data hdata => by
    have hnone := h finding hfinding
    rw [recorded?, Option.mem_def.1 hdata] at hnone
    cases hnone
  rw [locate_eq source file hcounted]
  refine congrArg Except.ok (List.map_congr_left fun entry hentry => ?_)
  have hmem := (Pairs.prefix_of_mem_withFront hentry).subset
  have hthis : recorded? entry.2 = none := h _ (hmem (List.mem_append_right _ (List.mem_singleton_self _)))
  have hfront : unrecorded entry.1 = entry.1 := List.filter_eq_self.2 fun other hother => by
    rw [h other (hmem (List.mem_append_left _ hother)), Option.isNone_none]
  rw [placedAfter, occurrenceAfter_of_unrecorded hthis, hfront]

/-! ## Lines of elements that look the same -/

theorem le_of_mem_linesHolding {tag : Text} {clue : Clue} {number line : Nat} {lines : List Text}
    (h : line ∈ linesHolding tag clue number lines) : number ≤ line := by
  induction lines generalizing number with
  | nil => cases h
  | cons first lines ih =>
    rw [linesHolding] at h
    split at h
    · rcases List.mem_cons.1 h with rfl | h
      · exact Nat.le_refl _
      · exact Nat.le_of_succ_le (ih h)
    · exact Nat.le_of_succ_le (ih h)

/-- Lines are listed from the first to the last. -/
theorem pairwise_linesHolding (tag : Text) (clue : Clue) (number : Nat) (lines : List Text) :
    (linesHolding tag clue number lines).Pairwise (· < ·) := by
  induction lines generalizing number with
  | nil => exact List.Pairwise.nil
  | cons line lines ih =>
    rw [linesHolding]
    split
    · exact List.pairwise_cons.2 ⟨fun later hlater => le_of_mem_linesHolding hlater, ih _⟩
    · exact ih _

theorem pairwise_candidateLines (source : Text) (element : ElementInfo) :
    (candidateLines source element).Pairwise (· < ·) := by
  rw [candidateLines]
  split
  · exact List.Pairwise.nil
  · dsimp only
    cases hfound : ((clues element).map fun clue =>
        linesHolding element.tag clue 1 (Text.lines source)).find? (!·.isEmpty) with
    | none => exact List.Pairwise.nil
    | some found =>
      obtain ⟨clue, -, rfl⟩ := List.mem_map.1 (List.mem_of_find?_eq_some hfound)
      exact pairwise_linesHolding _ _ _ _

/-- **Two numbers of elements in front lead to the same line just when they are the same, or neither is
less than the number of the last line that the element may stand at.** -/
theorem findLine?_eq_iff (source : Text) (element : ElementInfo) (m n : Nat) :
    findLine? source element m = findLine? source element n ↔
      min m ((candidateLines source element).length - 1) =
        min n ((candidateLines source element).length - 1) := by
  rw [findLine?, findLine?, nearest?, nearest?, Int.toNat_natCast, Int.toNat_natCast]
  refine ⟨fun h => ?_, fun h => by rw [h]⟩
  rcases Nat.eq_zero_or_pos (candidateLines source element).length with hnone | hsome
  · rw [hnone, Nat.zero_sub, Nat.min_zero, Nat.min_zero]
  · have hnodup := (pairwise_candidateLines source element).imp fun hlt => Nat.ne_of_lt hlt
    exact (List.getElem?_inj (by omega) hnodup).1 h

end Locate

end TemplateAudit
