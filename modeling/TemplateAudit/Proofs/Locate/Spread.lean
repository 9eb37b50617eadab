import TemplateAudit.Proofs.Locate.Signs

/-!
# Findings about elements that look alike

Findings that do not say which occurrence they are about share the lines at which elements of their likeness
may stand: the first is given the first of these lines, the next the next one, and when there are
no more, the last (`locate_spread`).  What stands between them makes no difference.
-/

namespace TemplateAudit

namespace Locate

variable {source : Text} {file : Option Text} {findings front : List Finding} {finding : Finding}

/-! ## Groups -/

/-- The findings of a likeness that do not say how many elements come first. -/
def alike (group : Likeness) (findings : List Finding) : List Finding :=
  (unrecorded findings).filter fun finding => likeness finding = group

theorem alike_concat (group : Likeness) (front : List Finding) (finding : Finding) :
    alike group (front ++ [finding]) =
      alike group front ++
        if recorded? finding = none ∧ likeness finding = group then [finding] else [] := by
  rw [alike, unrecorded_concat, List.filter_append, ← alike]
  cases hrecorded : recorded? finding with
  | some data => simp
  | none => simp [List.filter_singleton]

/-- An element that looks as the findings of a group say. -/
def Likeness.element (group : Likeness) : ElementInfo :=
  { tag := group.tag, id := group.id, src := group.src, href := group.href, inputType := group.inputType,
    text := group.text, classes := none, parent := none, details := [] }

/-- The lines at which the elements of a group may stand. -/
def Likeness.lines (source : Text) (group : Likeness) : List Nat :=
  candidateLines source group.element

theorem lines_likeness (source : Text) (finding : Finding) :
    (likeness finding).lines source = candidateLines source finding.element := rfl

/-! ## A finding of a group -/

theorem recorded?_placedAfter : recorded? (placedAfter source file front finding) = recorded? finding := rfl

theorem likeness_placedAfter : likeness (placedAfter source file front finding) = likeness finding := rfl

/-- A finding of a group is given the line that its place in the group leads to. -/
theorem placedAfter_of_unrecorded (h : recorded? finding = none) :
    placedAfter source file front finding =
      finding.located file
        ((((likeness finding).lines source)[min (alike (likeness finding) front).length
          (((likeness finding).lines source).length - 1)]?).map Int.ofNat) := by
  rw [placedAfter, occurrenceAfter_of_unrecorded h, List.countP_eq_length_filter, findLine?, nearest?,
    Int.toNat_natCast, alike, lines_likeness]

/-- The findings of a group are placed by their number in the group. -/
theorem alike_placed (source : Text) (file : Option Text) (group : Likeness) (findings : List Finding) :
    alike group ((Pairs.withFront findings).map fun entry => placedAfter source file entry.1 entry.2) =
      (alike group findings).mapIdx fun k finding =>
        finding.located file
          (((group.lines source)[min k ((group.lines source).length - 1)]?).map Int.ofNat) := by
  induction findings using List.reverseRecOn with
  | nil => rfl
  | append_singleton front finding ih =>
    rw [Pairs.withFront_concat, List.map_append, List.map_singleton, alike_concat, alike_concat, ih,
      recorded?_placedAfter, likeness_placedAfter]
    split
    · rename_i hgroup
      obtain ⟨hrecorded, rfl⟩ := hgroup
      rw [List.mapIdx_concat, placedAfter_of_unrecorded hrecorded]
    · rw [List.append_nil, List.append_nil]

/-- **Findings about elements that look alike are spread over the lines at which such elements may stand.**
Only the file and the line of a finding change.  Of the findings with one likeness that do not say
how many elements come first, each is given the line that its number in the group leads to, wherever the
others stand; numbers beyond the lines lead to the last one, and without lines there is none. -/
theorem locate_spread (source : Text) (file : Option Text) (findings : List Finding)
    (hcounted : ∀ finding ∈ findings, finding.IsCounted) :
    ∃ located, locate source file findings = .ok located ∧
      List.Forall₂ (fun finding placed => ∃ line, placed = finding.located file line) findings located ∧
      ∀ group : Likeness,
        (group.lines source).Pairwise (· < ·) ∧
        (∀ number ∈ group.lines source, ∃ line, IsLine source number line) ∧
        alike group located = (alike group findings).mapIdx fun k finding =>
          finding.located file
            (((group.lines source)[min k ((group.lines source).length - 1)]?).map Int.ofNat) := by
  refine ⟨_, locate_eq source file hcounted, ?_, fun group => ⟨?_, ?_, alike_placed source file group findings⟩⟩
  · rw [List.forall₂_map_right_iff]
    conv => arg 2; rw [← Pairs.map_snd_withFront findings]
    rw [List.forall₂_map_left_iff, List.forall₂_same]
    exact fun entry _ => ⟨_, rfl⟩
  · exact pairwise_candidateLines source _
  · intro number hnumber
    obtain ⟨-, -, sign, -, line, hline, -⟩ := mem_candidateLines.1 hnumber
    exact ⟨line, hline⟩

/-- A finding about an element with nothing but a tag. -/
def bare (tag : Text) (details : List (Text × Json)) : Finding :=
  ⟨[], [], .error, ⟨tag, none, none, none, none, none, [], none, details⟩, none, none, [], none, false⟩

/-- Images with a link and an image that has its own number between them. -/
def images : List Finding :=
  [bare "img" [], bare "a" [], bare "img" [("occurrence", .int 0)], bare "img" [], bare "img" []]

/-- Three images that are to be counted in a source with two of them, where the first has its own number. -/
theorem locate_spread_images :
    (∀ finding ∈ images, finding.IsCounted) ∧
      ∃ located, locate "<img>\n<a>\n<img>".toList none images = .ok located ∧
        (alike (likeness (bare "img" [])) located).map Finding.line = [some 1, some 3, some 3] := by
  have hcounted : ∀ finding ∈ images, finding.IsCounted := by
    have hcounts : ∀ tag, (bare tag []).IsCounted := fun tag => Finding.isCounted_of_nil rfl
    have hrecorded : (bare "img" [("occurrence", .int 0)]).IsCounted := fun data hdata => by
      rw [bare, Pairs.get?, if_pos rfl, Option.mem_some_iff] at hdata
      exact ⟨0, hdata.symm⟩
    simp only [images, List.forall_mem_cons]
    exact ⟨hcounts _, hcounts _, hrecorded, hcounts _, hcounts _, List.forall_mem_nil _⟩
  obtain ⟨located, hlocated, -, hgroups⟩ := locate_spread "<img>\n<a>\n<img>".toList none images hcounted
  refine ⟨hcounted, located, hlocated, ?_⟩
  rw [(hgroups _).2.2]
  decide

end Locate

end TemplateAudit
