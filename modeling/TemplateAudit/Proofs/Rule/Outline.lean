import Mathlib.Data.List.Chain
import Mathlib.Data.Set.List
import Mathlib.Tactic.IntervalCases
import TemplateAudit.Rule.Headings

/-!
# What the analysis of headings says about an outline

The analysis compares each heading only with the one in front of it.  What it says is nevertheless a
statement about the outline as a whole (`analyse_outline`): it is silent just when there is one heading of
the first level and no step leads down by more than one level, and then no level is missing between that of
the first heading and that of any other.  The marks of headings are only passed on (`Carries.analyse_eq`), so
that they can be taken to be the positions of the headings.
-/

namespace TemplateAudit

namespace Rule

namespace Headings

variable {α β : Type} {headings : List (Heading α)} {heading : Heading α} {origin : Origin}

/-! ## Marks and origins -/

/-- The heading with another mark. -/
def Heading.remark (f : Heading α → β) (heading : Heading α) : Heading β :=
  ⟨heading.place, heading.level, f heading⟩

/-- Findings are taken to those on the headings with other marks, from another origin. -/
def Carries (f : Heading α → β) (origin origin' : Origin)
    (carry : Heading α × Finding → Heading β × Finding) : Prop :=
  ∀ heading message wcag remediation severity,
    about (heading.remark f) origin' message wcag remediation severity =
      carry (about heading origin message wcag remediation severity)

section Carries

variable {f : Heading α → β} {origin' : Origin} {carry : Heading α × Finding → Heading β × Finding}

theorem Carries.missingFirst_eq (h : Carries f origin origin' carry) (headings : List (Heading α)) :
    missingFirst origin' (headings.map (·.remark f)) = (missingFirst origin headings).map carry := by
  cases headings with
  | nil => rfl
  | cons first headings =>
    have hfirst : noFirst origin' (first.remark f) = carry (noFirst origin first) := h first _ _ _ _
    rw [List.map_cons, missingFirst, missingFirst, ← List.map_cons, List.any_map, apply_ite (List.map _),
      List.map_singleton, hfirst]
    rfl

theorem Carries.otherFirsts_eq (h : Carries f origin origin' carry) (headings : List (Heading α)) :
    otherFirsts origin' (headings.map (·.remark f)) = (otherFirsts origin headings).map carry := by
  rw [otherFirsts, otherFirsts, List.filter_map, ← List.map_drop, List.length_map, List.map_map,
    List.map_map]
  exact List.map_congr_left fun heading _ => h heading _ _ _ _

theorem Carries.skips_eq (h : Carries f origin origin' carry) (headings : List (Heading α)) :
    skips origin' (headings.map (·.remark f)) = (skips origin headings).map carry := by
  induction headings with
  | nil => rfl
  | cons previous headings ih =>
    cases headings with
    | nil => rfl
    | cons heading headings =>
      have hskip : skipped origin' (previous.remark f) (heading.remark f) =
          carry (skipped origin previous heading) := h heading _ _ _ _
      rw [List.map_cons, List.map_cons, skips, ← List.map_cons, ih, skips, List.map_append,
        apply_ite (List.map _), List.map_singleton, hskip]
      rfl

theorem Carries.onContent_eq (h : Carries f origin origin' carry) (heading : Heading α) :
    onContent origin' (heading.remark f) = (onContent origin heading).map carry := by
  have hempty : empty origin' (heading.remark f) = carry (empty origin heading) := h heading _ _ _ _
  have hdecorative : ∀ text, decorative origin' (heading.remark f) text =
      carry (decorative origin heading text) := fun text => h heading _ _ _ _
  rw [onContent, onContent, apply_ite (List.map _), apply_ite (List.map _), List.map_singleton,
    List.map_singleton, hempty, ← hdecorative]
  rfl

/-- **The analysis passes the marks of headings on, and the origin into its findings.** -/
theorem Carries.analyse_eq (h : Carries f origin origin' carry) (headings : List (Heading α)) :
    analyse (headings.map (·.remark f)) origin' = (analyse headings origin).map carry := by
  rw [analyse, analyse, h.missingFirst_eq, h.otherFirsts_eq, h.skips_eq, List.map_append, List.map_append,
    List.map_append, List.flatMap_map, List.map_flatMap]
  simp only [h.onContent_eq]

end Carries

/-! ## The parts of the analysis -/

/-- What can be wrong with an outline. -/
inductive Defect where
  | missingFirst
  | otherFirst
  | skip
  deriving DecidableEq

/-- How the message about a defect begins. -/
def Defect.beginning : Defect → Text
  | .missingFirst => "Page has h"
  | .otherFirst => "Page has multiple h1 headings"
  | .skip => "Heading hierarchy skipped"

/-- Does a finding report a defect? -/
def Defect.isReportedBy (defect : Defect) (found : Heading α × Finding) : Bool :=
  defect.beginning.isPrefixOf found.2.message

theorem isReportedBy_of_mem_missingFirst {found : Heading α × Finding}
    (h : found ∈ missingFirst origin headings) (defect : Defect) :
    defect.isReportedBy found = (defect = .missingFirst : Bool) := by
  unfold missingFirst at h
  split at h
  · cases h
  · split at h
    · cases h
    · obtain rfl := List.mem_singleton.1 h
      cases defect <;> rfl

theorem isReportedBy_of_mem_otherFirsts {found : Heading α × Finding}
    (h : found ∈ otherFirsts origin headings) (defect : Defect) :
    defect.isReportedBy found = (defect = .otherFirst : Bool) := by
  obtain ⟨heading, -, rfl⟩ := List.mem_map.1 h
  cases defect <;> rfl

/-- A heading is found to skip a level below the one in front of it. -/
theorem mem_skips {found : Heading α × Finding} : found ∈ skips origin headings ↔
    ∃ k previous heading, headings[k]? = some previous ∧ headings[k + 1]? = some heading ∧
      previous.level + 1 < heading.level ∧ found = skipped origin previous heading := by
  induction headings with
  | nil => simp [skips]
  | cons previous headings ih =>
    cases headings with
    | nil => simp [skips]
    | cons heading headings =>
      rw [skips, List.mem_append, ih]
      constructor
      · rintro (hhere | ⟨k, hlater⟩)
        · split at hhere
          · exact ⟨0, previous, heading, rfl, rfl, ‹_›, List.mem_singleton.1 hhere⟩
          · cases hhere
        · exact ⟨k + 1, hlater⟩
      · rintro ⟨k, previous', heading', hprevious, hheading, hskip, rfl⟩
        cases k with
        | zero =>
          obtain rfl := Option.some.inj hprevious
          obtain rfl := Option.some.inj hheading
          exact .inl (by rw [if_pos hskip]; exact List.mem_singleton_self _)
        | succ k => exact .inr ⟨k, previous', heading', hprevious, hheading, hskip, rfl⟩

theorem isReportedBy_of_mem_skips {found : Heading α × Finding} (h : found ∈ skips origin headings)
    (defect : Defect) : defect.isReportedBy found = (defect = .skip : Bool) := by
  obtain ⟨k, previous, heading, -, -, -, rfl⟩ := mem_skips.1 h
  cases defect <;> rfl

theorem isReportedBy_of_mem_onContent {found : Heading α × Finding}
    (h : found ∈ onContent origin heading) (defect : Defect) : defect.isReportedBy found = false := by
  rw [onContent] at h
  split at h
  · dsimp only at h
    split at h
    · obtain rfl := List.mem_singleton.1 h
      cases defect <;> rfl
    · cases h
  · obtain rfl := List.mem_singleton.1 h
    cases defect <;> rfl

/-- The part of the analysis that looks for a defect. -/
def Defect.part (origin : Origin) (headings : List (Heading α)) : Defect → List (Heading α × Finding)
  | .missingFirst => Headings.missingFirst origin headings
  | .otherFirst => otherFirsts origin headings
  | .skip => skips origin headings

/-- Each defect is reported by the part that looks for it. -/
theorem filter_analyse (defect : Defect) (headings : List (Heading α)) (origin : Origin) :
    (analyse headings origin).filter defect.isReportedBy = defect.part origin headings := by
  have hcontent : (headings.flatMap (onContent origin)).filter defect.isReportedBy = [] := by
    refine List.filter_eq_nil_iff.2 fun found hfound => ?_
    obtain ⟨heading, -, hfound⟩ := List.mem_flatMap.1 hfound
    rw [isReportedBy_of_mem_onContent hfound]
    decide
  rw [analyse, List.filter_append, List.filter_append, List.filter_append, hcontent,
    List.append_nil, List.filter_congr fun found hfound => isReportedBy_of_mem_missingFirst hfound defect,
    List.filter_congr fun found hfound => isReportedBy_of_mem_otherFirsts hfound defect,
    List.filter_congr fun found hfound => isReportedBy_of_mem_skips hfound defect]
  cases defect <;> simp [Defect.part]

/-! ## The headings that are found -/

/-- What is found on a heading describes its element. -/
def Describes (origin : Origin) (found : Heading α × Finding) : Prop :=
  found.2.element = describe found.1.place origin.textLimit []

theorem mem_of_mem_missingFirst {found : Heading α × Finding} (h : found ∈ missingFirst origin headings) :
    found.1 ∈ headings ∧ Describes origin found := by
  unfold missingFirst at h
  split at h
  · cases h
  · split at h
    · cases h
    · obtain rfl := List.mem_singleton.1 h
      exact ⟨List.mem_cons_self, rfl⟩

theorem mem_of_mem_otherFirsts {found : Heading α × Finding} (h : found ∈ otherFirsts origin headings) :
    found.1 ∈ headings ∧ Describes origin found := by
  obtain ⟨heading, hheading, rfl⟩ := List.mem_map.1 h
  exact ⟨List.mem_of_mem_filter (List.mem_of_mem_drop hheading), rfl⟩

theorem mem_of_mem_skips {found : Heading α × Finding} (h : found ∈ skips origin headings) :
    found.1 ∈ headings ∧ Describes origin found := by
  obtain ⟨k, previous, heading, -, hheading, -, rfl⟩ := mem_skips.1 h
  exact ⟨List.mem_of_getElem? hheading, rfl⟩

theorem eq_of_mem_onContent {found : Heading α × Finding} (h : found ∈ onContent origin heading) :
    found.1 = heading ∧ Describes origin found := by
  rw [onContent] at h
  split at h
  · dsimp only at h
    split at h
    · obtain rfl := List.mem_singleton.1 h
      exact ⟨rfl, rfl⟩
    · cases h
  · obtain rfl := List.mem_singleton.1 h
    exact ⟨rfl, rfl⟩

/-- Everything that is found is about one of the headings, and describes its element. -/
theorem mem_of_mem_analyse {found : Heading α × Finding} (h : found ∈ analyse headings origin) :
    found.1 ∈ headings ∧ Describes origin found := by
  simp only [analyse, List.mem_append] at h
  rcases h with ((hmissing | hother) | hskip) | hcontent
  · exact mem_of_mem_missingFirst hmissing
  · exact mem_of_mem_otherFirsts hother
  · exact mem_of_mem_skips hskip
  · obtain ⟨heading, hheading, hfound⟩ := List.mem_flatMap.1 hcontent
    obtain ⟨rfl, hdescribes⟩ := eq_of_mem_onContent hfound
    exact ⟨hheading, hdescribes⟩

/-! ## Elements that are headings -/

/-- An element with the tag of a heading. -/
structure Element where
  place : Html.Place
  level : Nat
  one_le : 1 ≤ level
  le_six : level ≤ 6
  tag_eq : place.tag = levelName level

/-- The level of a heading is the one that its tag names. -/
theorem Element.headingLevel_tag (element : Element) : headingLevel element.place.tag = element.level := by
  obtain ⟨place, level, hone, hsix, htag⟩ := element
  rw [htag]
  interval_cases level <;> rfl

/-- What is selected from a document as a heading is one. -/
theorem exists_element {document : Html.Document} {place : Html.Place}
    (h : place ∈ Css.select Rule.headings document) : ∃ element : Element, element.place = place := by
  have htag := (List.mem_filter.1 h).2
  simp only [Css.Selector.matchesAt, Rule.headings, Css.tag, Css.Pattern.matchesAt, List.any_cons,
    List.any_nil, List.all_nil, Option.all_some, Bool.and_true, Bool.or_false, Bool.or_eq_true,
    beq_iff_eq] at htag
  rcases htag with htag | htag | htag | htag | htag | htag
  · exact ⟨⟨place, 1, by decide, by decide, htag.symm⟩, rfl⟩
  · exact ⟨⟨place, 2, by decide, by decide, htag.symm⟩, rfl⟩
  · exact ⟨⟨place, 3, by decide, by decide, htag.symm⟩, rfl⟩
  · exact ⟨⟨place, 4, by decide, by decide, htag.symm⟩, rfl⟩
  · exact ⟨⟨place, 5, by decide, by decide, htag.symm⟩, rfl⟩
  · exact ⟨⟨place, 6, by decide, by decide, htag.symm⟩, rfl⟩

/-- Headings known by their positions. -/
def positioned (places : List Html.Place) : List (Heading Nat) :=
  places.zipIdx.map fun entry => .at entry.1 entry.2

/-- Where headings stand. -/
def places (elements : List Element) : List Html.Place :=
  elements.map (·.place)

/-- The levels of headings. -/
def levels (elements : List Element) : List Nat :=
  elements.map (·.level)

/-- The positions of the headings on which a defect is reported. -/
def reportedAt (defect : Defect) (found : List (Heading Nat × Finding)) : List Nat :=
  (found.filter defect.isReportedBy).map (·.1.mark)

theorem getElem?_positioned (places : List Html.Place) (i : Nat) :
    (positioned places)[i]? = places[i]?.map (Heading.at · i) := by
  rw [positioned, List.getElem?_map, List.getElem?_zipIdx, Option.map_map, Nat.zero_add]
  rfl

theorem map_mark_positioned (places : List Html.Place) :
    (positioned places).map (·.mark) = List.range places.length := by
  rw [positioned, List.map_map, List.range_eq_range', ← List.zipIdx_map_snd]
  rfl

theorem getElem?_levels (elements : List Element) (i : Nat) :
    (levels elements)[i]? = elements[i]?.map (·.level) :=
  List.getElem?_map

theorem getElem?_outline (elements : List Element) (i : Nat) :
    (positioned (places elements))[i]? =
      elements[i]?.map fun element => ⟨element.place, element.level, i⟩ := by
  rw [getElem?_positioned, places, List.getElem?_map, Option.map_map]
  refine congrArg (Option.map · _) (funext fun element => ?_)
  rw [Function.comp_apply, Heading.at, element.headingLevel_tag]

theorem map_level_positioned (elements : List Element) :
    (positioned (places elements)).map (·.level) = levels elements := by
  refine List.ext_getElem? fun i => ?_
  rw [List.getElem?_map, getElem?_outline, getElem?_levels, Option.map_map]
  rfl

theorem mem_outline {elements : List Element} {heading : Heading Nat} :
    heading ∈ positioned (places elements) ↔
      ∃ element, elements[heading.mark]? = some element ∧
        heading = ⟨element.place, element.level, heading.mark⟩ := by
  rw [List.mem_iff_getElem?]
  constructor
  · rintro ⟨i, hi⟩
    rw [getElem?_outline] at hi
    obtain ⟨element, helement, rfl⟩ := Option.map_eq_some_iff.1 hi
    exact ⟨element, helement, rfl⟩
  · rintro ⟨element, helement, hheading⟩
    exact ⟨heading.mark, by rw [getElem?_outline, helement, Option.map_some, ← hheading]⟩

/-- Headings taken in order from the outline have increasing positions. -/
theorem pairwise_mark_of_sublist {places : List Html.Place} {taken : List (Heading Nat)}
    (h : taken.Sublist (positioned places)) : (taken.map (·.mark)).Pairwise (· < ·) := by
  have hmarks := h.map (·.mark)
  rw [map_mark_positioned] at hmarks
  exact List.pairwise_lt_range.sublist hmarks

/-! ## No heading of the first level -/

theorem map_mark_missingFirst (elements : List Element) (origin : Origin) :
    (missingFirst origin (positioned (places elements))).map (·.1.mark) =
      if elements = [] ∨ 1 ∈ levels elements then [] else [0] := by
  have hany : (positioned (places elements)).any (·.level == 1) = true ↔ 1 ∈ levels elements := by
    rw [← map_level_positioned, List.any_eq_true, List.mem_map]
    simp only [beq_iff_eq]
  cases elements with
  | nil => rfl
  | cons element elements =>
    have hheadings : positioned (places (element :: elements)) =
        .at element.place 0 :: ((places elements).zipIdx 1).map fun entry => .at entry.1 entry.2 := rfl
    rw [hheadings] at hany ⊢
    rw [missingFirst]
    simp only [hany, reduceCtorEq, false_or]
    split <;> rfl

/-! ## Several headings of the first level -/

/-- What stands behind the first item of an increasing list. -/
theorem mem_drop_one {positions : List Nat} (h : positions.Pairwise (· < ·)) {i : Nat} :
    i ∈ positions.drop 1 ↔ i ∈ positions ∧ ∃ j < i, j ∈ positions := by
  cases positions with
  | nil => simp
  | cons first positions =>
    obtain ⟨hfirst, -⟩ := List.pairwise_cons.1 h
    rw [List.drop_one, List.tail_cons]
    constructor
    · exact fun hi => ⟨List.mem_cons_of_mem _ hi, first, hfirst i hi, List.mem_cons_self⟩
    · rintro ⟨hi, j, hj, hmem⟩
      rcases List.mem_cons.1 hi with rfl | hi
      · rcases List.mem_cons.1 hmem with rfl | hmem
        · exact absurd hj (Nat.lt_irrefl _)
        · exact absurd hj (Nat.lt_asymm (hfirst j hmem))
      · exact hi

/-- The positions of the headings of the first level. -/
def firsts (elements : List Element) : List Nat :=
  ((positioned (places elements)).filter (·.level == 1)).map (·.mark)

theorem mem_firsts {elements : List Element} {i : Nat} :
    i ∈ firsts elements ↔ (levels elements)[i]? = some 1 := by
  rw [firsts, List.mem_map, getElem?_levels]
  constructor
  · rintro ⟨heading, hheading, rfl⟩
    obtain ⟨hmem, hlevel⟩ := List.mem_filter.1 hheading
    obtain ⟨element, helement, hheading⟩ := mem_outline.1 hmem
    have hsame : element.level = heading.level := congrArg Heading.level hheading.symm
    rw [helement, Option.map_some, hsame, beq_iff_eq.1 hlevel]
  · intro hi
    obtain ⟨element, helement, hlevel⟩ := Option.map_eq_some_iff.1 hi
    exact ⟨⟨element.place, element.level, i⟩,
      List.mem_filter.2 ⟨mem_outline.2 ⟨element, helement, rfl⟩, beq_iff_eq.2 hlevel⟩, rfl⟩

theorem pairwise_firsts (elements : List Element) : (firsts elements).Pairwise (· < ·) :=
  pairwise_mark_of_sublist List.filter_sublist

theorem length_firsts (elements : List Element) :
    (firsts elements).length = (levels elements).count 1 := by
  rw [firsts, List.length_map, ← List.countP_eq_length_filter, ← map_level_positioned, List.count,
    List.countP_map]
  rfl

theorem map_mark_otherFirsts (elements : List Element) (origin : Origin) :
    (otherFirsts origin (positioned (places elements))).map (·.1.mark) = (firsts elements).drop 1 := by
  rw [otherFirsts, List.map_map, firsts, List.map_drop]
  rfl

/-! ## Skipped levels -/

theorem skips_eq_nil_iff : skips origin headings = [] ↔
    headings.IsChain fun previous heading => heading.level ≤ previous.level + 1 := by
  induction headings with
  | nil => simp [skips]
  | cons previous headings ih =>
    cases headings with
    | nil => simp [skips]
    | cons heading headings =>
      rw [skips, List.append_eq_nil_iff, ih, List.isChain_cons_cons]
      by_cases hskip : previous.level + 1 < heading.level
      · simp [hskip, Nat.not_le.2 hskip]
      · simp [hskip, Nat.not_lt.1 hskip]

theorem sublist_skips (origin : Origin) (headings : List (Heading α)) :
    ((skips origin headings).map Prod.fst).Sublist headings.tail := by
  induction headings with
  | nil => exact List.Sublist.slnil
  | cons previous headings ih =>
    cases headings with
    | nil => exact List.Sublist.slnil
    | cons heading headings =>
      rw [skips, List.map_append]
      split
      · exact ih.cons_cons heading
      · exact ih.cons heading

theorem mem_map_mark_skips {elements : List Element} {i : Nat} :
    i ∈ (skips origin (positioned (places elements))).map (·.1.mark) ↔
      ∃ k previous level : Nat, i = k + 1 ∧ (levels elements)[k]? = some previous ∧
        (levels elements)[i]? = some level ∧ previous + 1 < level := by
  simp only [List.mem_map, mem_skips, getElem?_outline, getElem?_levels, Option.map_eq_some_iff]
  constructor
  · rintro ⟨_, ⟨k, _, _, ⟨previous, hprevious, rfl⟩, ⟨element, helement, rfl⟩, hskip, rfl⟩, rfl⟩
    exact ⟨k, _, _, rfl, ⟨previous, hprevious, rfl⟩, ⟨element, helement, rfl⟩, hskip⟩
  · rintro ⟨k, _, _, rfl, ⟨previous, hprevious, rfl⟩, ⟨element, helement, rfl⟩, hskip⟩
    exact ⟨_, ⟨k, _, _, ⟨previous, hprevious, rfl⟩, ⟨element, helement, rfl⟩, hskip, rfl⟩, rfl⟩

/-- Where no step leads down by more than one level, no level is passed over on the way to a deeper one. -/
theorem exists_level {levels : List Nat}
    (h : ∀ i previous level : Nat, levels[i]? = some previous → levels[i + 1]? = some level →
      level ≤ previous + 1)
    {i first level wanted : Nat} (hfirst : levels[0]? = some first) (hlevel : levels[i]? = some level)
    (hlow : first ≤ wanted) (hhigh : wanted ≤ level) : ∃ j ≤ i, levels[j]? = some wanted := by
  induction i generalizing level with
  | zero =>
    obtain rfl := Option.some.inj (hfirst.symm.trans hlevel)
    exact ⟨0, Nat.le_refl 0, hlevel.trans (congrArg some (Nat.le_antisymm hlow hhigh))⟩
  | succ i ih =>
    by_cases hhere : wanted = level
    · exact ⟨i + 1, Nat.le_refl _, hhere ▸ hlevel⟩
    · -- the level in front is at most one less, so that it is still as deep as the one looked for
      have hlt : i < levels.length := by
        have := (List.getElem?_eq_some_iff.1 hlevel).1
        omega
      have hprevious : levels[i]? = some levels[i] := List.getElem?_eq_getElem hlt
      have hstep := h i _ _ hprevious hlevel
      obtain ⟨j, hj, hfound⟩ := ih hprevious (by omega)
      exact ⟨j, Nat.le_succ_of_le hj, hfound⟩

/-! ## The outline -/

/-- What the analysis of an outline has to say. -/
structure IsReportOn (elements : List Element) (origin : Origin) (found : List (Heading Nat × Finding)) :
    Prop where
  /-- Nothing is wrong with no outline, and with one that has one heading of the first level and skips no
  level on the way down. -/
  silent_iff : (∀ defect, reportedAt defect found = []) ↔
    elements = [] ∨ ((levels elements).count 1 = 1 ∧
      (levels elements).IsChain fun previous level => level ≤ previous + 1)
  /-- Where no skip is reported, every level from that of the first heading to that of some heading is found
  at or before the latter. -/
  no_gap : reportedAt .skip found = [] →
    ∀ i first level wanted : Nat, (levels elements)[0]? = some first → (levels elements)[i]? = some level →
      first ≤ wanted → wanted ≤ level → ∃ j ≤ i, (levels elements)[j]? = some wanted
  /-- That there is no heading of the first level is reported once, on the first heading. -/
  missingFirst : reportedAt .missingFirst found =
    if elements = [] ∨ 1 ∈ levels elements then [] else [0]
  /-- Every heading of the first level but the first one is reported once. -/
  otherFirst : (reportedAt .otherFirst found).Pairwise (· < ·) ∧
    ∀ i, i ∈ reportedAt .otherFirst found ↔
      (levels elements)[i]? = some 1 ∧ ∃ j < i, (levels elements)[j]? = some 1
  /-- Every heading more than one level deeper than the one in front of it is reported once. -/
  skip : (reportedAt .skip found).Pairwise (· < ·) ∧
    ∀ i, i ∈ reportedAt .skip found ↔
      ∃ k previous level : Nat, i = k + 1 ∧ (levels elements)[k]? = some previous ∧
        (levels elements)[i]? = some level ∧ previous + 1 < level
  /-- No heading is reported both for the missing first level and for a skip. -/
  once : ∀ i ∈ reportedAt .missingFirst found, i ∉ reportedAt .skip found
  /-- What is found at a position describes the heading there. -/
  describes : ∀ one ∈ found, ∃ element, elements[one.1.mark]? = some element ∧
    one.2.element = describe element.place origin.textLimit []

variable {elements : List Element}

theorem reportedAt_analyse (defect : Defect) (elements : List Element) (origin : Origin) :
    reportedAt defect (analyse (positioned (places elements)) origin) =
      (defect.part origin (positioned (places elements))).map (·.1.mark) := by
  rw [reportedAt, filter_analyse]

theorem reportedAt_missingFirst (elements : List Element) (origin : Origin) :
    reportedAt .missingFirst (analyse (positioned (places elements)) origin) =
      if elements = [] ∨ 1 ∈ levels elements then [] else [0] := by
  rw [reportedAt_analyse]
  exact map_mark_missingFirst elements origin

theorem reportedAt_otherFirst (elements : List Element) (origin : Origin) :
    reportedAt .otherFirst (analyse (positioned (places elements)) origin) = (firsts elements).drop 1 := by
  rw [reportedAt_analyse]
  exact map_mark_otherFirsts elements origin

theorem reportedAt_skip_eq_nil_iff : reportedAt .skip (analyse (positioned (places elements)) origin) = [] ↔
    (levels elements).IsChain fun previous level => level ≤ previous + 1 := by
  rw [reportedAt_analyse, Defect.part, List.map_eq_nil_iff, skips_eq_nil_iff, ← map_level_positioned,
    List.isChain_map]

theorem mem_reportedAt_skip {i : Nat} : i ∈ reportedAt .skip (analyse (positioned (places elements)) origin) ↔
    ∃ k previous level : Nat, i = k + 1 ∧ (levels elements)[k]? = some previous ∧
      (levels elements)[i]? = some level ∧ previous + 1 < level := by
  rw [reportedAt_analyse]
  exact mem_map_mark_skips

/-- Nothing is reported on an outline without headings, and on one with a single heading of the first level
that skips no level on the way down. -/
theorem forall_reportedAt_eq_nil_iff :
    (∀ defect, reportedAt defect (analyse (positioned (places elements)) origin) = []) ↔
      elements = [] ∨ ((levels elements).count 1 = 1 ∧
        (levels elements).IsChain fun previous level => level ≤ previous + 1) := by
  have hall : (∀ defect, reportedAt defect (analyse (positioned (places elements)) origin) = []) ↔
      reportedAt .missingFirst (analyse (positioned (places elements)) origin) = [] ∧
      reportedAt .otherFirst (analyse (positioned (places elements)) origin) = [] ∧
      reportedAt .skip (analyse (positioned (places elements)) origin) = [] :=
    ⟨fun h => ⟨h _, h _, h _⟩, fun ⟨hmissing, hother, hskip⟩ defect => by cases defect <;> assumption⟩
  rw [hall, reportedAt_missingFirst, reportedAt_otherFirst, reportedAt_skip_eq_nil_iff,
    List.drop_eq_nil_iff, length_firsts, ite_eq_left_iff]
  by_cases hnil : elements = []
  · subst hnil
    simp [levels]
  · -- some heading is of the first level, and no other one is
    have hcount : 1 ∈ levels elements ↔ 0 < (levels elements).count 1 := List.count_pos_iff.symm
    simp only [hnil, false_or, reduceCtorEq, hcount, imp_false, not_not, ← and_assoc]
    refine and_congr_left fun _ => ?_
    omega

/-- **What the analysis reports on headings, comparing neighbours, is what is wrong with the outline as a
whole.** -/
theorem analyse_outline (elements : List Element) (origin : Origin) :
    IsReportOn elements origin (analyse (positioned (places elements)) origin) where
  silent_iff := forall_reportedAt_eq_nil_iff
  no_gap := by
    intro hsilent i first level wanted
    refine exists_level fun k previous level hprevious hlevel => ?_
    by_contra hdeep
    have hreported : k + 1 ∈ reportedAt .skip (analyse (positioned (places elements)) origin) :=
      mem_reportedAt_skip.2 ⟨k, previous, level, rfl, hprevious, hlevel, Nat.lt_of_not_le hdeep⟩
    rw [hsilent] at hreported
    cases hreported
  missingFirst := reportedAt_missingFirst elements origin
  otherFirst := by
    rw [reportedAt_otherFirst]
    refine ⟨(pairwise_firsts elements).drop, fun i => ?_⟩
    simp only [mem_drop_one (pairwise_firsts elements), mem_firsts]
  skip := by
    refine ⟨?_, fun i => mem_reportedAt_skip⟩
    rw [reportedAt_analyse]
    have hpositions := pairwise_mark_of_sublist
      ((sublist_skips origin (positioned (places elements))).trans (List.tail_sublist _))
    rw [List.map_map] at hpositions
    exact hpositions
  once := by
    intro i hmissing hskip
    obtain ⟨k, -, -, rfl, -⟩ := mem_reportedAt_skip.1 hskip
    rw [reportedAt_missingFirst] at hmissing
    split at hmissing
    · cases hmissing
    · cases List.mem_singleton.1 hmissing
  describes := by
    intro one hone
    obtain ⟨hmem, hdescribes⟩ := mem_of_mem_analyse hone
    obtain ⟨element, helement, hheading⟩ := mem_outline.1 hmem
    refine ⟨element, helement, ?_⟩
    rw [Describes, hheading] at hdescribes
    exact hdescribes

/-- A heading that has nothing in it. -/
def bare (level : Nat) (hone : 1 ≤ level) (hsix : level ≤ 6) : Element :=
  ⟨⟨⟨levelName level, [], [], []⟩, []⟩, level, hone, hsix, rfl⟩

/-- An outline that begins below the first level, and skips none. -/
def steps : List Element :=
  [bare 2 (by decide) (by decide), bare 3 (by decide) (by decide), bare 4 (by decide) (by decide),
    bare 2 (by decide) (by decide)]

theorem analyse_outline_steps :
    reportedAt .skip (analyse (positioned (places steps)) .unknown) = [] ∧
      reportedAt .missingFirst (analyse (positioned (places steps)) .unknown) = [0] ∧
      ∃ j ≤ 2, (levels steps)[j]? = some 3 := by
  have hskip : reportedAt .skip (analyse (positioned (places steps)) .unknown) = [] := by decide
  have hreport := analyse_outline steps .unknown
  exact ⟨hskip, hreport.missingFirst, hreport.no_gap hskip 2 2 4 3 rfl rfl (by decide) (by decide)⟩

/-! ## The headings of a document -/

/-- The headings of a document are a list of elements with the tags of headings. -/
theorem exists_elements (document : Html.Document) :
    ∃ elements : List Element, places elements = Css.select Rule.headings document := by
  have hselected : Css.select Rule.headings document ∈ Set.range (List.map Element.place) := by
    rw [Set.range_list_map]
    exact fun place hplace => exists_element hplace
  exact hselected

/-- The rule on documents says what the analysis says of the outline that the headings in one make. -/
theorem examine_eq_analyse (document : Html.Document) (origin : Origin) :
    examine document origin =
      (analyse (positioned (Css.select Rule.headings document)) origin).map (·.2) := by
  have hheadings : (Css.select Rule.headings document).map (Heading.at · ()) =
      (positioned (Css.select Rule.headings document)).map (·.remark fun _ => ()) := by
    conv_lhs => rw [← List.zipIdx_map_fst 0 (Css.select Rule.headings document), List.map_map]
    rw [positioned, List.map_map]
    rfl
  have hcarries : Carries (fun _ : Heading Nat => ()) origin origin fun found =>
      (found.1.remark fun _ => (), found.2) := fun _ _ _ _ _ => rfl
  rw [examine, hheadings, hcarries.analyse_eq, List.map_map]
  rfl

end Headings

end Rule

end TemplateAudit
