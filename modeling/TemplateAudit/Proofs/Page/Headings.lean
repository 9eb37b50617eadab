import TemplateAudit.Page.Scan
import TemplateAudit.Proofs.Locate.Counted
import TemplateAudit.Proofs.Rule.Outline

/-!
# The headings of a page of one file

For a page of one file the scan for headings and the rule on its document say the same about the same
elements, but they do not count alike.  The scan numbers a heading among the headings in front of it that
look the same; the rule leaves it to the findings to be counted, and a heading may have several of them or
none.  `scanHeadings_agrees_iff` says when the lines come out the same.
-/

namespace TemplateAudit

namespace Page

open Rule.Headings (Heading Carries analyse positioned examine)

variable {member : Member} {textLimit : Nat} {file url : Option Text}

/-! ## Headings that look the same -/

/-- The elements of a file that are headings. -/
def headingPlaces (member : Member) : List Html.Place :=
  Css.select Rule.headings member.document

/-- How many elements in front of a heading look the same. -/
def lookalikes (places : List Html.Place) (heading : Heading Nat) : Nat :=
  (places.take heading.mark).countP fun place => looksOf place = looksOf heading.place

theorem headingsOf_eq (member : Member) :
    headingsOf member = (positioned (headingPlaces member)).map
      (·.remark fun heading => (member, lookalikes (headingPlaces member) heading)) := by
  rw [headingsOf, Pairs.numbered_eq, Pairs.withFront, positioned, List.map_map, List.map_map, List.map_map]
  rfl

/-! ## The findings of both ways -/

/-- What the rule finds in a file, with the headings by their positions. -/
def headingsFound (member : Member) (file url : Option Text) (textLimit : Nat) :
    List (Heading Nat × Finding) :=
  analyse (positioned (headingPlaces member)) ⟨file, url, textLimit⟩

/-- How many findings in front of one are about elements that look the same. -/
def alike (front : List (Heading Nat × Finding)) (found : Heading Nat × Finding) : Nat :=
  front.countP fun other => Locate.likeness other.2 = Locate.likeness found.2

theorem scanHeadings_eq (member : Member) (file url : Option Text) (textLimit : Nat) :
    scanHeadings textLimit [member] =
      (Pairs.withFront (headingsFound member file url textLimit)).map fun entry =>
        member.placed (lookalikes (headingPlaces member) entry.2.1) entry.2.2 := by
  have hcarries : Carries (fun heading => (member, lookalikes (headingPlaces member) heading))
      ⟨file, url, textLimit⟩ ⟨none, none, textLimit⟩ fun found =>
        (found.1.remark fun heading => (member, lookalikes (headingPlaces member) heading),
          found.2.located none none) := fun _ _ _ _ _ => rfl
  have hfound : analyse (headingsOf member) ⟨none, none, textLimit⟩ =
      ((Pairs.withFront (headingsFound member file url textLimit)).map (·.2)).map fun found =>
        (found.1.remark fun heading => (member, lookalikes (headingPlaces member) heading),
          found.2.located none none) := by
    rw [headingsOf_eq, hcarries.analyse_eq, Pairs.map_snd_withFront]
    rfl
  rw [scanHeadings, List.flatMap_singleton, hfound, List.map_map, List.map_map]
  rfl

theorem recorded?_of_mem_headingsFound {found : Heading Nat × Finding}
    (h : found ∈ headingsFound member file url textLimit) : Locate.recorded? found.2 = none := by
  have hdescribes := (Rule.Headings.mem_of_mem_analyse h).2
  rw [Locate.recorded?, hdescribes]
  rfl

theorem locate_examine_eq (member : Member) (path file url : Option Text) (textLimit : Nat) :
    Locate.locate member.source path (examine member.document ⟨file, url, textLimit⟩) =
      .ok ((Pairs.withFront (headingsFound member file url textLimit)).map fun entry =>
        entry.2.2.located path ((Locate.findLine? member.source entry.2.2.element
          (alike entry.1 entry.2 : Nat)).map Int.ofNat)) := by
  have hfound : examine member.document ⟨file, url, textLimit⟩ =
      (headingsFound member file url textLimit).map (·.2) :=
    Rule.Headings.examine_eq_analyse member.document _
  have hunrecorded : ∀ finding ∈ (headingsFound member file url textLimit).map (·.2),
      Locate.recorded? finding = none := fun finding hfinding => by
    obtain ⟨found, hfound, rfl⟩ := List.mem_map.1 hfinding
    exact recorded?_of_mem_headingsFound hfound
  rw [hfound, Locate.locate_eq_of_unrecorded _ _ hunrecorded, Pairs.withFront_map, List.map_map]
  refine congrArg Except.ok (List.map_congr_left fun entry _ => ?_)
  rw [Function.comp_apply, List.countP_map]
  rfl

/-! ## When they agree -/

/-- What a finding says of which element, wherever it stands. -/
def said (finding : Finding) : Text × Severity × ElementInfo :=
  (finding.message, finding.severity, finding.element)

/-- What a finding says of which element, and at which line. -/
def pointed (finding : Finding) : (Text × Severity × ElementInfo) × Option Int :=
  (said finding, finding.line)

theorem map_ofNat_inj {m n : Option Nat} : m.map Int.ofNat = n.map Int.ofNat ↔ m = n :=
  (Option.map_injective fun _ _ => Int.ofNat.inj).eq_iff

/-- **For a page of one file the scan for headings and the rule on its document, located, say the same of the
same elements, in the same order.  They point at the same lines just when for each finding as many headings
in front of its own look the same as findings in front of it are about elements that look the same, or both
are too many for the lines in question.** -/
theorem scanHeadings_agrees_iff (member : Member) (textLimit : Nat) (file url : Option Text) :
    ∃ located, Locate.locate member.source (some member.path.toText)
        (examine member.document ⟨file, url, textLimit⟩) = .ok located ∧
      (scanHeadings textLimit [member]).map said = located.map said ∧
      ((scanHeadings textLimit [member]).map pointed = located.map pointed ↔
        ∀ entry ∈ Pairs.withFront (headingsFound member file url textLimit),
          let last := (Locate.candidateLines member.source entry.2.2.element).length - 1
          min (lookalikes (headingPlaces member) entry.2.1) last = min (alike entry.1 entry.2) last) := by
  refine ⟨_, locate_examine_eq member _ file url textLimit, ?_⟩
  rw [scanHeadings_eq member file url, List.map_map, List.map_map, List.map_map, List.map_map]
  refine ⟨rfl, List.map_inj_left.trans (forall₂_congr fun entry _ => ?_)⟩
  dsimp only
  rw [← Locate.findLine?_eq_iff, ← map_ofNat_inj]
  exact ⟨congrArg Prod.snd, fun hline => Prod.ext rfl hline⟩

/-- A file with two empty headings: on the first one there are two findings. -/
def emptyTwice : Member :=
  ⟨0, ⟨1, ["page.html"]⟩, "<h2></h2>\n<h2></h2>",
    [.element "h2" [] [], .text .ordinary "\n", .element "h2" [] []]⟩

theorem scanHeadings_agrees_iff_emptyTwice :
    documentOf emptyTwice.source = .ok emptyTwice.document ∧
      ∃ located, Locate.locate emptyTwice.source (some emptyTwice.path.toText)
        (examine emptyTwice.document ⟨none, none, 100⟩) = .ok located ∧
      (scanHeadings 100 [emptyTwice]).map pointed ≠ located.map pointed := by
  refine ⟨by with_unfolding_all rfl, ?_⟩
  obtain ⟨located, hlocated, -, hagree⟩ := scanHeadings_agrees_iff emptyTwice 100 none none
  refine ⟨located, hlocated, fun hsame => absurd (hagree.1 hsame) ?_⟩
  decide +kernel

end Page

end TemplateAudit
