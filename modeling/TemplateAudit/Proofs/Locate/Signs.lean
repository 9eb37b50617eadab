import TemplateAudit.Proofs.Locate.Counted
import TemplateAudit.Proofs.Locate.Written

/-!
# Where an element may stand

An element is looked for by what a line may show of it.  There are eight signs, from the best to the weakest
(`Sign.all`), and the best of them that any line shows decides (`Sign.IsBest`): the element may stand at
exactly the lines that show it (`mem_candidateLines`).  Which of these lines it is given depends on how many
elements come first, a larger number never leads to an earlier line, and only an element of which no line
shows the tag or the call of a helper has no line (`findLine?_by_signs`).
-/

namespace TemplateAudit

namespace Locate

variable {source : Text} {element : ElementInfo} {lines : List Text} {number : Nat}

/-! ## Signs -/

/-- What a line may show of an element. -/
inductive Sign where
  /-- Its tag and its id. -/
  | id
  /-- Its tag and its source. -/
  | src
  /-- Its tag and what it links to. -/
  | href
  /-- Its tag and the type of the field. -/
  | inputType
  /-- Its tag and the beginning of its text. -/
  | text
  /-- The call of a helper that writes its tag, with a literal part of its id, its source or its link. -/
  | literal
  /-- Its tag. -/
  | tag
  /-- The call of a helper that writes its tag. -/
  | helper
  deriving DecidableEq, Repr

namespace Sign

/-- The signs, the best first. -/
def all : List Sign :=
  [id, src, href, inputType, text, literal, tag, helper]

/-- A line shows a tag and an attribute with a value that is known and not empty. -/
def ShowsValue (tag name : Text) (value : Option Text) (line : Text) : Prop :=
  TagOpens tag line ∧ ∃ known ∈ value, known ≠ [] ∧ AttributeStands name known line

/-- A line shows a sign of an element. -/
def Shows (element : ElementInfo) (line : Text) : Sign → Prop
  | id => ShowsValue element.tag "id" element.id line
  | src => ShowsValue element.tag "src" element.src line
  | href => ShowsValue element.tag "href" element.href line
  | inputType => ShowsValue element.tag "type" element.inputType line
  | text =>
    TagOpens element.tag line ∧ 3 ≤ (textStart element).length ∧ textStart element <:+: line
  | literal =>
    HelperStands element.tag line ∧
      ∃ value ∈ [element.id, element.src, element.href], ∃ part ∈ longestLiteral? value, part <:+: line
  | tag => TagOpens element.tag line
  | helper => HelperStands element.tag line

/-- Some line shows the sign, and none of the lines shows a better one. -/
structure IsBest (element : ElementInfo) (lines : List Text) (sign : Sign) : Prop where
  shown : ∃ line ∈ lines, sign.Shows element line
  noBetter : ∃ better weaker, all = better ++ sign :: weaker ∧
    ∀ other ∈ better, ∀ line ∈ lines, ¬other.Shows element line

end Sign

/-- The line of a source that has a number, where the first line has the number one. -/
def IsLine (source : Text) (number : Nat) (line : Text) : Prop :=
  1 ≤ number ∧ (Text.lines source)[number - 1]? = some line

/-! ## Signs and clues -/

/-- The clue that stands for a sign, if the element has what it asks for. -/
def Sign.clue? (element : ElementInfo) : Sign → Option Clue
  | id => (attributeClue "id" element.id).head?
  | src => (attributeClue "src" element.src).head?
  | href => (attributeClue "href" element.href).head?
  | inputType => (attributeClue "type" element.inputType).head?
  | text => if 3 ≤ (textStart element).length then some (.tagWithText (textStart element)) else none
  | literal =>
    let literals := [element.id, element.src, element.href].filterMap longestLiteral?
    if literals.isEmpty then none else some (.helperWithText literals)
  | tag => some .tagOpens
  | helper => some .helperCalled

theorem clues_eq (element : ElementInfo) : clues element = Sign.all.filterMap (Sign.clue? element) := by
  have hvalue : ∀ name value, (attributeClue name value).head?.toList = attributeClue name value := by
    intro name value
    unfold attributeClue
    split <;> rfl
  have hif : ∀ {p : Prop} [Decidable p] {clue : Clue},
      (if p then some clue else none).toList = if p then [clue] else [] := by
    intro p _ clue
    split <;> rfl
  have hunless : ∀ {p : Prop} [Decidable p] {clue : Clue},
      (if p then none else some clue).toList = if p then [] else [clue] := by
    intro p _ clue
    split <;> rfl
  rw [List.filterMap_eq_flatMap_toList]
  simp only [Sign.all, List.flatMap_cons, List.flatMap_nil, Sign.clue?, hvalue, hif, hunless, clues,
    Option.toList_some, List.append_assoc, List.singleton_append]

theorem holds_valueClue {tag name line : Text} {value : Option Text} :
    (∃ clue ∈ (attributeClue name value).head?, clue.holds tag line = true) ↔
      Sign.ShowsValue tag name value line := by
  unfold attributeClue Sign.ShowsValue
  split
  · simp
  · simp
  · rename_i known hne
    have hknown : known ≠ [] := hne
    simp [Clue.holds, opensTag_iff, holdsAttribute_iff, hknown]

theorem shows_iff (sign : Sign) (line : Text) :
    sign.Shows element line ↔ ∃ clue ∈ sign.clue? element, clue.holds element.tag line = true := by
  cases sign with
  | id | src | href | inputType => exact holds_valueClue.symm
  | text =>
    rw [Sign.clue?, Sign.Shows]
    split <;> simp_all [Clue.holds, opensTag_iff, Text.occursIn_iff]
  | literal =>
    have hsome : ∀ literals : List Text,
        (∃ clue ∈ if literals.isEmpty then none else some (Clue.helperWithText literals),
          clue.holds element.tag line = true) ↔
        HelperStands element.tag line ∧ ∃ part ∈ literals, part <:+: line := by
      intro literals
      cases literals <;> simp [Clue.holds, callsHelper_iff, Text.occursIn_iff]
    rw [Sign.clue?, Sign.Shows, hsome]
    simp only [List.mem_filterMap]
    constructor
    · rintro ⟨hhelper, value, hvalue, part, hpart, hline⟩
      exact ⟨hhelper, part, ⟨value, hvalue, hpart⟩, hline⟩
    · rintro ⟨hhelper, part, ⟨value, hvalue, hpart⟩, hline⟩
      exact ⟨hhelper, value, hvalue, part, hpart, hline⟩
  | tag => simp [Sign.clue?, Sign.Shows, Clue.holds, opensTag_iff]
  | helper => simp [Sign.clue?, Sign.Shows, Clue.holds, callsHelper_iff]

/-! ## Lines -/

theorem mem_linesHolding {tag : Text} {clue : Clue} {first : Nat} :
    number ∈ linesHolding tag clue first lines ↔
      ∃ i line, lines[i]? = some line ∧ number = first + i ∧ clue.holds tag line = true := by
  induction lines generalizing first with
  | nil => simp [linesHolding]
  | cons line lines ih =>
    have hplace : (∃ i line', (line :: lines)[i]? = some line' ∧ number = first + i ∧
        clue.holds tag line' = true) ↔ (number = first ∧ clue.holds tag line = true) ∨
          number ∈ linesHolding tag clue (first + 1) lines := by
      rw [ih]
      constructor
      · rintro ⟨_ | i, line', hline, rfl, hholds⟩
        · obtain rfl := Option.some.inj hline
          exact .inl ⟨rfl, hholds⟩
        · exact .inr ⟨i, line', hline, by omega, hholds⟩
      · rintro (⟨rfl, hholds⟩ | ⟨i, line', hline, rfl, hholds⟩)
        · exact ⟨0, line, rfl, rfl, hholds⟩
        · exact ⟨i + 1, line', hline, by omega, hholds⟩
    rw [hplace, linesHolding]
    split
    · rename_i hholds
      simp [hholds]
    · rename_i hholds
      simp [hholds]

theorem mem_linesHolding_source {tag : Text} {clue : Clue} :
    number ∈ linesHolding tag clue 1 (Text.lines source) ↔
      ∃ line, IsLine source number line ∧ clue.holds tag line = true := by
  rw [mem_linesHolding]
  constructor
  · rintro ⟨i, line, hline, rfl, hholds⟩
    exact ⟨line, ⟨by omega, by rwa [Nat.add_sub_cancel_left]⟩, hholds⟩
  · rintro ⟨line, ⟨hpos, hline⟩, hholds⟩
    exact ⟨number - 1, line, hline, by omega, hholds⟩

theorem IsLine.mem {line : Text} (h : IsLine source number line) : line ∈ Text.lines source :=
  List.mem_of_getElem? h.2

theorem IsLine.le_length {line : Text} (h : IsLine source number line) :
    number ≤ (Text.lines source).length := by
  have := (List.getElem?_eq_some_iff.1 h.2).1
  have := h.1
  omega

theorem exists_isLine {line : Text} (h : line ∈ Text.lines source) : ∃ number, IsLine source number line := by
  obtain ⟨i, hi⟩ := List.mem_iff_getElem?.1 h
  exact ⟨i + 1, by omega, by rwa [Nat.add_sub_cancel]⟩

/-- The numbers of the lines that show a sign. -/
def Sign.linesIn (source : Text) (element : ElementInfo) (sign : Sign) : List Nat :=
  ((sign.clue? element).map fun clue => linesHolding element.tag clue 1 (Text.lines source)).getD []

theorem Sign.mem_linesIn {sign : Sign} : number ∈ sign.linesIn source element ↔
    ∃ line, IsLine source number line ∧ sign.Shows element line := by
  simp only [shows_iff]
  rw [Sign.linesIn]
  cases sign.clue? element with
  | none => simp
  | some clue => simp [mem_linesHolding_source]

theorem Sign.linesIn_ne_nil_iff {sign : Sign} : sign.linesIn source element ≠ [] ↔
    ∃ line ∈ Text.lines source, sign.Shows element line := by
  constructor
  · intro hlines
    obtain ⟨number, hnumber⟩ := List.exists_mem_of_ne_nil _ hlines
    obtain ⟨line, hline, hshows⟩ := Sign.mem_linesIn.1 hnumber
    exact ⟨line, hline.mem, hshows⟩
  · rintro ⟨line, hline, hshows⟩
    obtain ⟨number, hnumber⟩ := exists_isLine hline
    exact List.ne_nil_of_mem (Sign.mem_linesIn.2 ⟨line, hnumber, hshows⟩)

/-! ## The best sign -/

/-- The best sign that some line of a source shows. -/
def bestSign? (source : Text) (element : ElementInfo) : Option Sign :=
  Sign.all.find? fun sign => !(sign.linesIn source element).isEmpty

theorem bestSign?_eq_some_iff {sign : Sign} :
    bestSign? source element = some sign ↔ sign.IsBest element (Text.lines source) := by
  have hlines : ∀ other : Sign, (!(other.linesIn source element).isEmpty) = true ↔
      ∃ line ∈ Text.lines source, other.Shows element line := by
    intro other
    rw [← Sign.linesIn_ne_nil_iff, Bool.not_eq_true', List.isEmpty_eq_false_iff]
  have hnone : ∀ other : Sign, (!!(other.linesIn source element).isEmpty) = true ↔
      ∀ line ∈ Text.lines source, ¬other.Shows element line := by
    intro other
    rw [Bool.not_eq_true', ← Bool.not_eq_true, hlines]
    simp only [not_exists, not_and]
  rw [bestSign?, List.find?_eq_some_iff_append, hlines]
  simp only [hnone]
  exact ⟨fun ⟨hshown, hbetter⟩ => ⟨hshown, hbetter⟩, fun h => ⟨h.shown, h.noBetter⟩⟩

theorem bestSign?_eq_none_iff : bestSign? source element = none ↔
    ∀ sign : Sign, ∀ line ∈ Text.lines source, ¬sign.Shows element line := by
  have hall : ∀ sign : Sign, sign ∈ Sign.all := by
    rintro (_ | _) <;> decide
  rw [bestSign?, List.find?_eq_none]
  refine forall_congr' fun sign => ?_
  have hlines : sign.linesIn source element ≠ [] ↔ ∃ line ∈ Text.lines source, sign.Shows element line :=
    Sign.linesIn_ne_nil_iff
  simp only [hall, true_implies, Bool.not_eq_true', Bool.not_eq_false, List.isEmpty_iff]
  rw [← not_iff_not]
  simpa using hlines

/-- An element may stand at the lines that show the best sign. -/
theorem candidateLines_eq (htag : element.tag ≠ []) (hpage : element.tag ≠ "page".toList) :
    candidateLines source element =
      ((bestSign? source element).map (Sign.linesIn source element)).getD [] := by
  have hany : ∀ sign : Sign,
      ((sign.clue? element).any fun clue =>
        !(linesHolding element.tag clue 1 (Text.lines source)).isEmpty) =
      !(sign.linesIn source element).isEmpty := by
    intro sign
    rw [Sign.linesIn]
    cases sign.clue? element <;> rfl
  rw [candidateLines, if_neg (not_or.2 ⟨htag, hpage⟩), clues_eq, bestSign?]
  simp only [List.find?_map, List.find?_filterMap, Function.comp_def, hany]
  cases Sign.all.find? fun sign => !(sign.linesIn source element).isEmpty <;> rfl

/-- **An element may stand at exactly the lines that show the best sign that any line shows.** -/
theorem mem_candidateLines : number ∈ candidateLines source element ↔
    element.tag ≠ [] ∧ element.tag ≠ "page".toList ∧ ∃ sign, Sign.IsBest element (Text.lines source) sign ∧
      ∃ line, IsLine source number line ∧ sign.Shows element line := by
  by_cases hnamed : element.tag = [] ∨ element.tag = "page".toList
  · rw [candidateLines, if_pos hnamed]
    simp only [List.not_mem_nil, false_iff]
    rintro ⟨htag, hpage, -⟩
    exact hnamed.elim htag hpage
  · obtain ⟨htag, hpage⟩ := not_or.1 hnamed
    rw [candidateLines_eq htag hpage]
    simp only [ne_eq, htag, hpage, not_false_eq_true, true_and, ← bestSign?_eq_some_iff, ← Sign.mem_linesIn]
    cases bestSign? source element <;> simp

theorem Sign.Shows.stands {sign : Sign} {line : Text} (h : sign.Shows element line) :
    TagOpens element.tag line ∨ HelperStands element.tag line := by
  cases sign with
  | id | src | href | inputType | text => exact .inl h.1
  | literal => exact .inr h.1
  | tag => exact .inl h
  | helper => exact .inr h

theorem exists_shows_iff {line : Text} : (∃ sign : Sign, sign.Shows element line) ↔
    TagOpens element.tag line ∨ HelperStands element.tag line :=
  ⟨fun ⟨_, hshows⟩ => hshows.stands, fun h => h.elim (⟨.tag, ·⟩) (⟨.helper, ·⟩)⟩

theorem candidateLines_eq_nil_iff : candidateLines source element = [] ↔
    element.tag = [] ∨ element.tag = "page".toList ∨
      ∀ line ∈ Text.lines source, ¬(TagOpens element.tag line ∨ HelperStands element.tag line) := by
  by_cases hnamed : element.tag = [] ∨ element.tag = "page".toList
  · rw [candidateLines, if_pos hnamed]
    tauto
  · obtain ⟨htag, hpage⟩ := not_or.1 hnamed
    have hnone : bestSign? source element = none ↔
        ∀ line ∈ Text.lines source, ¬(TagOpens element.tag line ∨ HelperStands element.tag line) := by
      simp only [bestSign?_eq_none_iff, ← exists_shows_iff, not_exists]
      exact ⟨fun h line hline sign => h sign line hline, fun h sign line hline => h line hline sign⟩
    rw [candidateLines_eq htag hpage, ← hnone]
    simp only [htag, hpage, false_or]
    cases hbest : bestSign? source element with
    | none => simp
    | some sign =>
      have hshown := Sign.linesIn_ne_nil_iff.2 (bestSign?_eq_some_iff.1 hbest).shown
      simpa using hshown

/-! ## The line of an element -/

section nearest
variable {α : Type} {items : List α} {item : α}

theorem nearest?_eq_none_iff (index : Int) (items : List α) : nearest? index items = none ↔ items = [] := by
  rw [nearest?, List.getElem?_eq_none_iff, ← List.length_eq_zero_iff]
  omega

theorem exists_nearest?_eq_some_iff : (∃ index, nearest? index items = some item) ↔ item ∈ items := by
  constructor
  · rintro ⟨index, hindex⟩
    exact List.mem_of_getElem? hindex
  · intro hitem
    obtain ⟨i, hi, rfl⟩ := List.mem_iff_getElem.1 hitem
    refine ⟨i, ?_⟩
    rw [nearest?, Int.toNat_natCast, Nat.min_eq_left (by omega), List.getElem?_eq_getElem hi]

/-- In an ascending list, a larger index leads to no smaller item. -/
theorem nearest?_mono {items : List Nat} (hitems : items.Pairwise (· < ·)) {m n : Int} (hmn : m ≤ n)
    {k l : Nat} (hk : nearest? m items = some k) (hl : nearest? n items = some l) : k ≤ l := by
  obtain ⟨hi, rfl⟩ := List.getElem?_eq_some_iff.1 hk
  obtain ⟨hj, rfl⟩ := List.getElem?_eq_some_iff.1 hl
  have hle : min m.toNat (items.length - 1) ≤ min n.toNat (items.length - 1) := by omega
  rcases Nat.lt_or_eq_of_le hle with hlt | heq
  · exact Nat.le_of_lt (List.pairwise_iff_getElem.1 hitems _ _ hi hj hlt)
  · simp only [heq, Nat.le_refl]

end nearest

/-- An element of which some line shows a sign, and none a better one, is given a line that shows it. -/
theorem exists_findLine?_of_isBest {sign : Sign} (htag : element.tag ≠ []) (hpage : element.tag ≠ "page".toList)
    (hbest : sign.IsBest element (Text.lines source)) (n : Int) :
    ∃ k line, findLine? source element n = some k ∧ IsLine source k line ∧ sign.Shows element line := by
  have hbest' := bestSign?_eq_some_iff.2 hbest
  have hlines : candidateLines source element = sign.linesIn source element := by
    rw [candidateLines_eq htag hpage, hbest']
    rfl
  cases hfound : findLine? source element n with
  | none =>
    rw [findLine?, nearest?_eq_none_iff, hlines] at hfound
    exact absurd hfound (Sign.linesIn_ne_nil_iff.2 hbest.shown)
  | some k =>
    have hk : k ∈ candidateLines source element := exists_nearest?_eq_some_iff.1 ⟨n, hfound⟩
    obtain ⟨line, hline, hshows⟩ := Sign.mem_linesIn.1 (hlines ▸ hk)
    exact ⟨k, line, rfl, hline, hshows⟩

/-- The first occurrence stands at no line behind one that shows the best sign. -/
theorem findLine?_zero_le {k : Nat} (h : k ∈ candidateLines source element) :
    ∃ first, findLine? source element 0 = some first ∧ first ≤ k := by
  have hsorted := pairwise_candidateLines source element
  rw [findLine?, nearest?]
  cases hlines : candidateLines source element with
  | nil => rw [hlines] at h; cases h
  | cons first lines =>
    rw [hlines] at h hsorted
    refine ⟨first, by simp, ?_⟩
    rcases List.mem_cons.1 h with rfl | hmem
    · exact Nat.le_refl _
    · exact Nat.le_of_lt ((List.pairwise_cons.1 hsorted).1 k hmem)

/-- **The line of an element.**  An element has no line just when it has no tag, is a page as a whole, or no
line shows its tag or the call of a helper that writes it; otherwise its line shows one of these.  The lines
that some number of elements in front leads to are exactly those that show the best sign, and a larger number
never leads to an earlier line. -/
theorem findLine?_by_signs (source : Text) (element : ElementInfo) :
    (∀ n : Int, findLine? source element n = none ↔
      element.tag = [] ∨ element.tag = "page".toList ∨
        ∀ line ∈ Text.lines source, ¬(TagOpens element.tag line ∨ HelperStands element.tag line)) ∧
    (∀ (n : Int) (k : Nat), findLine? source element n = some k →
      k ≤ (Text.lines source).length ∧ ∃ line, IsLine source k line ∧
        (TagOpens element.tag line ∨ HelperStands element.tag line)) ∧
    (∀ k : Nat, (∃ n : Int, findLine? source element n = some k) ↔
      element.tag ≠ [] ∧ element.tag ≠ "page".toList ∧
        ∃ sign : Sign, sign.IsBest element (Text.lines source) ∧
          ∃ line, IsLine source k line ∧ sign.Shows element line) ∧
    (∀ m n : Int, m ≤ n → ∀ k l : Nat, findLine? source element m = some k →
      findLine? source element n = some l → k ≤ l) := by
  have hreached : ∀ k : Nat, (∃ n : Int, findLine? source element n = some k) ↔
      k ∈ candidateLines source element := fun k => exists_nearest?_eq_some_iff
  refine ⟨fun n => ?_, fun n k hk => ?_, fun k => ?_, fun m n hmn k l hk hl => ?_⟩
  · rw [findLine?, nearest?_eq_none_iff, candidateLines_eq_nil_iff]
  · obtain ⟨-, -, sign, -, line, hline, hshows⟩ := mem_candidateLines.1 ((hreached k).1 ⟨n, hk⟩)
    exact ⟨hline.le_length, line, hline, hshows.stands⟩
  · rw [hreached, mem_candidateLines]
  · exact nearest?_mono (pairwise_candidateLines source element) hmn hk hl

end Locate

end TemplateAudit
