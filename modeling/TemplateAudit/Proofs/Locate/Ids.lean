import TemplateAudit.Proofs.Locate.Interpolated
import TemplateAudit.Proofs.Locate.Rows
import TemplateAudit.Proofs.Page.Ids

/-!
# The lines of repeated ids

In a template with one element on each line, an element whose id has been met before is reported with the
number of elements with this id in front of it, whatever their tags.  Its line, however, is looked for
among the lines that show its tag and its id, where the case of letters makes no difference.  So it is given its
own line just when the two numbers lead to the same of these lines (`locate_examine_rows`).
-/

namespace TemplateAudit

namespace Locate

open Html (idTag endTag)

variable {tag : Text} {clue : Clue} {first : Nat} {lines : List Text} {row other : Row} {rows front : List Row}
  {source : Text} {element : ElementInfo}

/-! ## Lines that look alike -/

theorem length_linesHolding (tag : Text) (clue : Clue) (first : Nat) (lines : List Text) :
    (linesHolding tag clue first lines).length = lines.countP (clue.holds tag) := by
  induction lines generalizing first with
  | nil => rfl
  | cons line lines ih =>
    rw [linesHolding, List.countP_cons]
    split
    · rw [List.length_cons, ih]
    · rw [ih, Nat.add_zero]

/-- A line that bears out a clue comes behind those in front of it that do. -/
theorem getElem?_linesHolding {line : Text} (hline : clue.holds tag line = true) (before after : List Text)
    (first : Nat) :
    (linesHolding tag clue first (before ++ line :: after))[before.countP (clue.holds tag)]? =
      some (first + before.length) := by
  induction before generalizing first with
  | nil => rw [List.nil_append, linesHolding, if_pos hline]; rfl
  | cons other before ih =>
    rw [List.cons_append, linesHolding, List.length_cons, Nat.add_comm before.length, ← Nat.add_assoc]
    by_cases hother : clue.holds tag other = true
    · rw [if_pos hother, List.countP_cons_of_pos hother, List.getElem?_cons_succ, ih]
    · rw [if_neg hother, List.countP_cons_of_neg hother, ih]

/-- The literal characters of a text are followed by a text that differs from it in case only. -/
theorem follows_literal_iff {s t : Text} : Follows (s.map .literal) t ↔ Text.SameButCase s t := by
  induction s generalizing t with
  | nil =>
    constructor
    · rintro ⟨⟩
      exact .nil
    · rintro ⟨⟩
      exact .nil
  | cons c s ih =>
    constructor
    · rintro ⟨⟩
      rename_i hsame hrest
      exact .cons hsame (ih.1 hrest)
    · rintro ⟨⟩
      rename_i hsame hrest
      exact .literal hsame (ih.2 hrest)

/-- Names in ASCII are the same but for case when they have one small form. -/
theorem sameButCase_iff_map_toLower {s t : Text} (hs : ∀ c ∈ s, c.toNat < 128) (ht : ∀ c ∈ t, c.toNat < 128) :
    Text.SameButCase s t ↔ s.map Char.toLower = t.map Char.toLower := by
  induction s generalizing t with
  | nil => cases t <;> simp [Text.SameButCase]
  | cons c s ih =>
    obtain ⟨hc, hs⟩ := List.forall_mem_cons.1 hs
    cases t with
    | nil => simp [Text.SameButCase]
    | cons d t =>
      obtain ⟨hd, ht⟩ := List.forall_mem_cons.1 ht
      rw [Text.SameButCase, List.forall₂_cons, ← Text.SameButCase, ih hs ht, Text.sameButCase_iff_of_ascii hc hd,
        List.map_cons, List.map_cons, List.cons.injEq]

theorem isEndNameChar_toLower {c : Char} (hc : c.toNat < 128) :
    Html.isEndNameChar c.toLower = Html.isEndNameChar c :=
  Text.of_ascii (p := fun c => Html.isEndNameChar c.toLower = Html.isEndNameChar c) (by decide +kernel) hc

theorem ascii_of_isEndNameChar {s : Text} (h : ∀ c ∈ s, Html.isEndNameChar c = true) :
    ∀ c ∈ s, c.toNat < 128 := fun c hc => by
  have := Html.toNat_of_isEndNameChar (h c hc)
  omega

/-- What differs from a name in case only has the characters of a name too. -/
theorem isEndNameChar_of_sameButCase {s t : Text} (hs : ∀ c ∈ s, Html.isEndNameChar c = true)
    (ht : ∀ c ∈ t, c.toNat < 128) (h : Text.SameButCase s t) : ∀ c ∈ t, Html.isEndNameChar c = true := by
  have hascii := ascii_of_isEndNameChar hs
  have hlower := (sameButCase_iff_map_toLower hascii ht).1 h
  intro d hd
  obtain ⟨c, hc, hcase⟩ := List.mem_map.1 (hlower ▸ List.mem_map_of_mem (f := Char.toLower) hd)
  rw [← isEndNameChar_toLower (ht d hd), ← hcase, isEndNameChar_toLower (hascii c hc), hs c hc]

/-- No character of a name ends a name or a value. -/
theorem isEndNameChar_of_ends {c : Char} (h : c = '>' ∨ c = '/' ∨ Text.isBlank c = true) :
    Html.isEndNameChar c = false := by
  obtain rfl | rfl | hblank := h
  · rfl
  · rfl
  · refine Bool.eq_false_iff.2 fun hchar => ?_
    rw [Html.isBlank_of_isEndNameChar hchar] at hblank
    cases hblank

namespace Row

/-- Two rows look alike: they have one tag, and ids that are the same but for case. -/
def Alike (row other : Row) : Prop :=
  row.tag = other.tag ∧ row.id.map Char.toLower = other.id.map Char.toLower

instance (row other : Row) : Decidable (row.Alike other) :=
  inferInstanceAs (Decidable (_ ∧ _))

theorem isEndNameChar_id (row : Row) : ∀ c ∈ row.id, Html.isEndNameChar c = true := fun c hc =>
  isEndNameChar_of_isRowIdChar (row.isRowIdChar c hc)

theorem isEndNameChar_tag (row : Row) : ∀ c ∈ row.tag, Html.isEndNameChar c = true := fun c hc =>
  (row.isTagName.all c hc).1

theorem ascii_text (row : Row) : ∀ c ∈ row.text, c.toNat < 128 := by
  intro c hc
  by_contra hbeyond
  have hmarks : ∀ d ∈ ("</ id=\">" : Text), d.toNat < 128 := by simp
  refine row.not_mem_text (Bool.eq_false_iff.2 fun hchar => ?_) (fun hmem => hbeyond (hmarks c hmem)) hc
  have := Html.toNat_of_isEndNameChar hchar
  omega

/-- What stands behind the first `<` of a row opens its tag, and behind the second one stands no letter. -/
theorem tag_eq_of_tagOpens (h : TagOpens row.tag other.text) : row.tag = other.tag := by
  obtain ⟨before, name, after, heq, hsame, hends⟩ := h
  have hascii : ∀ c ∈ name, c.toNat < 128 := fun c hc => other.ascii_text c (by rw [heq]; simp [hc])
  have hchars := isEndNameChar_of_sameButCase row.isEndNameChar_tag hascii hsame
  have hstop : ∀ c ∈ after.head?, Html.isEndNameChar c = false := fun c hc =>
    isEndNameChar_of_ends (hends c hc)
  have hshape : other.text = '<' :: (other.tag ++ ' ' :: ("id=\"" ++ (other.id ++ "\">")) ++
      '<' :: ('/' :: (other.tag ++ ['>']))) := by
    simp [text, idTag, endTag]
  rw [hshape] at heq
  cases before with
  | nil =>
    rw [List.nil_append, List.cons.injEq, List.append_assoc] at heq
    obtain ⟨rfl, -⟩ := Text.append_eq_append_of_stop other.isEndNameChar_tag hchars
      (Text.forall_mem_of_eq_some rfl rfl) hstop heq.2
    have hlower := (sameButCase_iff_map_toLower (ascii_of_isEndNameChar row.isEndNameChar_tag) hascii).1 hsame
    rwa [row.isTagName.map_toLower, other.isTagName.map_toLower] at hlower
  | cons c before =>
    rw [List.cons_append, List.cons.injEq] at heq
    have htag := other.isTagName.not_mem (d := '<') (by decide)
    have hid := other.not_mem_id (d := '<') (by decide)
    obtain ⟨-, hbehind⟩ := Text.eq_of_append_mark (by simp [htag, hid]) (by simp [htag]) heq.2
    obtain ⟨d, more, htag', -⟩ := row.isTagName.exists_cons
    rw [htag'] at hsame
    cases hsame with
    | cons _ _ =>
      have hslash := hchars _ List.mem_cons_self
      rw [(List.cons.inj hbehind).1] at hslash
      cases hslash

/-- A row opens its own tag only. -/
theorem tagOpens_text_iff (row other : Row) : TagOpens row.tag other.text ↔ row.tag = other.tag := by
  refine ⟨tag_eq_of_tagOpens, fun heq => ?_⟩
  have hopens := tagOpens_idTag row.tag other.id [] (endTag other.tag)
  rw [heq] at hopens ⊢
  exact hopens

theorem pattern_id (row : Row) : pattern row.id = row.id.map .literal := by
  rw [pattern, literalParts, Text.splitOn_of_not_infix row.known, patternOfParts]

/-- What stands behind the equals sign of a row, in its double quotes, is its id. -/
theorem sameButCase_of_attributeStands (h : AttributeStands "id" row.id other.text) :
    Text.SameButCase row.id other.id := by
  obtain ⟨before, name, space, opening, value, after, heq, -, -, -, hopening, hfollows, hends⟩ := h
  rw [pattern_id, follows_literal_iff] at hfollows
  have hvalue : ∀ c ∈ value, c.toNat < 128 := fun c hc => other.ascii_text c (by rw [heq]; simp [hc])
  have hchars := isEndNameChar_of_sameButCase row.isEndNameChar_id hvalue hfollows
  have hstop : ∀ c ∈ after.head?, Html.isEndNameChar c = false := fun c hc => by
    obtain rfl | rfl | hend | hend | hend := hends c hc
    · rfl
    · rfl
    · exact isEndNameChar_of_ends (.inr (.inl hend))
    · exact isEndNameChar_of_ends (.inl hend)
    · exact isEndNameChar_of_ends (.inr (.inr hend))
  have hshape : other.text = ('<' :: (other.tag ++ " id")) ++ '=' :: ('"' :: (other.id ++ '"' ::
      ('>' :: endTag other.tag))) := by
    simp [text, idTag]
  have htag := other.isTagName.not_mem (d := '=') (by decide)
  have hid := other.not_mem_id (d := '=') (by decide)
  rw [hshape, ← List.append_assoc name, ← List.append_assoc before] at heq
  obtain ⟨-, hbehind⟩ := Text.eq_of_append_mark (by simp [htag]) (by simp [endTag, htag, hid]) heq
  obtain ⟨blanks, quote, rfl, hblanks, hquote⟩ := hopening
  cases blanks with
  | cons c blanks =>
    have hblank := hblanks c List.mem_cons_self
    rw [(List.cons.inj hbehind).1] at hblank
    cases hblank
  | nil =>
    obtain rfl | rfl | rfl := hquote
    · -- the id would begin with the quote
      obtain ⟨c, id, hcons⟩ := List.exists_cons_of_ne_nil row.id_ne_nil
      rw [hcons] at hfollows
      cases hfollows with
      | cons _ _ =>
        have hfirst := hchars _ List.mem_cons_self
        rw [(List.cons.inj hbehind).1] at hfirst
        cases hfirst
    · have hinside := (List.cons.inj hbehind).2
      obtain ⟨rfl, -⟩ := Text.append_eq_append_of_stop hchars other.isEndNameChar_id hstop
        (Text.forall_mem_of_eq_some rfl rfl) hinside
      exact hfollows
    · cases (List.cons.inj hbehind).1

/-- A row shows the ids that are its own but for case. -/
theorem attributeStands_text_iff (row other : Row) : AttributeStands "id" row.id other.text ↔
    row.id.map Char.toLower = other.id.map Char.toLower := by
  rw [← sameButCase_iff_map_toLower (ascii_of_isEndNameChar row.isEndNameChar_id)
    (ascii_of_isEndNameChar other.isEndNameChar_id)]
  refine ⟨sameButCase_of_attributeStands, fun hsame => ?_⟩
  have hfollows : Follows (pattern row.id) other.id := by rwa [pattern_id, follows_literal_iff]
  exact attributeStands_idTag hfollows other.tag [] (endTag other.tag)

theorem holds_text (row other : Row) :
    Clue.holds row.tag (.tagWithAttribute "id" row.id) other.text = decide (row.Alike other) := by
  rw [Bool.eq_iff_iff, Clue.holds, Bool.and_eq_true, opensTag_iff, holdsAttribute_iff, tagOpens_text_iff,
    attributeStands_text_iff, decide_eq_true_iff, Alike]

end Row

/-! ## The line of a row -/

/-- Behind a newline at the end no tag opens. -/
theorem countP_ending {ending : List Text} (h : ending = [] ∨ ending = [[]]) (row : Row) :
    ending.countP (Clue.holds row.tag (.tagWithAttribute "id" row.id)) = 0 := by
  obtain rfl | rfl := h <;> rfl

/-- The element of a row stands at the lines that show its tag and its id. -/
theorem candidateLines_row (h : OnePerLine rows source) (hrow : row ∈ rows) (htag : element.tag = row.tag)
    (hid : element.id = some row.id) :
    candidateLines source element =
      linesHolding row.tag (.tagWithAttribute "id" row.id) 1 (Text.lines source) := by
  obtain ⟨ending, -, hlines⟩ := h.lines_eq
  have hshown : Sign.id.Shows element row.text := by
    refine ⟨htag ▸ (row.tagOpens_text_iff row).2 rfl, row.id, hid, row.id_ne_nil, ?_⟩
    exact (row.attributeStands_text_iff row).2 rfl
  have hmem : row.text ∈ Text.lines source := by
    rw [hlines]
    exact List.mem_append_left _ (List.mem_map_of_mem hrow)
  have hbest : Sign.id.IsBest element (Text.lines source) :=
    ⟨⟨_, hmem, hshown⟩, [], _, rfl, List.forall_mem_nil _⟩
  have hnamed : element.tag ≠ [] := by
    obtain ⟨c, more, hcons, -⟩ := row.isTagName.exists_cons
    rw [htag, hcons]
    exact List.cons_ne_nil c more
  have hclue : Sign.id.clue? element = some (.tagWithAttribute "id" row.id) := by
    obtain ⟨c, more, hcons⟩ := List.exists_cons_of_ne_nil row.id_ne_nil
    rw [Sign.clue?, hid, hcons]
    rfl
  rw [candidateLines_eq hnamed (htag ▸ row.not_page), bestSign?_eq_some_iff.2 hbest, Option.map_some,
    Option.getD_some, Sign.linesIn, hclue, Option.map_some, Option.getD_some, htag]

/-- Where there are more than `n` things of a kind, one of them has `n` in front of it. -/
theorem exists_split_of_lt_countP {α : Type} {p : α → Bool} {things : List α} {n : Nat}
    (h : n < things.countP p) :
    ∃ before a after, things = before ++ a :: after ∧ p a = true ∧ before.countP p = n := by
  induction things generalizing n with
  | nil => cases h
  | cons b things ih =>
    by_cases hb : p b = true
    · cases n with
      | zero => exact ⟨[], b, things, rfl, hb, rfl⟩
      | succ n =>
        rw [List.countP_cons_of_pos hb, Nat.succ_lt_succ_iff] at h
        obtain ⟨before, a, after, rfl, ha, hcount⟩ := ih h
        exact ⟨b :: before, a, after, rfl, ha, by rw [List.countP_cons_of_pos hb, hcount]⟩
    · rw [List.countP_cons_of_neg hb] at h
      obtain ⟨before, a, after, rfl, ha, hcount⟩ := ih h
      exact ⟨b :: before, a, after, rfl, ha, by rw [List.countP_cons_of_neg hb, hcount]⟩

theorem countP_map_text (row : Row) (rows : List Row) :
    (rows.map Row.text).countP (Clue.holds row.tag (.tagWithAttribute "id" row.id)) =
      rows.countP fun other => row.Alike other := by
  rw [List.countP_map]
  exact List.countP_congr fun other _ => by rw [Function.comp_apply, row.holds_text]

/-- Among the candidates for a row the line of another that looks like it has as many in front as the other row
has rows in front that look like it. -/
theorem getElem?_candidateLines_row (h : OnePerLine rows source) (hrow : row ∈ rows)
    (htag : element.tag = row.tag) (hid : element.id = some row.id) (hfront : front ++ [other] <+: rows)
    (halike : row.Alike other) :
    (candidateLines source element)[front.countP fun other => row.Alike other]? = some (front.length + 1) := by
  obtain ⟨behind, rfl⟩ := hfront
  obtain ⟨ending, -, hlines⟩ := h.lines_eq
  have hholds : Clue.holds row.tag (.tagWithAttribute "id" row.id) other.text = true := by
    rw [row.holds_text]
    exact decide_eq_true halike
  have hplace := getElem?_linesHolding hholds (front.map Row.text) (behind.map Row.text ++ ending) 1
  rw [countP_map_text, List.length_map, Nat.add_comm 1] at hplace
  rw [candidateLines_row h hrow htag hid, hlines, ← hplace]
  simp

/-- **An element of a row with a number is given the line of that row, of those which look like its own, that has
this number, or of the last one.**  So it is given its own line just when its own row has this number among
them. -/
theorem exists_findLine?_row (h : OnePerLine rows source) (hfront : front ++ [row] <+: rows)
    (element : ElementInfo) (htag : element.tag = row.tag) (hid : element.id = some row.id) (n : Nat) :
    ∃ before other, before ++ [other] <+: rows ∧ row.Alike other ∧
      before.countP (fun other => row.Alike other) = min n (rows.countP (fun other => row.Alike other) - 1) ∧
      findLine? source element n = some (before.length + 1) ∧
      (before.length = front.length ↔
        min n (rows.countP (fun other => row.Alike other) - 1) = front.countP fun other => row.Alike other) := by
  have hrow : row ∈ rows := hfront.subset (List.mem_append_right _ (List.mem_singleton_self row))
  have halike : row.Alike row := ⟨rfl, rfl⟩
  have hpos : 0 < rows.countP fun other => row.Alike other :=
    List.countP_pos_iff.2 ⟨row, hrow, decide_eq_true halike⟩
  have hlength : (candidateLines source element).length = rows.countP fun other => row.Alike other := by
    obtain ⟨ending, hending, hlines⟩ := h.lines_eq
    rw [candidateLines_row h hrow htag hid, length_linesHolding, hlines, List.countP_append, countP_map_text,
      countP_ending hending, Nat.add_zero]
  have hwithin : min n (rows.countP (fun other => row.Alike other) - 1) <
      rows.countP fun other => row.Alike other := by omega
  obtain ⟨before, other, after, hsplit, hother, hcount⟩ := exists_split_of_lt_countP hwithin
  have hbefore : before ++ [other] <+: rows := ⟨after, by rw [hsplit]; simp⟩
  have hplace := getElem?_candidateLines_row h hrow htag hid hbefore (of_decide_eq_true hother)
  have hown := getElem?_candidateLines_row h hrow htag hid hfront halike
  refine ⟨before, other, hbefore, of_decide_eq_true hother, hcount, ?_, ?_⟩
  · rw [findLine?, nearest?, Int.toNat_natCast, hlength, ← hcount, hplace]
  · constructor
    · intro heq
      have hsame := List.prefix_of_prefix_length_le ((List.prefix_append _ _).trans hbefore)
        ((List.prefix_append _ _).trans hfront) (Nat.le_of_eq heq)
      rw [← hcount, hsame.eq_of_length heq]
    · intro heq
      rw [hcount, heq, hown, Option.some_inj] at hplace
      omega

/-! ## The findings -/

/-- An entry of a document is that of a row. -/
def IsEntryOf (row : Row) (entry : Html.Place × Text) : Prop :=
  entry.1.tag = row.tag ∧ entry.1.attr? "id" = some row.id ∧ entry.2 = row.id

theorem Row.comparable?_eq (row : Row) {place : Html.Place} (h : place.attr? "id" = some row.id) :
    Rule.DuplicateIds.comparable? place = some row.id := by
  refine Page.comparable?_eq_some.2 ⟨h, ?_, Bool.eq_false_iff.2 (mt Text.occursIn_iff.1 row.known)⟩
  obtain ⟨c, id, hcons⟩ := List.exists_cons_of_ne_nil row.id_ne_nil
  have hblank := Html.isBlank_of_isEndNameChar (row.isEndNameChar_id c (hcons ▸ List.mem_cons_self))
  rw [hcons, Text.saysNothing, List.all_cons, hblank, Bool.false_and]

/-- The places of a document of rows are those of the rows. -/
theorem Lists.places {nodes : List Html.Node} (h : Lists rows nodes) (before : List Html.Node) :
    List.Forall₂ (fun row place => place.tag = row.tag ∧ place.attr? "id" = some row.id) rows
      (Html.placesInAll [] before nodes) := by
  induction h generalizing before with
  | nil => exact .nil
  | row row rest ih => exact .cons ⟨rfl, rfl⟩ (ih (row.node :: before))
  | newline rest ih => exact ih _

/-- The ids of elements that are those of rows can all be compared. -/
theorem forall₂_isEntryOf {places : List Html.Place}
    (h : List.Forall₂ (fun row place => place.tag = row.tag ∧ place.attr? "id" = some row.id) rows places) :
    List.Forall₂ IsEntryOf rows
      ((places.filter Rule.DuplicateIds.withId.matchesAt).filterMap fun place =>
        (Rule.DuplicateIds.comparable? place).map (place, ·)) := by
  induction h with
  | nil => exact .nil
  | @cons row place rows places hplace _ ih =>
    have hid : (place.attr? "id".toList).isSome = true := by rw [hplace.2]; rfl
    have hmatches : Rule.DuplicateIds.withId.matchesAt place = true := by
      simpa [Css.Selector.matchesAt, Rule.DuplicateIds.withId, Css.withAttr, Css.Pattern.matchesAt,
        Css.Condition.holds] using hid
    rw [List.filter_cons_of_pos hmatches,
      List.filterMap_cons_some (by rw [row.comparable?_eq hplace.2, Option.map_some])]
    exact .cons ⟨hplace.1, hplace.2, rfl⟩ ih

theorem Lists.comparableIds {document : Html.Document} (h : Lists rows document) :
    List.Forall₂ IsEntryOf rows (Rule.DuplicateIds.comparableIds document) :=
  forall₂_isEntryOf (h.places [])

/-- Rows and their entries have the same ids. -/
theorem countP_entries {entries : List (Html.Place × Text)} (h : List.Forall₂ IsEntryOf rows entries)
    (id : Text) :
    (entries.countP fun entry => entry.2 = id) = rows.countP fun row => row.id = id := by
  induction h with
  | nil => rfl
  | cons hentry _ ih => rw [List.countP_cons, List.countP_cons, ih, hentry.2.2]

/-- **What the rule on repeated ids says about a template of rows.**  The rows whose id has been met before are
reported, in order.  Each is given the line of a row that looks like it: the one that has as many of them in front
as there are rows in front with the id of the reported row, or the last one.  So a row is given its own line
just when this number leads to it. -/
theorem locate_examine_rows (h : OnePerLine rows source) (file : Option Text) (origin : Rule.Origin) :
    ∃ document located, Html.parse (Template.toMarkup source) = .ok document ∧
      locate source file (Rule.DuplicateIds.examine document origin) = .ok located ∧
      List.Forall₂ (fun entry finding =>
          finding.element.tag = entry.2.tag ∧ finding.element.id = some entry.2.id ∧
          ∃ before other, before ++ [other] <+: rows ∧ entry.2.Alike other ∧
            before.countP (fun other => entry.2.Alike other) =
              min (entry.1.countP fun other => other.id = entry.2.id)
                (rows.countP (fun other => entry.2.Alike other) - 1) ∧
            finding.line = some (before.length + 1 : Int) ∧
            (before.length = entry.1.length ↔
              min (entry.1.countP fun other => other.id = entry.2.id)
                (rows.countP (fun other => entry.2.Alike other) - 1) =
                  entry.1.countP fun other => entry.2.Alike other))
        ((Pairs.withFront rows).filter fun entry => entry.1.any fun other => other.id = entry.2.id) located := by
  obtain ⟨document, hparse, hlists⟩ := h.exists_document
  refine ⟨document, _, hparse, Page.locate_examine source file document origin, ?_⟩
  have hentries := List.forall₂_and_left _ _ |>.2
    ⟨fun entry hentry => Pairs.prefix_of_mem_withFront hentry, Pairs.forall₂_withFront hlists.comparableIds⟩
  rw [Pairs.numbered_eq, List.filter_map, List.map_map, List.forall₂_map_right_iff]
  refine (List.rel_filter ?_ hentries).imp ?_
  · rintro ⟨front, row⟩ ⟨front', entry⟩ ⟨-, hfront, hentry⟩
    have hcount : (front'.countP fun b => b.2 = entry.2) = front.countP fun other => other.id = row.id := by
      rw [countP_entries hfront, hentry.2.2]
    simp only [Function.comp_apply, hcount, ne_eq, decide_not, Bool.not_eq_true', decide_eq_false_iff_not,
      List.countP_eq_zero, not_forall, List.any_eq_true, decide_eq_true_eq, exists_prop, not_not]
  · rintro ⟨front, row⟩ ⟨front', entry⟩ ⟨hstands, hfront, hentry⟩
    have hcount : (front'.countP fun b => b.2 = entry.2) = front.countP fun other => other.id = row.id := by
      rw [countP_entries hfront, hentry.2.2]
    obtain ⟨before, other, hbefore, halike, hnumber, hline, hown⟩ := exists_findLine?_row h hstands
      (Page.documentFinding document origin (entry, front'.countP fun b => b.2 = entry.2)).element
      hentry.1 hentry.2.1 (front.countP fun other => other.id = row.id)
    refine ⟨hentry.1, hentry.2.1, before, other, hbefore, halike, hnumber, ?_, hown⟩
    rw [← hcount] at hline
    exact congrArg (Option.map Int.ofNat) hline

/-- A division and two paragraphs that share an id. -/
def sharedRows : List Row :=
  have hid : ∀ c ∈ ("a" : Text), isRowIdChar c = true := List.forall_mem_singleton.2 rfl
  [⟨"div", "a", by decide, by decide, by decide, by decide, by decide, hid, by decide⟩,
    ⟨"p", "a", by decide, by decide, by decide, by decide, by decide, hid, by decide⟩,
    ⟨"p", "a", by decide, by decide, by decide, by decide, by decide, hid, by decide⟩]

/-- The template with these three rows. -/
def sharedSource : Text :=
  "<div id=\"a\"></div>\n<p id=\"a\"></p>\n<p id=\"a\"></p>"

theorem locate_examine_rows_shared :
    OnePerLine sharedRows sharedSource ∧
      ∃ document first second, Html.parse (Template.toMarkup sharedSource) = .ok document ∧
        locate sharedSource none (Rule.DuplicateIds.examine document .unknown) = .ok [first, second] ∧
        first.line ≠ some 2 ∧ second.line = some 3 := by
  have hrows : OnePerLine sharedRows sharedSource := .line _ (.line _ (.last _))
  refine ⟨hrows, ?_⟩
  obtain ⟨document, located, hparse, hlocated, hfindings⟩ := locate_examine_rows hrows none .unknown
  cases hfindings with
  | cons hfirst hfindings =>
    cases hfindings with
    | cons hsecond hfindings =>
      cases hfindings
      refine ⟨document, _, _, hparse, hlocated, fun heq => ?_, ?_⟩
      · obtain ⟨-, -, before, -, -, -, -, hline, hown⟩ := hfirst
        rw [hline, Option.some_inj] at heq
        have hplace : before.length = 1 := by omega
        exact absurd (hown.1 hplace) (by decide +kernel)
      · obtain ⟨-, -, before, -, -, -, -, hline, hown⟩ := hsecond
        have hplace : before.length = 2 := hown.2 (by decide +kernel)
        rw [hline, hplace]
        rfl

end Locate

end TemplateAudit
