import TemplateAudit.Locate.Line
import TemplateAudit.Markup.Piece
import TemplateAudit.Proofs.Text.Parts

/-!
# What stands in a line

A line may show the tag of an element, an attribute with its value, or the call of a helper.  Each of these
is said here by the parts that the line is made of (`TagOpens`, `AttributeStands`, `HelperStands`), without
the searches that go through it.  The searches find exactly these (`opensTag_iff`, `holdsAttribute_iff`,
`callsHelper_iff`).
-/

namespace TemplateAudit

namespace Locate

open Markup (IsSpace)

variable {tag line name value s rest : Text} {pieces : List Piece}

/-! ## The parts of a line -/

/-- A tag of a given name opens in a line: a `<` and the name in any case, and then white space, a `>`, a
`/` or the end of the line. -/
def TagOpens (tag line : Text) : Prop :=
  ∃ before name after, line = before ++ '<' :: (name ++ after) ∧ Text.SameButCase tag name ∧
    ∀ c ∈ after.head?, c = '>' ∨ c = '/' ∨ Text.isBlank c = true

/-- A word stands in a line as a whole: it is no part of a longer word. -/
def WordStands (word line : Text) : Prop :=
  ∃ before after, line = before ++ (word ++ after) ∧
    (∀ c ∈ before.getLast?, Text.isWordChar c = false) ∧ ∀ c ∈ after.head?, Text.isWordChar c = false

/-- The name of a helper that writes a tag stands in a line as a whole word. -/
def HelperStands (tag line : Text) : Prop :=
  ∃ helper ∈ Helper.catalogue, tag ∈ helper.tags ∧ WordStands helper.name line

/-- Code whose value is known only when the template is rendered, as a tag or as an interpolation. -/
inductive RuntimeCode : Text → Prop
  | tag (code : Text) : RuntimeCode ('<' :: '%' :: (code ++ ['%', '>']))
  | interpolation {code : Text} (h : '\x7d' ∉ code) : RuntimeCode ('#' :: '\x7b' :: (code ++ ['\x7d']))

/-- A text is written after a pattern: the literal characters in any case, and code in the gaps. -/
inductive Follows : List Piece → Text → Prop
  | nil : Follows [] []
  | literal {c d : Char} {pieces : List Piece} {s : Text} (h : Text.sameButCase c d = true)
      (rest : Follows pieces s) : Follows (.literal c :: pieces) (d :: s)
  | runtime {code : Text} {pieces : List Piece} {s : Text} (h : RuntimeCode code)
      (rest : Follows pieces s) : Follows (.runtime :: pieces) (code ++ s)

/-- A value ends in front of a text. -/
def ValueEnds (after : Text) : Prop :=
  ∀ c ∈ after.head?, c = '"' ∨ c = '\'' ∨ c = '/' ∨ c = '>' ∨ Text.isBlank c = true

/-- What stands between an equals sign and a value: white space, and one quote or none. -/
def OpensValue (opening : Text) : Prop :=
  ∃ space quote, opening = space ++ quote ∧ IsSpace space ∧
    (quote = [] ∨ quote = ['"'] ∨ quote = ['\''])

/-- An attribute with a value stands in a line: its name in any case, which is no part of a longer name, an
equals sign, and a text after the pattern of the value, up to where a value ends. -/
def AttributeStands (name value line : Text) : Prop :=
  ∃ before name' space opening value' after,
    line = before ++ (name' ++ (space ++ '=' :: (opening ++ (value' ++ after)))) ∧
      (∀ c ∈ before.getLast?, joinsName c = false) ∧ Text.SameButCase name name' ∧ IsSpace space ∧
      OpensValue opening ∧ Follows (pattern value) value' ∧ ValueEnds after

/-! ## Going through a line -/

/-- A search that tries every place of a text in turn, where nothing of a kind stands in front, finds a
place if there is one. -/
theorem search_iff (search : Option Char → Text → Bool) (joins : Char → Bool) (begins : Text → Bool)
    (hnil : ∀ before, search before [] = false)
    (hcons : ∀ before c s, search before (c :: s) =
      ((!before.any joins && begins (c :: s)) || search (some c) s))
    (before : Option Char) (s : Text) :
    search before s = true ↔ ∃ front rest, s = front ++ rest ∧ rest ≠ [] ∧ begins rest = true ∧
      ∀ c ∈ (before.toList ++ front).getLast?, joins c = false := by
  induction s generalizing before with
  | nil =>
    rw [hnil]
    refine iff_of_false (by simp) ?_
    rintro ⟨front, rest, heq, hne, -⟩
    exact hne (List.append_eq_nil_iff.1 heq.symm).2
  | cons c s ih =>
    have hhere : (!before.any joins) = true ↔ ∀ c ∈ (before.toList ++ []).getLast?, joins c = false := by
      cases before <;> simp
    rw [hcons, Bool.or_eq_true, Bool.and_eq_true, hhere, ih]
    constructor
    · rintro (⟨hfree, hbegins⟩ | ⟨front, rest, rfl, hne, hbegins, hfree⟩)
      · exact ⟨[], c :: s, rfl, by simp, hbegins, hfree⟩
      · refine ⟨c :: front, rest, rfl, hne, hbegins, ?_⟩
        rwa [List.getLast?_append_of_ne_nil _ (List.cons_ne_nil c front)]
    · rintro ⟨front, rest, heq, hne, hbegins, hfree⟩
      cases front with
      | nil =>
        rw [List.nil_append] at heq
        exact .inl ⟨hfree, heq ▸ hbegins⟩
      | cons d front =>
        obtain ⟨rfl, rfl⟩ := List.cons.inj heq
        rw [List.getLast?_append_of_ne_nil _ (List.cons_ne_nil c front)] at hfree
        exact .inr ⟨front, rest, rfl, hne, hbegins, hfree⟩

/-! ## Tags and helpers -/

theorem endsTagName_iff : endsTagName s = true ↔ ∀ c ∈ s.head?, c = '>' ∨ c = '/' ∨ Text.isBlank c = true := by
  cases s <;> simp [endsTagName, or_assoc]

theorem opensTag_iff : opensTag tag line = true ↔ TagOpens tag line := by
  have hsearch := search_iff (fun _ => opensTag tag) (fun _ => false)
    (fun s => s.head?.any (· == '<') && (Text.afterPrefixButCase? tag s.tail).any endsTagName)
    (fun _ => rfl) (fun before c s => by simp [opensTag]) none line
  rw [hsearch]
  constructor
  · rintro ⟨before, _ | ⟨c, s⟩, rfl, hne, hbegins, -⟩
    · exact absurd rfl hne
    · obtain ⟨hc, hname⟩ := Bool.and_eq_true_iff.1 hbegins
      obtain ⟨after, hafter, hends⟩ := (Option.any_eq_true _ _).1 hname
      obtain ⟨name, rfl, hsame⟩ := Text.afterPrefixButCase?_eq_some_iff.1 hafter
      exact ⟨before, name, after, by rw [eq_of_beq hc], hsame, endsTagName_iff.1 hends⟩
  · rintro ⟨before, name, after, rfl, hsame, hends⟩
    refine ⟨before, _, rfl, by simp, Bool.and_eq_true_iff.2 ⟨rfl, ?_⟩, by simp⟩
    exact (Option.any_eq_true _ _).2
      ⟨after, Text.afterPrefixButCase?_eq_some_iff.2 ⟨name, rfl, hsame⟩, endsTagName_iff.2 hends⟩

theorem beginsWithWord_iff {words : List Text} : beginsWithWord words s = true ↔
    ∃ word ∈ words, ∃ after, s = word ++ after ∧ ∀ c ∈ after.head?, Text.isWordChar c = false := by
  have hends : ∀ after : Text, (!after.head?.any Text.isWordChar) = true ↔
      ∀ c ∈ after.head?, Text.isWordChar c = false := fun after => by cases after <;> simp
  rw [beginsWithWord, List.any_eq_true]
  refine exists_congr fun word => and_congr_right fun _ => ?_
  rw [Option.any_eq_true]
  refine exists_congr fun after => ?_
  rw [List.isPrefixOf?_eq_some_iff_append_eq, hends, eq_comm]

theorem catalogue_names_ne_nil : ∀ helper ∈ Helper.catalogue, helper.name ≠ [] := by
  decide

theorem mem_namesFor {word : Text} :
    word ∈ Helper.namesFor tag ↔ ∃ helper ∈ Helper.catalogue, tag ∈ helper.tags ∧ helper.name = word := by
  simp [Helper.namesFor, List.mem_mergeSort, and_assoc]

theorem callsHelper_iff : callsHelper tag line = true ↔ HelperStands tag line := by
  have hsearch := search_iff (holdsWordAfter (Helper.namesFor tag)) _ _ (fun _ => rfl)
    (fun _ _ _ => rfl) none line
  rw [callsHelper, hsearch]
  constructor
  · rintro ⟨before, s, rfl, -, hbegins, hfree⟩
    obtain ⟨word, hword, after, rfl, hafter⟩ := beginsWithWord_iff.1 hbegins
    obtain ⟨helper, hhelper, htag, rfl⟩ := mem_namesFor.1 hword
    exact ⟨helper, hhelper, htag, before, after, rfl, hfree, hafter⟩
  · rintro ⟨helper, hhelper, htag, before, after, rfl, hfree, hafter⟩
    have hne : helper.name ++ after ≠ [] := fun hnil =>
      catalogue_names_ne_nil helper hhelper (List.append_eq_nil_iff.1 hnil).1
    exact ⟨before, _, rfl, hne, beginsWithWord_iff.2
      ⟨_, mem_namesFor.2 ⟨helper, hhelper, htag, rfl⟩, after, rfl, hafter⟩, hfree⟩

/-! ## Values -/

/-- Each place behind a part of the text is found. -/
theorem mem_afterEach {part : Text} (hpart : part ≠ []) :
    rest ∈ afterEach part s ↔ ∃ code, s = code ++ (part ++ rest) := by
  induction s with
  | nil =>
    refine iff_of_false List.not_mem_nil ?_
    rintro ⟨code, heq⟩
    exact hpart (List.append_eq_nil_iff.1 (List.append_eq_nil_iff.1 heq.symm).2).1
  | cons c s ih =>
    have hplace : (∃ code, c :: s = code ++ (part ++ rest)) ↔
        part.isPrefixOf? (c :: s) = some rest ∨ ∃ code, s = code ++ (part ++ rest) := by
      rw [List.isPrefixOf?_eq_some_iff_append_eq]
      constructor
      · rintro ⟨_ | ⟨d, code⟩, heq⟩
        · exact .inl heq.symm
        · exact .inr ⟨code, (List.cons.inj heq).2⟩
      · rintro (heq | ⟨code, rfl⟩)
        · exact ⟨[], heq.symm⟩
        · exact ⟨c :: code, rfl⟩
    rw [hplace, ← ih, afterEach]
    split
    · rename_i rest' hrest
      rw [hrest, List.mem_cons, Option.some_inj, eq_comm]
    · rename_i hnone
      rw [hnone]
      simp

theorem mem_afterRuntime : rest ∈ afterRuntime s ↔ ∃ code, RuntimeCode code ∧ s = code ++ rest := by
  fun_cases afterRuntime s with
  | case1 s =>
    rw [mem_afterEach (by decide)]
    constructor
    · rintro ⟨code, rfl⟩
      exact ⟨_, .tag code, by simp⟩
    · rintro ⟨_, ⟨code⟩ | _, heq⟩
      · exact ⟨code, by simpa using heq⟩
      · cases heq
  | case2 s =>
    constructor
    · intro hmem
      obtain ⟨cut, hcut, rfl⟩ := Option.map_eq_some_iff.1 (Option.mem_toList.1 hmem)
      refine ⟨_, .interpolation (Text.not_mem_of_cutAtChar hcut), ?_⟩
      rw [Text.cutAtChar_eq_some hcut]
      simp
    · rintro ⟨_, _ | ⟨hcode⟩, heq⟩
      · cases heq
      · rename_i code
        obtain rfl : s = code ++ '\x7d' :: rest := by simpa using heq
        simp [Text.cutAtChar_append hcode]
  | case3 s htag hinterpolation =>
    refine iff_of_false List.not_mem_nil ?_
    rintro ⟨_, _ | _, rfl⟩
    · exact htag _ rfl
    · exact hinterpolation _ rfl

theorem endsValue_iff : endsValue s = true ↔ ValueEnds s := by
  cases s <;> simp [endsValue, ValueEnds, or_assoc]

theorem beginsWithValue_iff : beginsWithValue pieces s = true ↔
    ∃ value' after, s = value' ++ after ∧ Follows pieces value' ∧ ValueEnds after := by
  induction pieces generalizing s with
  | nil =>
    rw [beginsWithValue, endsValue_iff]
    constructor
    · exact fun hends => ⟨[], s, rfl, .nil, hends⟩
    · rintro ⟨_, after, rfl, ⟨⟩, hends⟩
      exact hends
  | cons piece pieces ih =>
    cases piece with
    | literal c =>
      constructor
      · intro hbegins
        cases s with
        | nil => cases hbegins
        | cons d s =>
          obtain ⟨hsame, hbegins⟩ := Bool.and_eq_true_iff.1 hbegins
          obtain ⟨value', after, rfl, hfollows, hends⟩ := ih.1 hbegins
          exact ⟨d :: value', after, rfl, .literal hsame hfollows, hends⟩
      · rintro ⟨_, after, rfl, hfollows, hends⟩
        cases hfollows with
        | literal hsame hrest =>
          exact Bool.and_eq_true_iff.2 ⟨hsame, ih.2 ⟨_, after, rfl, hrest, hends⟩⟩
    | runtime =>
      rw [beginsWithValue, List.any_eq_true]
      constructor
      · rintro ⟨rest, hrest, hbegins⟩
        obtain ⟨code, hcode, rfl⟩ := mem_afterRuntime.1 hrest
        obtain ⟨value', after, rfl, hfollows, hends⟩ := ih.1 hbegins
        exact ⟨code ++ value', after, by rw [List.append_assoc], .runtime hcode hfollows, hends⟩
      · rintro ⟨_, after, rfl, hfollows, hends⟩
        cases hfollows with
        | runtime hcode hrest =>
          exact ⟨_, mem_afterRuntime.2 ⟨_, hcode, List.append_assoc _ _ _⟩,
            ih.2 ⟨_, after, rfl, hrest, hends⟩⟩

/-! ## Attributes -/

theorem isQuote_iff {c : Char} : Helper.isQuote c = true ↔ [c] = ['"'] ∨ [c] = ['\''] := by
  simp [Helper.isQuote, or_comm]

theorem isQuote_of_isBlank {c : Char} (h : Text.isBlank c = true) : Helper.isQuote c = false := by
  refine Bool.eq_false_iff.2 fun hquote => ?_
  rcases isQuote_iff.1 hquote with heq | heq <;> obtain rfl := (List.cons.inj heq).1 <;> cases h

theorem OpensValue.cons {c : Char} {opening : Text} (hc : Text.isBlank c = true) (h : OpensValue opening) :
    OpensValue (c :: opening) := by
  obtain ⟨space, quote, rfl, hspace, hquote⟩ := h
  exact ⟨c :: space, quote, rfl, List.forall_mem_cons.2 ⟨hc, hspace⟩, hquote⟩

theorem opensValue_nil : OpensValue [] :=
  ⟨[], [], rfl, List.forall_mem_nil _, .inl rfl⟩

/-- In front of a value there is white space first, or a quote, or nothing. -/
theorem opensValue_cons {c : Char} {opening : Text} : OpensValue (c :: opening) ↔
    (Text.isBlank c = true ∧ OpensValue opening) ∨ Helper.isQuote c = true ∧ opening = [] := by
  constructor
  · rintro ⟨_ | ⟨d, space⟩, quote, heq, hspace, hquote⟩
    · rw [List.nil_append] at heq
      obtain rfl | hquote := hquote
      · cases heq
      · obtain rfl : opening = [] := by rcases hquote with rfl | rfl <;> exact (List.cons.inj heq).2
        exact .inr ⟨isQuote_iff.2 (heq ▸ hquote), rfl⟩
    · obtain ⟨rfl, rfl⟩ := List.cons.inj heq
      obtain ⟨hc, hspace⟩ := List.forall_mem_cons.1 hspace
      exact .inl ⟨hc, space, quote, rfl, hspace, hquote⟩
  · rintro (⟨hc, hopening⟩ | ⟨hc, rfl⟩)
    · exact hopening.cons hc
    · exact ⟨[], [c], rfl, List.forall_mem_nil _, .inr (isQuote_iff.1 hc)⟩

theorem mem_valueStarts : rest ∈ valueStarts s ↔ ∃ opening, OpensValue opening ∧ s = opening ++ rest := by
  induction s with
  | nil =>
    rw [valueStarts, List.mem_singleton]
    constructor
    · rintro rfl
      exact ⟨[], opensValue_nil, rfl⟩
    · rintro ⟨opening, -, heq⟩
      exact (List.append_eq_nil_iff.1 heq.symm).2
  | cons c s ih =>
    have hplace : (∃ opening, OpensValue opening ∧ c :: s = opening ++ rest) ↔ rest = c :: s ∨
        (Text.isBlank c = true ∧ rest ∈ valueStarts s) ∨ Helper.isQuote c = true ∧ rest = s := by
      rw [ih]
      constructor
      · rintro ⟨_ | ⟨d, opening⟩, hopening, heq⟩
        · exact .inl heq.symm
        · obtain ⟨rfl, rfl⟩ := List.cons.inj heq
          rcases opensValue_cons.1 hopening with ⟨hc, hopening⟩ | ⟨hc, rfl⟩
          · exact .inr (.inl ⟨hc, opening, hopening, rfl⟩)
          · exact .inr (.inr ⟨hc, rfl⟩)
      · rintro (rfl | ⟨hc, opening, hopening, rfl⟩ | ⟨hc, rfl⟩)
        · exact ⟨[], opensValue_nil, rfl⟩
        · exact ⟨c :: opening, hopening.cons hc, rfl⟩
        · exact ⟨[c], opensValue_cons.2 (.inr ⟨hc, rfl⟩), rfl⟩
    rw [hplace, valueStarts]
    split
    · rename_i hblank
      simp [hblank, isQuote_of_isBlank hblank]
    · rename_i hblank
      split
      · rename_i hquote
        simp [hblank, hquote]
      · rename_i hquote
        simp [hblank, hquote]

theorem beginsWithAttribute_iff : beginsWithAttribute name pieces s = true ↔
    ∃ name' space opening value' after,
      s = name' ++ (space ++ '=' :: (opening ++ (value' ++ after))) ∧ Text.SameButCase name name' ∧
        IsSpace space ∧ OpensValue opening ∧ Follows pieces value' ∧ ValueEnds after := by
  have hsign : Text.isBlank '=' = false := by decide
  constructor
  · intro hbegins
    unfold beginsWithAttribute at hbegins
    split at hbegins
    · cases hbegins
    · rename_i rest hname
      split at hbegins
      · rename_i t hrest
        obtain ⟨name', rfl, hsame⟩ := Text.afterPrefixButCase?_eq_some_iff.1 hname
        obtain ⟨space, rfl, hspace⟩ := (Text.trimStart_eq_cons_iff hsign).1 hrest
        obtain ⟨start, hstart, hvalue⟩ := List.any_eq_true.1 hbegins
        obtain ⟨opening, hopening, rfl⟩ := mem_valueStarts.1 hstart
        obtain ⟨value', after, rfl, hfollows, hends⟩ := beginsWithValue_iff.1 hvalue
        exact ⟨name', space, opening, value', after, rfl, hsame, hspace, hopening, hfollows, hends⟩
      · cases hbegins
  · rintro ⟨name', space, opening, value', after, rfl, hsame, hspace, hopening, hfollows, hends⟩
    have hname := Text.afterPrefixButCase?_eq_some_iff.2
      ⟨name', (rfl : name' ++ (space ++ '=' :: (opening ++ (value' ++ after))) = _), hsame⟩
    have hrest := (Text.trimStart_eq_cons_iff hsign).2
      ⟨space, (rfl : space ++ '=' :: (opening ++ (value' ++ after)) = _), hspace⟩
    unfold beginsWithAttribute
    simp only [hname, hrest]
    exact List.any_eq_true.2 ⟨value' ++ after, mem_valueStarts.2 ⟨opening, hopening, rfl⟩,
      beginsWithValue_iff.2 ⟨value', after, rfl, hfollows, hends⟩⟩

theorem holdsAttribute_iff : holdsAttribute name value line = true ↔ AttributeStands name value line := by
  rw [holdsAttribute, search_iff (holdsAttributeAfter name (pattern value)) _ _ (fun _ => rfl)
    (fun _ _ _ => rfl) none line]
  constructor
  · rintro ⟨before, s, rfl, -, hbegins, hfree⟩
    obtain ⟨name', space, opening, value', after, rfl, hstands⟩ := beginsWithAttribute_iff.1 hbegins
    exact ⟨before, name', space, opening, value', after, rfl, hfree, hstands⟩
  · rintro ⟨before, name', space, opening, value', after, rfl, hfree, hstands⟩
    exact ⟨before, _, rfl, by simp, beginsWithAttribute_iff.2
      ⟨name', space, opening, value', after, rfl, hstands⟩, hfree⟩

end Locate

end TemplateAudit
