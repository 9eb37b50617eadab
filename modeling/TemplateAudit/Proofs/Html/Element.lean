import TemplateAudit.Html.Document
import TemplateAudit.Proofs.Markup.Spacing
import TemplateAudit.Proofs.Text.Case
import TemplateAudit.Proofs.Text.Parts
import TemplateAudit.Proofs.Text.Trim

/-!
# Reading elements

A start tag whose attributes stand in double quotes is read in one step (`step_written`), and so is an end tag
(`step_endTag`): this is said for any place of a document, so that documents with several elements can be followed tag
by tag.  A start tag with an id and nothing else is read back as the element with this id (`parse_idTag`).
-/

namespace TemplateAudit

namespace Html

/-! ## Names of tags -/

/-- The name of a tag in small letters: a letter, and then letters, digits and the marks that may stand in
a name. -/
structure IsTagName (name : Text) : Prop where
  head : name.head?.any Char.isLower = true
  all : ∀ c ∈ name, isEndNameChar c = true ∧ c.isUpper = false

instance (name : Text) : Decidable (IsTagName name) :=
  decidable_of_iff
    (name.head?.any Char.isLower = true ∧ name.all (fun c => isEndNameChar c && !c.isUpper) = true)
    ⟨fun h => ⟨h.1, by simpa using h.2⟩, fun h => ⟨h.head, by simpa using h.all⟩⟩

variable {c d : Char} {name value rest s : Text}

theorem toNat_of_isEndNameChar (h : isEndNameChar c = true) : 45 ≤ c.toNat ∧ c.toNat ≤ 122 := by
  simp only [isEndNameChar, Bool.or_eq_true, beq_iff_eq] at h
  obtain (((h | rfl) | rfl) | rfl) | rfl := h
  · have := Text.toNat_of_isAlphanum h
    omega
  all_goals decide

theorem isBlank_of_isEndNameChar (h : isEndNameChar c = true) : Text.isBlank c = false := by
  have := toNat_of_isEndNameChar h
  simp only [Text.isBlank, Bool.or_eq_false_iff, Bool.and_eq_false_iff, decide_eq_false_iff_not]
  omega

theorem ne_of_isEndNameChar (hc : isEndNameChar c = true) (hd : isEndNameChar d = false) : c ≠ d := by
  rintro rfl
  rw [hc] at hd
  cases hd

theorem isTagNameChar_of_isEndNameChar (h : isEndNameChar c = true) : isTagNameChar c = true := by
  simp only [isTagNameChar, Bool.not_eq_true', Bool.or_eq_false_iff, beq_eq_false_iff_ne]
  refine ⟨⟨⟨⟨⟨⟨⟨?_, ?_⟩, ?_⟩, ?_⟩, ?_⟩, ?_⟩, ?_⟩, ?_⟩ <;> exact ne_of_isEndNameChar h (by decide)

theorem isAttributeNameChar_of_isEndNameChar (h : isEndNameChar c = true) : isAttributeNameChar c = true := by
  simp only [isAttributeNameChar, Bool.not_eq_true', Bool.or_eq_false_iff, beq_eq_false_iff_ne]
  refine ⟨⟨⟨?_, ?_⟩, ?_⟩, isBlank_of_isEndNameChar h⟩ <;> exact ne_of_isEndNameChar h (by decide)

namespace IsTagName

variable (hname : IsTagName name)
include hname

theorem not_mem (hd : isEndNameChar d = false) : d ∉ name := fun hmem => by
  rw [(hname.all d hmem).1] at hd
  cases hd

theorem map_toLower : name.map Char.toLower = name := by
  have hsmall : ∀ c ∈ name, c.toLower = c := fun c hc => Text.toLower_of_not_isUpper (hname.all c hc).2
  rw [List.map_congr_left hsmall, List.map_id']

theorem lower_eq : Text.lower name = name := by
  refine Text.lower_eq_self fun c hc => ⟨?_, (hname.all c hc).2⟩
  have := toNat_of_isEndNameChar (hname.all c hc).1
  omega

/-- A name begins with a letter. -/
theorem exists_cons : ∃ c more, name = c :: more ∧ c.isAlpha = true := by
  obtain ⟨c, hc, hlower⟩ := (Option.any_eq_true _ _).1 hname.head
  obtain ⟨more, rfl⟩ := List.head?_eq_some_iff.1 hc
  exact ⟨c, more, rfl, by rw [Char.isAlpha, hlower, Bool.or_true]⟩

/-- The name is read up to a character that stands in no name. -/
theorem tagName?_append (hrest : ∀ c ∈ rest.head?, isTagNameChar c = false) :
    tagName? (name ++ rest) = some (name, rest) := by
  obtain ⟨c, more, rfl, hc⟩ := hname.exists_cons
  have hmore : ∀ d ∈ more, isTagNameChar d = true := fun d hd =>
    isTagNameChar_of_isEndNameChar (hname.all d (List.mem_cons_of_mem c hd)).1
  rw [List.cons_append, tagName?, if_pos hc, Text.takeWhile_append_of_stop hmore hrest,
    Text.dropWhile_append_of_stop hmore hrest]

theorem trim_eq : Text.trim name = name :=
  (Text.IsTrimmed.of_forall fun c hc => isBlank_of_isEndNameChar (hname.all c hc).1).trim_eq

end IsTagName

/-! ## Attributes -/

theorem consumed_append (front rest : Text) : Text.consumed (front ++ rest) rest = front := by
  rw [Text.consumed, List.length_append, Nat.add_sub_cancel_right, List.take_left]

/-- A value without references is read as it stands. -/
theorem readValue?_eq_self (h : '&' ∉ value) : readValue? value = some value := by
  rw [readValue?]
  induction value with
  | nil => rfl
  | cons c value ih =>
    obtain ⟨hc, hvalue⟩ := List.ne_and_not_mem_of_not_mem_cons h
    rw [readValueFrom?, ih hvalue, Option.map_some]
    exact fun heq => hc heq.symm

theorem attributesOf_eq (before : Char) (s : Text) :
    attributesOf before s =
      match attribute? before s with
      | none => ([], s)
      | some (attr, rest) =>
        (attr :: (attributesOf ((Text.consumed s rest).getLastD before) rest).1,
          (attributesOf ((Text.consumed s rest).getLastD before) rest).2) := by
  rw [attributesOf]
  split <;> rename_i h <;> rw [h]

/-- A value in double quotes is read up to the next quote. -/
theorem value?_quoted (h : '"' ∉ value) (rest : Text) :
    value? ('=' :: '"' :: (value ++ '"' :: rest)) = some (value, rest) := by
  have hsign : ∀ t, Text.trimStart ('=' :: t) = '=' :: t := fun _ => rfl
  have hsigns : ∀ t : Text, ('"' :: t).dropWhile (· == '=') = '"' :: t := fun _ => rfl
  have hstart : ∀ t, Text.trimStart ('"' :: t) = '"' :: t := fun _ => rfl
  simp only [value?, hsign, hsigns, hstart, closedValue?, Text.cutAtChar_append h]

/-- Attributes as they are written, with their values in double quotes. -/
def written (attrs : List (Text × Text)) : Text :=
  attrs.flatMap fun attr => ' ' :: (attr.1 ++ '=' :: '"' :: (attr.2 ++ ['"']))

/-- Attributes have names, and their values hold no double quotes. -/
def AreWritable (attrs : List (Text × Text)) : Prop :=
  ∀ attr ∈ attrs, IsTagName attr.1 ∧ '"' ∉ attr.2

section Written

variable {attrs decoded : List (Text × Text)} {before : Char}

theorem written_cons (attr : Text × Text) (attrs : List (Text × Text)) (t : Text) :
    written (attr :: attrs) ++ t = ' ' :: (attr.1 ++ '=' :: '"' :: (attr.2 ++ '"' :: (written attrs ++ t))) := by
  simp [written]

theorem skipGap_cons (hslash : c ≠ '/') (hblank : Text.isBlank c = false) (t : Text) : skipGap (c :: t) = c :: t := by
  have hshort : ∀ s, c = '/' → t = '>' :: s → False := fun _ h _ => hslash h
  rw [skipGap.eq_3 c t hshort, if_neg (by simp [hslash, hblank])]

/-- In front of each attribute stands one space, and none in front of the end of the tag. -/
theorem exists_gap (hattrs : AreWritable attrs) (rest : Text) :
    ∃ gap, written attrs ++ '>' :: rest = gap ++ skipGap (written attrs ++ '>' :: rest) ∧
      (attrs = [] ∧ gap = [] ∨ attrs ≠ [] ∧ gap = [' ']) := by
  cases attrs with
  | nil => exact ⟨[], rfl, .inl ⟨rfl, rfl⟩⟩
  | cons attr attrs =>
    obtain ⟨c, more, hname, hc⟩ := (hattrs attr List.mem_cons_self).1.exists_cons
    have hchar := ((hattrs attr List.mem_cons_self).1.all c (hname ▸ List.mem_cons_self)).1
    have hskip : ∀ t, skipGap (' ' :: c :: t) = c :: t :=
      skipGap_cons (ne_of_isEndNameChar hchar (by decide)) (isBlank_of_isEndNameChar hchar)
    refine ⟨[' '], ?_, .inr ⟨List.cons_ne_nil _ _, rfl⟩⟩
    rw [written_cons, hname, List.cons_append, hskip]
    rfl

/-- An attribute is read up to the next one. -/
theorem attribute?_append (hbefore : mayPrecedeAttribute before = true) (hname : IsTagName name) (hvalue : '"' ∉ value)
    (rest : Text) :
    attribute? before (name ++ '=' :: '"' :: (value ++ '"' :: rest)) = some ((name, value), skipGap rest) := by
  have hlower := hname.lower_eq
  obtain ⟨c, more, rfl, -⟩ := hname.exists_cons
  obtain ⟨hc, hmore⟩ := List.forall_mem_cons.1 fun d hd => isAttributeNameChar_of_isEndNameChar (hname.all d hd).1
  have hfirst : (c == '/' || c == '>' || Text.isBlank c) = false := by
    simp only [isAttributeNameChar, Bool.not_eq_true', Bool.or_eq_false_iff] at hc ⊢
    exact ⟨⟨hc.1.1.1, hc.1.2⟩, hc.2⟩
  have hstop : ∀ d ∈ ('=' :: '"' :: (value ++ '"' :: rest)).head?, isAttributeNameChar d = false :=
    Text.forall_mem_of_eq_some rfl (by decide)
  rw [List.cons_append, attribute?, hbefore, hfirst]
  simp only [Bool.not_false, Bool.and_self, if_true, Text.takeWhile_append_of_stop hmore hstop,
    Text.dropWhile_append_of_stop hmore hstop, value?_quoted hvalue, hlower]

/-- The attributes of a tag end at its `>`. -/
theorem attributesOf_end (before : Char) (rest : Text) :
    attributesOf before ('>' :: rest) = ([], '>' :: rest) := by
  rw [attributesOf_eq, attribute?, if_neg (by simp)]

/-- The attributes of a tag are read one after the other. -/
theorem attributesOf_written (hattrs : AreWritable attrs) (hbefore : attrs ≠ [] → mayPrecedeAttribute before = true)
    (rest : Text) : attributesOf before (skipGap (written attrs ++ '>' :: rest)) = (attrs, '>' :: rest) := by
  induction attrs generalizing before with
  | nil => exact attributesOf_end before rest
  | cons attr attrs ih =>
    obtain ⟨⟨hname, hvalue⟩, hattrs'⟩ := List.forall_mem_cons.1 hattrs
    obtain ⟨gap, hgap, hspace⟩ := exists_gap hattrs rest
    obtain ⟨gap', hgap', hspace'⟩ := exists_gap hattrs' rest
    obtain rfl : gap = [' '] := (hspace.resolve_left fun h => List.cons_ne_nil _ _ h.1).2
    rw [written_cons, List.singleton_append, List.cons.injEq] at hgap
    have hhere : skipGap (written (attr :: attrs) ++ '>' :: rest) =
        attr.1 ++ '=' :: '"' :: (attr.2 ++ '"' :: (written attrs ++ '>' :: rest)) := by
      rw [written_cons]
      exact hgap.2.symm
    have hlast : mayPrecedeAttribute ((Text.consumed
        (attr.1 ++ '=' :: '"' :: (attr.2 ++ '"' :: (written attrs ++ '>' :: rest)))
        (skipGap (written attrs ++ '>' :: rest))).getLastD before) = true := by
      have hsplit : attr.1 ++ '=' :: '"' :: (attr.2 ++ '"' :: (written attrs ++ '>' :: rest)) =
          attr.1 ++ '=' :: '"' :: attr.2 ++ ['"'] ++ gap' ++ skipGap (written attrs ++ '>' :: rest) := by
        conv_lhs => rw [hgap']
        simp
      rw [hsplit, consumed_append]
      rcases hspace' with ⟨-, rfl⟩ | ⟨-, rfl⟩
      · rw [List.append_nil, List.getLastD_concat]
        decide
      · rw [List.getLastD_concat]
        decide
    rw [hhere, attributesOf_eq, attribute?_append (hbefore (List.cons_ne_nil _ _)) hname hvalue]
    simp only [ih hattrs' fun _ => hlast]

/-! ## Start tags -/

/-- A start tag is read up to its end. -/
theorem readStartTag_written (hname : IsTagName name) (hattrs : AreWritable attrs)
    (hvalues : readValues? attrs = some decoded) (rest : Text) :
    readStartTag ('<' :: (name ++ (written attrs ++ '>' :: rest))) =
      .read [.startTag name decoded false] (if rawElements.contains name then some name else none) rest := by
  obtain ⟨gap, hgap, hspace⟩ := exists_gap hattrs rest
  have hhead : ∀ c ∈ (written attrs ++ '>' :: rest).head?, isTagNameChar c = false := by
    cases attrs with
    | nil => exact Text.forall_mem_of_eq_some rfl rfl
    | cons attr attrs =>
      rw [written_cons]
      exact Text.forall_mem_of_eq_some rfl rfl
  have hbefore : attrs ≠ [] → mayPrecedeAttribute ((Text.consumed ('<' :: (name ++ (written attrs ++ '>' :: rest)))
      (skipGap (written attrs ++ '>' :: rest))).getLastD '<') = true := fun hne => by
    obtain rfl : gap = [' '] := (hspace.resolve_left fun h => hne h.1).2
    have hsplit : '<' :: (name ++ (written attrs ++ '>' :: rest)) =
        '<' :: name ++ [' '] ++ skipGap (written attrs ++ '>' :: rest) := by
      conv_lhs => rw [hgap]
      simp
    rw [hsplit, consumed_append, List.getLastD_concat]
    decide
  simp only [readStartTag, hname.tagName?_append hhead, attributesOf_written hattrs hbefore, hvalues, hname.lower_eq]

end Written

/-- A start tag with an id. -/
def idTag (name value : Text) : Text :=
  '<' :: (name ++ (" id=\"" ++ (value ++ "\">")))

theorem getLast?_idTag (name value : Text) : (idTag name value).getLast? = some '>' := by
  simp [idTag, List.getLast?_cons]

/-- No two white space characters stand side by side in a start tag with an id. -/
theorem isSpaced_idTag (hname : IsTagName name)
    (hvalue : ∀ c ∈ value, Text.isBlank c = false) : Markup.IsSpaced (idTag name value) := by
  have hfront : ∀ c ∈ '<' :: name, Text.isBlank c = false := List.forall_mem_cons.2
    ⟨rfl, fun c hc => isBlank_of_isEndNameChar (hname.all c hc).1⟩
  have hend : Markup.IsSpaced (value ++ "\">") := (Markup.isSpaced_of_not_blank hvalue).append (by decide)
    fun c hc => hvalue c (List.mem_of_mem_getLast? hc)
  have hbehind : Markup.IsSpaced (" id=\"" ++ (value ++ "\">")) :=
    Markup.IsSpaced.append (by decide) hend (Text.forall_mem_of_eq_some rfl (by decide))
  exact (Markup.isSpaced_of_not_blank hfront).append hbehind fun c hc => hfront c (List.mem_of_mem_getLast? hc)

/-! ## The reader -/

/-- The reader goes on behind what a step has read. -/
theorem readOn_of_next {atEnd : Bool} {raw raw' : Option Text} {events : List Event}
    (h : step atEnd raw s = .next events raw' rest) (hshorter : rest.length < s.length) :
    readOn atEnd raw s = (readOn atEnd raw' rest).map fun found => (events ++ found.1, found.2) := by
  rw [readOn, h]
  simp only [if_pos hshorter]
  cases readOn atEnd raw' rest with
  | error reason => rfl
  | ok found => rfl

theorem readOn_nil (atEnd : Bool) (raw : Option Text) : readOn atEnd raw [] = .ok ([], raw, []) := by
  rw [readOn]
  cases raw <;> rfl

theorem step_lt (atEnd : Bool) (s : Text) : step atEnd none ('<' :: s) = stepAtTag atEnd none ('<' :: s) := rfl

/-- A start tag is read in one step. -/
theorem step_written {attrs decoded : List (Text × Text)} (hname : IsTagName name) (hattrs : AreWritable attrs)
    (hvalues : readValues? attrs = some decoded) (atEnd : Bool) (rest : Text) :
    step atEnd none ('<' :: (name ++ (written attrs ++ '>' :: rest))) =
      .next [.startTag name decoded false] (if rawElements.contains name then some name else none) rest := by
  have htag := readStartTag_written hname hattrs hvalues rest
  obtain ⟨c, more, hcons, hc⟩ := hname.exists_cons
  rw [hcons, List.cons_append] at htag ⊢
  rw [step_lt, stepAtTag]
  simp only [List.drop_one, List.tail_cons, hc, if_true, htag]

theorem step_idTag (hname : IsTagName name) (hquote : '"' ∉ value) (hreference : '&' ∉ value) (atEnd : Bool)
    (rest : Text) :
    step atEnd none (idTag name value ++ rest) =
      .next [.startTag name [("id".toList, value)] false]
        (if rawElements.contains name then some name else none) rest := by
  have hshape : idTag name value ++ rest = '<' :: (name ++ (written [("id".toList, value)] ++ '>' :: rest)) := by
    simp [idTag, written]
  have hid : IsTagName "id" := by decide
  have hattrs : AreWritable [("id".toList, value)] := List.forall_mem_singleton.2 ⟨hid, hquote⟩
  have hvalues : readValues? [("id".toList, value)] = some [("id".toList, value)] := by
    simp only [readValues?, readValue?_eq_self hreference]
  rw [hshape]
  exact step_written hname hattrs hvalues atEnd rest

/-- An end tag. -/
def endTag (name : Text) : Text :=
  '<' :: '/' :: (name ++ ['>'])

theorem readEndTag_endTag (hname : IsTagName name) (rest : Text) :
    readEndTag none (endTag name ++ rest) = .read [.endTag name] none rest := by
  have hcut : Text.cutAtChar '>' ((endTag name ++ rest).drop 2) = some (name, rest) := by
    rw [endTag, List.cons_append, List.cons_append, List.append_assoc]
    exact Text.cutAtChar_append (hname.not_mem (by decide)) rest
  have hplain : plainEndName? name = some name := by
    obtain ⟨c, more, hcons, hc⟩ := hname.exists_cons
    have hmore : more.all isEndNameChar = true := List.all_eq_true.2 fun d hd =>
      (hname.all d (hcons ▸ List.mem_cons_of_mem c hd)).1
    have hlower := hname.lower_eq
    rw [plainEndName?, hname.trim_eq]
    rw [hcons] at hlower ⊢
    simp only [hc, hmore, Bool.and_self, if_true, hlower]
  simp only [readEndTag, hcut, hplain]

theorem step_endTag (hname : IsTagName name) (atEnd : Bool) (rest : Text) :
    step atEnd none (endTag name ++ rest) = .next [.endTag name] none rest := by
  have htag := readEndTag_endTag hname rest
  rw [endTag, List.cons_append, List.cons_append] at htag ⊢
  have hletter : '/'.isAlpha = false := by decide
  rw [step_lt, stepAtTag]
  simp only [List.drop_one, List.tail_cons, hletter, Bool.false_eq_true, if_false, if_true, htag]

theorem events_of_readOn {raw : Option Text} {found : List Event}
    (h : readOn false none s = .ok (found, raw, [])) : events s = .ok found := by
  have hagain : readOn true raw [] = .ok ([], raw, []) := readOn_nil true raw
  simp only [events, h, hagain, bind, Except.bind]
  simp [pure, Except.pure]

/-! ## Building -/

namespace Building

variable {work : Building} {tag : Text} {attrs : List (Text × Text)}

theorem pending_add (node : Node) : (work.add node).pending = work.pending := by
  rw [add]
  split <;> rfl

theorem closedVoids_add (node : Node) : (work.add node).closedVoids = work.closedVoids := by
  rw [add]
  split <;> rfl

theorem flush_of_pending_nil (h : work.pending = []) : work.flush = work := by
  rw [flush, flushAs, h]

/-- Nothing is pending after the pending text has been added. -/
theorem pending_flush : work.flush.pending = [] := by
  rw [flush, flushAs]
  split
  · assumption
  · rw [pending_add]

theorem closedVoids_flush : work.flush.closedVoids = work.closedVoids := by
  rw [flush, flushAs]
  split
  · rfl
  · rw [closedVoids_add]

/-- The innermost element is closed by its own name. -/
theorem close_here {frame : Frame} {frames : List Frame} (hpending : work.pending = [])
    (hframes : work.frames = frame :: frames) :
    work.close frame.tag =
      { work with frames }.add (.element frame.tag frame.attrs frame.content.reverse) := by
  have hfound : work.frames.findIdx? (·.tag == frame.tag) = some 0 := by
    rw [hframes, List.findIdx?_cons, beq_self_eq_true, if_pos rfl]
  simp only [close, flush_of_pending_nil hpending, hfound]
  rw [closeMany, closeMany, closeOne, hframes]

/-- An element that is opened and closed at once is added behind the pending text. -/
theorem endTag_startTag (hvoids : tag ∉ work.closedVoids) (hvoid : tag ∉ voidElements) :
    (work.startTag tag attrs false).endTag tag = work.flush.add (.element tag attrs []) := by
  have hopen : work.startTag tag attrs false =
      ⟨⟨tag, attrs, []⟩ :: work.flush.frames, work.flush.top, work.flush.pending, work.flush.closedVoids⟩ := by
    rw [startTag, if_neg (by decide), if_neg (by simpa using hvoid), openElement]
  have hpending : (⟨⟨tag, attrs, []⟩ :: work.flush.frames, work.flush.top, work.flush.pending,
      work.flush.closedVoids⟩ : Building).pending = [] := pending_flush
  have hclose := close_here hpending rfl
  rw [hopen, endTag, if_neg (by simpa [closedVoids_flush] using hvoids)]
  exact hclose

/-- An element that is never closed ends with the document. -/
theorem finish_startTag (tag : Text) (attrs : List (Text × Text)) :
    (start.startTag tag attrs false).finish = [.element tag attrs []] := by
  have hopen : start.openElement tag attrs = ⟨[⟨tag, attrs, []⟩], [], [], []⟩ := rfl
  rw [startTag, if_neg (by decide), hopen]
  split
  · rw [close_here rfl (rfl : (⟨[⟨tag, attrs, []⟩], [], [], []⟩ : Building).frames = [⟨tag, attrs, []⟩])]
    rfl
  · rfl

/-- Nothing is open, and no end tags are waited for but those of void elements. -/
structure Idle (work : Building) : Prop where
  frames : work.frames = []
  closedVoids : ∀ tag ∈ work.closedVoids, tag ∈ voidElements

namespace Idle

variable (h : Idle work)
include h

theorem frames_flush : work.flush.frames = [] := by
  rw [flush, flushAs]
  split
  · exact h.frames
  · rw [add]
    simp only [h.frames]

theorem add_flush (node : Node) : work.flush.add node = ⟨[], node :: work.flush.top, [], work.closedVoids⟩ := by
  rw [add, h.frames_flush]
  simp only [pending_flush, closedVoids_flush]

/-- The document so far is what stands in no element. -/
theorem finish_eq : work.finish = work.flush.top.reverse := by
  simp only [finish, h.frames_flush, List.length_nil, closeMany]

theorem not_mem_closedVoids (hvoid : tag ∉ voidElements) : tag ∉ work.closedVoids :=
  fun hmem => hvoid (h.closedVoids tag hmem)

end Idle

/-- A node has been put at the end of what was built, and nothing is open or pending. -/
structure Adds (node : Node) (work work' : Building) : Prop where
  idle : Idle work'
  pending : work'.pending = []
  finish : work'.finish = work.finish ++ [node]

theorem Idle.adds {voids : List Text} (h : Idle work) (hvoids : ∀ tag ∈ voids, tag ∈ voidElements) (node : Node) :
    Adds node work ⟨[], node :: work.flush.top, [], voids⟩ := by
  have hidle : Idle ⟨[], node :: work.flush.top, [], voids⟩ := ⟨rfl, hvoids⟩
  refine ⟨hidle, rfl, ?_⟩
  rw [hidle.finish_eq, h.finish_eq, flush_of_pending_nil rfl, List.reverse_cons]

end Building

/-! ## A start tag by itself -/

/-- Markup without a byte order mark is read as it stands. -/
theorem parse_eq_ofMarkup (h : '\uFEFF' ∉ s) : parse s = ofMarkup s := by
  rw [parse, List.filter_eq_self.2 fun c hc => bne_iff_ne.2 (ne_of_mem_of_not_mem hc h)]

/-- **A start tag with an id is read as an element with this id.** -/
theorem parse_idTag (hname : IsTagName name) (hquote : '"' ∉ value) (hreference : '&' ∉ value)
    (hmark : '\uFEFF' ∉ value) : parse (idTag name value) = .ok [.element name [("id".toList, value)] []] := by
  have hmark' : '\uFEFF' ∉ idTag name value := by
    simp [idTag, hmark, hname.not_mem (d := '\uFEFF') (by decide)]
  have hread := step_idTag hname hquote hreference false []
  rw [List.append_nil] at hread
  have hevents := events_of_readOn ((readOn_of_next hread (by simp [idTag])).trans
    (by rw [readOn_nil]; rfl))
  rw [parse_eq_ofMarkup hmark', ofMarkup, hevents, Except.map, ofEvents]
  exact congrArg Except.ok (Building.finish_startTag name [("id".toList, value)])

end Html

end TemplateAudit
