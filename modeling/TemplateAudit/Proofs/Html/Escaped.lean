import TemplateAudit.Proofs.Html.Element
import TemplateAudit.Proofs.Markup.Context
import TemplateAudit.Proofs.Markup.Escaped

/-!
# Escaped text is read back

A tag that is written with escaped values is read with the values themselves (`step_startTag`), and escaped text in
front of a tag is read as the text itself, in pieces (`exists_readOn_escapeValue`).  So an element with escaped
attributes and text, wherever it stands, is read as this element (`readsAs_element`), and a row of such elements as
these elements (`ofMarkup_flatten`).
-/

namespace TemplateAudit

namespace Html

open Markup (escapedChars escapeValue escapeValueChar escapeValueChar_of_not_mem escapeValue_cons)

variable {c : Char} {s rest tag : Text} {attrs : List (Text × Text)}

/-! ## Names -/

theorem isSolid_of_isEndNameChar (h : ∀ c ∈ s, isEndNameChar c = true) : Markup.IsSolid s := fun c hc =>
  ⟨isBlank_of_isEndNameChar (h c hc), ne_of_isEndNameChar (h c hc) (by decide)⟩

namespace IsTagName

variable {name : Text} (h : IsTagName name)
include h

theorem isSolid : Markup.IsSolid name :=
  isSolid_of_isEndNameChar fun c hc => (h.all c hc).1

theorem isAttributeName : Markup.IsAttributeName name := fun c hc =>
  ⟨ne_of_isEndNameChar (h.all c hc).1 (by decide), ne_of_isEndNameChar (h.all c hc).1 (by decide)⟩

end IsTagName

theorem isTagName_of_isElementName (h : Markup.IsElementName tag) : IsTagName tag := by
  refine ⟨h.head, fun c hc => ⟨?_, (h.isSmall c hc).2⟩⟩
  simp only [isEndNameChar, h.isAlphanum hc, Bool.true_or]

/-! ## Values -/

theorem readValueFrom?_length (s t : Text) : readValueFrom? s.length (s ++ t) = readValueFrom? 0 t := by
  induction s with
  | nil => rfl
  | cons c s ih => exact ih

/-- A reference stands for its character. -/
theorem readValueFrom?_reference (reference : Text) {t : Text}
    (h : valueReference? (reference ++ t) = some (some [c], t)) :
    readValueFrom? 0 ('&' :: (reference ++ t)) = (readValueFrom? 0 t).map (c :: ·) := by
  have hlength : (reference ++ t).length - t.length = reference.length := by simp
  simp only [readValueFrom?, h, hlength, readValueFrom?_length, List.singleton_append]

theorem readValueFrom?_escapeValueChar (c : Char) (t : Text) :
    readValueFrom? 0 (escapeValueChar c ++ t) = (readValueFrom? 0 t).map (c :: ·) := by
  by_cases hescaped : c ∈ escapedChars
  · simp only [escapedChars, List.mem_cons, List.not_mem_nil, or_false] at hescaped
    rcases hescaped with rfl | rfl | rfl | rfl | rfl
    · exact readValueFrom?_reference "amp;" rfl
    · exact readValueFrom?_reference "lt;" rfl
    · exact readValueFrom?_reference "gt;" rfl
    · exact readValueFrom?_reference "quot;" rfl
    · exact readValueFrom?_reference "#x27;" rfl
  · rw [escapeValueChar_of_not_mem hescaped, List.singleton_append, readValueFrom?]
    rintro rfl
    exact hescaped List.mem_cons_self

/-- An escaped value is read as the value. -/
theorem readValue?_escapeValue (s : Text) : readValue? (escapeValue s) = some s := by
  rw [readValue?]
  induction s with
  | nil => rfl
  | cons c s ih => rw [escapeValue_cons, readValueFrom?_escapeValueChar, ih, Option.map_some]

theorem readValues?_escaped (attrs : List (Text × Text)) :
    readValues? (attrs.map fun attr => (attr.1, escapeValue attr.2)) = some attrs := by
  induction attrs with
  | nil => rfl
  | cons attr attrs ih => simp only [List.map_cons, readValues?, readValue?_escapeValue, ih]

/-- A start tag with escaped values is read with the values themselves. -/
theorem step_startTag (htag : IsTagName tag) (hattrs : ∀ attr ∈ attrs, IsTagName attr.1) (atEnd : Bool) (rest : Text) :
    step atEnd none (Markup.startTag tag attrs ++ rest) =
      .next [.startTag tag attrs false] (if rawElements.contains tag then some tag else none) rest := by
  have hshape : Markup.startTag tag attrs ++ rest =
      '<' :: (tag ++ (written (attrs.map fun attr => (attr.1, escapeValue attr.2)) ++ '>' :: rest)) := by
    simp [Markup.startTag, Markup.attributes, Markup.oneAttribute, written, List.flatMap_map]
  have hwritable : AreWritable (attrs.map fun attr => (attr.1, escapeValue attr.2)) := fun attr hattr => by
    obtain ⟨attr, hmem, rfl⟩ := List.mem_map.1 hattr
    exact ⟨hattrs attr hmem, (Markup.not_mem_escapeValue attr.2).2⟩
  rw [hshape]
  exact step_written htag hwritable (readValues?_escaped attrs) atEnd rest

/-! ## Body text -/

/-- Text without references is read up to where one of these or a tag begins. -/
theorem step_plain (hne : s ≠ []) (hs : ∀ c ∈ s, isPlainChar c = true)
    (hrest : ∀ c ∈ rest.head?, isPlainChar c = false) (atEnd : Bool) :
    step atEnd none (s ++ rest) = .next [.text s] none rest := by
  obtain ⟨c, s, rfl⟩ := List.exists_cons_of_ne_nil hne
  simp only [step, Text.takeWhile_append_of_stop hs hrest]
  rw [← List.length_cons, List.drop_left]

/-- A reference is read as its character. -/
theorem step_reference (h : c ∈ escapedChars) (atEnd : Bool) (t : Text) :
    step atEnd none (escapeValueChar c ++ t) = .next [.text [c]] none t := by
  simp only [escapedChars, List.mem_cons, List.not_mem_nil, or_false] at h
  rcases h with rfl | rfl | rfl | rfl | rfl <;> rfl

theorem isPlainChar_of_not_mem (h : c ∉ escapedChars) : isPlainChar c = true := by
  simp only [escapedChars, List.mem_cons, List.not_mem_nil, or_false, not_or] at h
  simp [isPlainChar, h.1, h.2.1]

theorem head?_escapeValue (h : c ∈ escapedChars) (s t : Text) : (escapeValue (c :: s) ++ t).head? = some '&' := by
  simp only [escapedChars, List.mem_cons, List.not_mem_nil, or_false] at h
  rcases h with rfl | rfl | rfl | rfl | rfl <;> rfl

/-- The reader reads a text, wherever it stands, as some events. -/
def ReadBy (s : Text) (events : List Event) (rest : Text) : Prop :=
  ∀ atEnd, readOn atEnd none (s ++ rest) =
    (readOn atEnd none rest).map fun found => (events ++ found.1, found.2)

theorem ReadBy.nil (rest : Text) : ReadBy [] [] rest := by
  intro atEnd
  rw [List.nil_append]
  cases readOn atEnd none rest <;> rfl

/-- What is read in one step, and then what is read behind it. -/
theorem ReadBy.of_step {t : Text} {event : Event} {events : List Event} (hne : s ≠ [])
    (hstep : ∀ atEnd, step atEnd none (s ++ (t ++ rest)) = .next [event] none (t ++ rest)) (h : ReadBy t events rest) :
    ReadBy (s ++ t) (event :: events) rest := by
  intro atEnd
  have hshorter : (t ++ rest).length < (s ++ (t ++ rest)).length := by
    have := List.length_pos_iff.2 hne
    simp only [List.length_append]
    omega
  rw [List.append_assoc, readOn_of_next (hstep atEnd) hshorter, h atEnd]
  cases readOn atEnd none rest <;> rfl

theorem ReadBy.append {t : Text} {events events' : List Event} (h : ReadBy s events (t ++ rest))
    (h' : ReadBy t events' rest) : ReadBy (s ++ t) (events ++ events') rest := by
  intro atEnd
  rw [List.append_assoc, h atEnd, h' atEnd]
  cases readOn atEnd none rest <;> simp [Except.map]

/-- A text is read as a text in pieces, up to the next tag or the end. -/
def ReadAsText (written s : Text) : Prop :=
  ∃ texts : List Text, texts.flatten = s ∧
    ∀ rest, (∀ c ∈ rest.head?, c = '<') → ReadBy written (texts.map Event.text) rest

/-- Plain text in front is read in one step, if there is any. -/
theorem ReadAsText.plain {plain written : Text} (hplain : ∀ c ∈ plain, c ∉ escapedChars)
    (hwritten : ∀ c ∈ written.head?, c = '&') (h : ReadAsText written s) :
    ReadAsText (plain ++ written) (plain ++ s) := by
  obtain ⟨texts, rfl, hread⟩ := h
  cases plain with
  | nil => exact ⟨texts, rfl, hread⟩
  | cons d plain =>
    refine ⟨(d :: plain) :: texts, rfl, fun rest hrest => (hread rest hrest).of_step (List.cons_ne_nil d plain) ?_⟩
    refine step_plain (List.cons_ne_nil d plain) (fun c hc => isPlainChar_of_not_mem (hplain c hc)) fun c hc => ?_
    rw [List.head?_append, Option.mem_def, Option.or_eq_some_iff] at hc
    rcases hc with hc | ⟨-, hc⟩
    · obtain rfl := hwritten c hc
      decide
    · obtain rfl := hrest c hc
      decide

/-- The plain text in front of escaped text grows up to the first reference. -/
theorem readAsText_append {plain : Text} (hplain : ∀ c ∈ plain, c ∉ escapedChars) (s : Text) :
    ReadAsText (plain ++ escapeValue s) (plain ++ s) := by
  induction s generalizing plain with
  | nil => exact ReadAsText.plain hplain (by rintro c ⟨⟩) ⟨[], rfl, fun rest _ => .nil rest⟩
  | cons c s ih =>
    by_cases hescaped : c ∈ escapedChars
    · obtain ⟨texts, htexts, hread⟩ := ih (List.forall_mem_nil _)
      have hhead : ∀ d ∈ (escapeValue (c :: s)).head?, d = '&' := fun d hd => by
        have hreference := head?_escapeValue hescaped s []
        rw [List.append_nil] at hreference
        rw [hreference, Option.mem_some_iff] at hd
        exact hd.symm
      refine ReadAsText.plain hplain hhead ⟨[c] :: texts, congrArg (c :: ·) htexts, fun rest hrest => ?_⟩
      exact (hread rest hrest).of_step (Markup.escapeValueChar_ne_nil c) fun atEnd => step_reference hescaped atEnd _
    · have hlonger : ∀ d ∈ plain ++ [c], d ∉ escapedChars :=
        List.forall_mem_append.2 ⟨hplain, List.forall_mem_singleton.2 hescaped⟩
      have hread := ih hlonger
      rwa [List.append_assoc, List.append_assoc, List.singleton_append, List.singleton_append,
        ← List.singleton_append (l := escapeValue s), ← escapeValueChar_of_not_mem hescaped] at hread

/-- Escaped text is read as the text. -/
theorem readAsText_escapeValue (s : Text) : ReadAsText (escapeValue s) s :=
  readAsText_append (List.forall_mem_nil _) s

/-! ## Building -/

/-- Is the node a text? -/
def Node.IsText : Node → Prop
  | .text _ _ => True
  | .element _ _ _ => False

theorem placesInAll_eq_nil {nodes : List Node} (h : ∀ node ∈ nodes, node.IsText) (above : List Spot)
    (before : List Node) : placesInAll above before nodes = [] := by
  induction nodes generalizing before with
  | nil => rw [placesInAll]
  | cons node nodes ih =>
    obtain ⟨hnode, hnodes⟩ := List.forall_mem_cons.1 h
    cases node with
    | text kind content => rw [placesInAll, placesIn, ih hnodes, List.nil_append]
    | element tag attrs children => cases hnode

namespace Building

theorem foldl_text (texts : List Text) (work : Building) :
    (texts.map Event.text).foldl step work = { work with pending := texts.reverse ++ work.pending } := by
  induction texts generalizing work with
  | nil => rfl
  | cons text texts ih =>
    rw [List.map_cons, List.foldl_cons, ih, step, Building.text]
    simp

/-- The pending text is added to an open element as one text, if there is any. -/
theorem exists_flush_frame (frame : Frame) (pending : List Text) :
    ∃ texts : List Node, (∀ node ∈ texts, node.IsText) ∧
      ∀ top voids, (⟨[frame], top, pending, voids⟩ : Building).flush =
        ⟨[{ frame with content := texts ++ frame.content }], top, [], voids⟩ := by
  cases pending with
  | nil => exact ⟨[], by simp, fun _ _ => rfl⟩
  | cons piece pieces =>
    let kind := kindHere ⟨[frame], [], [], []⟩
    let content := (piece :: pieces).reverse.flatten
    let kept := [frame].any fun frame => spacedElements.contains frame.tag
    refine ⟨[.text kind (if kept then content else collapse content)], fun node hnode => ?_, fun _ _ => rfl⟩
    rw [List.mem_singleton.1 hnode]
    trivial

/-- An element that is opened where nothing is open and closed behind some text holds texts only. -/
theorem exists_endTag_text (hvoid : tag ∉ voidElements) (attrs : List (Text × Text)) (texts : List Text) :
    ∃ children : List Node, (∀ node ∈ children, node.IsText) ∧ ∀ work, Idle work →
      ((texts.map Event.text).foldl step (work.startTag tag attrs false)).endTag tag =
        ⟨[], .element tag attrs children :: work.flush.top, [], work.closedVoids⟩ := by
  obtain ⟨content, hcontent, hflush⟩ := exists_flush_frame ⟨tag, attrs, []⟩ texts.reverse
  refine ⟨content.reverse, by simpa using hcontent, fun work h => ?_⟩
  have hopen : (texts.map Event.text).foldl step (work.startTag tag attrs false) =
      ⟨[⟨tag, attrs, []⟩], work.flush.top, texts.reverse, work.closedVoids⟩ := by
    rw [foldl_text, startTag, if_neg (by decide), if_neg (by simpa using hvoid), openElement]
    simp [pending_flush, closedVoids_flush, h.frames_flush]
  have hclosed : (⟨[⟨tag, attrs, content⟩], work.flush.top, [], work.closedVoids⟩ : Building).pending = [] := rfl
  have hclose := close_here hclosed rfl
  rw [close, flush_of_pending_nil rfl] at hclose
  rw [hopen, endTag, if_neg (by simpa using h.not_mem_closedVoids hvoid), close, hflush, List.append_nil]
  exact hclose

end Building

/-! ## Elements -/

/-- A text is read, wherever it stands, as a node behind what is built. -/
def ReadsAs (s : Text) (node : Node) : Prop :=
  ∃ events : List Event, (∀ rest, ReadBy s events rest) ∧
    ∀ work, Building.Idle work → Building.Adds node work (events.foldl Building.step work)

section Elements

variable (htag : IsTagName tag) (hraw : tag ∉ rawElements) (hattrs : ∀ attr ∈ attrs, IsTagName attr.1)
  (hdistinct : (attrs.map Prod.fst).Nodup)
include htag hraw hattrs

/-- A start tag in front of a text. -/
theorem ReadBy.startTag {t : Text} {events : List Event} (h : ReadBy t events rest) :
    ReadBy (Markup.startTag tag attrs ++ t) (.startTag tag attrs false :: events) rest := by
  have hstep : ∀ atEnd, step atEnd none (Markup.startTag tag attrs ++ (t ++ rest)) =
      .next [.startTag tag attrs false] none (t ++ rest) := fun atEnd => by
    rw [step_startTag htag hattrs, if_neg (by simpa using hraw)]
  have hne : Markup.startTag tag attrs ≠ [] := List.append_ne_nil_of_right_ne_nil _ (by decide)
  exact h.of_step hne hstep

include hdistinct

/-- A void element is read from its start tag. -/
theorem readsAs_void (hvoid : tag ∈ voidElements) : ReadsAs (Markup.startTag tag attrs) (.element tag attrs []) := by
  refine ⟨[.startTag tag attrs false], fun rest => ?_, fun work hwork => ?_⟩
  · have hread := ReadBy.startTag htag hraw hattrs (.nil rest)
    rwa [List.append_nil] at hread
  · have hopen : work.openElement tag attrs = ⟨[⟨tag, attrs, []⟩], work.flush.top, [], work.closedVoids⟩ := by
      simp only [Building.openElement, hwork.frames_flush, Building.pending_flush, Building.closedVoids_flush]
    have hclosed : (⟨[⟨tag, attrs, []⟩], work.flush.top, [], work.closedVoids⟩ : Building).pending = [] := rfl
    have hclose := Building.close_here hclosed rfl
    have hbuilt : [Event.startTag tag attrs false].foldl Building.step work =
        ⟨[], .element tag attrs [] :: work.flush.top, [], work.closedVoids ++ [tag]⟩ := by
      rw [List.foldl_cons, List.foldl_nil, Building.step, Pairs.ofEntries_eq_self hdistinct, Building.startTag,
        if_neg (by decide), if_pos (by simpa using hvoid), hopen, hclose]
      rfl
    rw [hbuilt]
    exact hwork.adds (List.forall_mem_append.2 ⟨hwork.closedVoids, List.forall_mem_singleton.2 hvoid⟩) _

/-- An element with escaped text is read as an element with texts only. -/
theorem exists_readsAs_element (hvoid : tag ∉ voidElements) (body : Text) :
    ∃ children : List Node, (∀ node ∈ children, node.IsText) ∧
      ReadsAs (Markup.startTag tag attrs ++ escapeValue body ++ Markup.endTag tag) (.element tag attrs children) := by
  obtain ⟨texts, -, htexts⟩ := readAsText_escapeValue body
  obtain ⟨children, hchildren, hbuild⟩ := Building.exists_endTag_text hvoid attrs texts
  refine ⟨children, hchildren, .startTag tag attrs false :: (texts.map Event.text ++ [.endTag tag]), fun rest => ?_,
    fun work hwork => ?_⟩
  · have hshape : Markup.endTag tag = endTag tag := by simp [Markup.endTag, endTag]
    have hend : ReadBy (Markup.endTag tag) [.endTag tag] rest := by
      have hne : endTag tag ≠ [] := List.cons_ne_nil _ _
      have hread := ReadBy.of_step hne (fun atEnd => step_endTag htag atEnd ([] ++ rest)) (.nil rest)
      rwa [List.append_nil, ← hshape] at hread
    have hbody := htexts (Markup.endTag tag ++ rest) (by rw [hshape]; rintro c ⟨⟩; rfl)
    rw [List.append_assoc]
    exact (hbody.append hend).startTag htag hraw hattrs
  · have hbuilt : (Event.startTag tag attrs false :: (texts.map Event.text ++ [.endTag tag])).foldl Building.step work =
        ⟨[], .element tag attrs children :: work.flush.top, [], work.closedVoids⟩ := by
      rw [List.foldl_cons, List.foldl_append, Building.step, Pairs.ofEntries_eq_self hdistinct]
      exact hbuild work hwork
    rw [hbuilt]
    exact hwork.adds hwork.closedVoids _

end Elements

/-- Markup without tags is read as text. -/
theorem exists_ofMarkup_escapeValue (s : Text) :
    ∃ nodes : List Node, (∀ node ∈ nodes, node.IsText) ∧ ofMarkup (escapeValue s) = .ok nodes := by
  obtain ⟨texts, -, htexts⟩ := readAsText_escapeValue s
  have hread := htexts [] (by simp) false
  rw [List.append_nil, readOn_nil, Except.map, List.append_nil] at hread
  have hbuilt : (texts.map Event.text).foldl Building.step .start = ⟨[], [], texts.reverse, []⟩ := by
    rw [Building.foldl_text, Building.start, List.append_nil]
  rw [ofMarkup, events_of_readOn hread, Except.map, ofEvents, hbuilt]
  cases texts.reverse with
  | nil => exact ⟨[], by simp, rfl⟩
  | cons piece pieces =>
    refine ⟨[.text .ordinary (Building.collapse (piece :: pieces).reverse.flatten)], fun node hnode => ?_, rfl⟩
    rw [List.mem_singleton.1 hnode]
    trivial

/-- A row of elements is read as these elements. -/
theorem ofMarkup_flatten {parts : List Text} {nodes : List Node} (h : List.Forall₂ ReadsAs parts nodes) :
    ofMarkup parts.flatten = .ok nodes := by
  have hread : ∃ events, ReadBy parts.flatten events [] ∧
      ∀ work, Building.Idle work → work.pending = [] →
        (events.foldl Building.step work).finish = work.finish ++ nodes := by
    induction h with
    | nil => exact ⟨[], .nil [], fun work _ _ => (List.append_nil _).symm⟩
    | cons hpart _ ih =>
      obtain ⟨first, hfirst, hadds⟩ := hpart
      obtain ⟨events, hevents, hbuild⟩ := ih
      refine ⟨first ++ events, (hfirst _).append hevents, fun work hwork _ => ?_⟩
      have hadded := hadds work hwork
      rw [List.foldl_append, hbuild _ hadded.idle hadded.pending, hadded.finish, List.append_assoc]
      rfl
  obtain ⟨events, hevents, hbuild⟩ := hread
  have hread := hevents false
  rw [List.append_nil, readOn_nil, Except.map, List.append_nil] at hread
  rw [ofMarkup, events_of_readOn hread]
  exact congrArg Except.ok (hbuild .start ⟨rfl, by simp [Building.start]⟩ rfl)

end Html

end TemplateAudit
