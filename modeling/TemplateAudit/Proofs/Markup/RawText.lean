import TemplateAudit.Proofs.Markup.Context

/-!
# The body of a script or style element

The machine that reads markup only keeps the last few characters of such a body.  They are the last of all
that was read of it in small letters (`step_reading`), so the body goes on while the characters read, each
in its small form, do not hold the end tag (`feed_reading`), and ends where they hold it for the first time
(`MeetsEnd.feed`): a small form of more than one character hides no end of it (`MeetsEnd.suffix`).  So the
body ends exactly at its end tag (`body_ends_at_end_tag`).  Written in ASCII letters of any case, an end tag
is met at its last letter, and not before (`meetsEnd_endTag`): its `<` stands at its beginning only, so no
end tag begins in another one.
-/

namespace TemplateAudit

namespace Markup

namespace Context

variable {element s body begun : Text} {c : Char}

/-! ## What the window holds -/

/-- The state in the body of an element when some of it has been read. -/
def reading (element s : Text) : Context :=
  rawText element (lastChars (rawTextEnd element).length (Text.lowerEach s))

theorem reading_nil (element : Text) : reading element [] = rawText element [] := by
  simp [reading, lastChars, Text.lowerEach]

theorem lastChars_append (count : Nat) (a b : Text) :
    lastChars count (lastChars count a ++ b) = lastChars count (a ++ b) := by
  have hdrop : ∀ n, n ≤ a.length → a.drop n ++ b = (a ++ b).drop n :=
    fun n hn => (List.drop_append_of_le_length hn).symm
  rw [lastChars, lastChars, lastChars, hdrop _ (Nat.sub_le _ _), List.drop_drop, List.length_drop]
  congr 1
  simp only [List.length_append]
  omega

theorem lastChars_eq_iff {ending a : Text} : lastChars ending.length a = ending ↔ ending <:+ a := by
  rw [List.suffix_iff_eq_drop, lastChars, eq_comm]

/-- One more character ends the body when the end tag stands at the end of all that was read. -/
theorem step_reading (element s : Text) (c : Char) :
    (reading element s).step c =
      if rawTextEnd element <:+ Text.lowerEach (s ++ [c]) then tag ('/' :: element) false
      else reading element (s ++ [c]) := by
  have hwindow : lastChars (rawTextEnd element).length
      (lastChars (rawTextEnd element).length (Text.lowerEach s) ++ Text.lower [c]) =
      lastChars (rawTextEnd element).length (Text.lowerEach (s ++ [c])) := by
    rw [lastChars_append, Text.lowerEach_append, Text.lowerEach_singleton]
  rw [reading, step, stepRawText]
  simp only [hwindow, lastChars_eq_iff]
  rfl

/-! ## Where an end tag is met -/

/-- Does a text hold the end tag of an element, each of its characters taken in its small form? -/
def HoldsEnd (element s : Text) : Prop :=
  rawTextEnd element <:+: Text.lowerEach s

instance : Decidable (HoldsEnd element s) :=
  inferInstanceAs (Decidable (_ <:+: _))

/-- Does a text hold the end tag of an element, while no shorter beginning of it does? -/
structure MeetsEnd (element s : Text) : Prop where
  holds : HoldsEnd element s
  first : ∀ p, p <+: s → HoldsEnd element p → p = s

theorem not_holdsEnd_nil (element : Text) : ¬HoldsEnd element [] :=
  fun h => List.cons_ne_nil _ _ (List.infix_nil.1 h)

/-- What holds the end tag goes on to hold it. -/
theorem HoldsEnd.mono {t : Text} (h : HoldsEnd element s) (hs : s <+: t) : HoldsEnd element t :=
  List.IsInfix.trans h (hs.flatMap _).isInfix

/-- An end tag is met with the character that completes it. -/
theorem meetsEnd_concat (hbefore : ¬HoldsEnd element s) (h : HoldsEnd element (s ++ [c])) :
    MeetsEnd element (s ++ [c]) where
  holds := h
  first _ hp hholds := (List.prefix_concat_iff.1 hp).resolve_right fun hshort =>
    hbefore (hholds.mono hshort)

theorem MeetsEnd.not_holdsEnd (h : MeetsEnd element (s ++ [c])) : ¬HoldsEnd element s :=
  fun hs => by simpa using h.first s (List.prefix_append s [c]) hs

theorem MeetsEnd.exists_concat (h : MeetsEnd element s) : ∃ p c, s = p ++ [c] := by
  rcases List.eq_nil_or_concat' s with rfl | hconcat
  · exact absurd h.holds (not_holdsEnd_nil element)
  · exact hconcat

/-- A text that holds an end tag meets one. -/
theorem HoldsEnd.exists_meetsEnd (h : HoldsEnd element s) : ∃ met, met <+: s ∧ MeetsEnd element met := by
  induction s using List.reverseRecOn with
  | nil => exact absurd h (not_holdsEnd_nil element)
  | append_singleton s c ih =>
    by_cases hs : HoldsEnd element s
    · obtain ⟨met, hmet, hmeets⟩ := ih hs
      exact ⟨met, List.prefix_append_of_prefix hmet, hmeets⟩
    · exact ⟨s ++ [c], List.prefix_rfl, meetsEnd_concat hs h⟩

/-! ## Through the body and out of it -/

/-- A character that does not complete an end tag goes on with the body. -/
theorem step_reading_of_not_holdsEnd (h : ¬HoldsEnd element (s ++ [c])) :
    (reading element s).step c = reading element (s ++ [c]) := by
  rw [step_reading, if_neg fun hsuffix => h hsuffix.isInfix]

/-- A text without the end tag goes on with the body. -/
theorem feed_reading {before : Text} (h : ¬HoldsEnd element (before ++ s)) :
    (reading element before).feed s = reading element (before ++ s) := by
  induction s generalizing before with
  | nil => rw [List.append_nil]; rfl
  | cons c s ih =>
    rw [List.append_cons] at h ⊢
    have hstep : ¬HoldsEnd element (before ++ [c]) := fun hc => h (hc.mono (List.prefix_append _ s))
    rw [feed_cons, step_reading_of_not_holdsEnd hstep, ih h]

section Elements

variable (helement : element ∈ rawTextElements)
include helement

/-- Where the end tag is met it stands at the end of what was read: no character has a small form that goes
on behind it. -/
theorem MeetsEnd.suffix (h : MeetsEnd element s) : rawTextEnd element <:+ Text.lowerEach s := by
  obtain ⟨p, c, rfl⟩ := h.exists_concat
  have hlast : ∀ raw ∈ rawTextElements, (rawTextEnd raw).getLast? ≠ some 'i' := by decide
  exact Text.suffix_of_infix_lowerEach (hlast element helement) h.not_holdsEnd h.holds

/-- The character that completes the end tag leads out of the body, into a tag. -/
theorem MeetsEnd.step (h : MeetsEnd element (s ++ [c])) :
    (reading element s).step c = tag ('/' :: element) false := by
  rw [step_reading, if_pos (h.suffix helement)]

theorem MeetsEnd.feed (h : MeetsEnd element s) :
    (reading element []).feed s = tag ('/' :: element) false := by
  obtain ⟨p, c, rfl⟩ := h.exists_concat
  rw [feed_append, feed_reading h.not_holdsEnd, List.nil_append, feed_singleton, h.step helement]

/-- Behind an end tag that was met stands a tag up to the next `>`, when no value begins before it. -/
theorem MeetsEnd.feed_behind {met : Text} (h : MeetsEnd element met) (hend : '>' ∉ s) (hvalue : '=' ∉ s) :
    (reading element []).feed (met ++ s) = tag ('/' :: element) false := by
  rw [feed_append, h.feed helement]
  exact feed_attributeName fun c hc => ⟨ne_of_mem_of_not_mem hc hend, ne_of_mem_of_not_mem hc hvalue⟩

/-- The next `>` leads to body text. -/
theorem MeetsEnd.feed_end {met : Text} (h : MeetsEnd element met) (hend : '>' ∉ s) (hvalue : '=' ∉ s) :
    (reading element []).feed (met ++ s ++ ['>']) = data := by
  rw [feed_append, h.feed_behind helement hend hvalue, feed_singleton, step_tag_end, afterTag_slash]

/-! ## End tags in ASCII letters -/

theorem isPlain_rawTextEnd : ∀ c ∈ rawTextEnd element, Text.IsPlain c := by
  have hplain : ∀ raw ∈ rawTextElements,
      (rawTextEnd raw).all (fun c => decide (Text.IsPlain c)) = true := by decide
  exact fun c hc => of_decide_eq_true (List.all_eq_true.1 (hplain element helement) c hc)

/-- The `<` of an end tag stands at its beginning only. -/
theorem not_mem_slash : '<' ∉ '/' :: element := by
  have hslash : ∀ raw ∈ rawTextElements, '<' ∉ '/' :: raw := by decide
  exact hslash element helement

/-- An end tag is held in ASCII letters. -/
theorem HoldsEnd.infix_map_toLower (h : HoldsEnd element s) :
    rawTextEnd element <:+: s.map Char.toLower := by
  obtain ⟨met, hmet, hmeets⟩ := h.exists_meetsEnd
  have hsuffix := Text.suffix_map_toLower (isPlain_rawTextEnd helement) (hmeets.suffix helement)
  exact hsuffix.isInfix.trans (hmet.map Char.toLower).isInfix

/-- No end tag is met where the beginning of one follows. -/
theorem not_suffix_of_begun {rest : Text} (hne : begun ≠ []) (hrest : rest ≠ [])
    (hbegun : begun.map Char.toLower ++ rest = rawTextEnd element) :
    ¬rawTextEnd element <:+ Text.lowerEach (body ++ begun) := by
  intro hmet
  have hsuffix := Text.suffix_map_toLower (isPlain_rawTextEnd helement) hmet
  rw [List.map_append] at hsuffix
  -- the beginning is shorter than the whole, so the whole would hold a second `<`
  have hlength := congrArg List.length hbegun
  have hpos := List.length_pos_iff.2 hrest
  rw [List.length_append] at hlength
  obtain ⟨front, hfront⟩ : begun.map Char.toLower <:+ rawTextEnd element :=
    List.suffix_of_suffix_length_le (List.suffix_append _ _) hsuffix (by omega)
  obtain ⟨c, begun', hcons⟩ := List.exists_cons_of_ne_nil (mt List.map_eq_nil_iff.1 hne)
  rw [hcons] at hbegun hfront
  obtain rfl : c = '<' := (List.cons.inj hbegun).1
  cases front with
  | nil =>
    rw [List.nil_append] at hfront
    rw [hcons, hfront] at hlength
    omega
  | cons d front =>
    have htail := (List.cons.inj hfront).2
    exact not_mem_slash helement (by rw [← htail]; simp)

section EndTag

variable {name : Text} (hname : name.map Char.toLower = element)
include hname

omit helement in
theorem map_toLower_endTag : ('<' :: '/' :: name).map Char.toLower = rawTextEnd element := by
  rw [List.map_cons, List.map_cons, hname]
  rfl

/-- The end tag is met when its name is complete, in whichever case it is written. -/
theorem suffix_reading_end : rawTextEnd element <:+ Text.lowerEach (body ++ '<' :: '/' :: name) := by
  have hending := map_toLower_endTag hname
  have hascii : ∀ c ∈ '<' :: '/' :: name, c.toNat < 128 := by
    intro c hc
    have hplain := isPlain_rawTextEnd helement c.toLower (hending ▸ List.mem_map_of_mem hc)
    by_cases hupper : c.isUpper = true
    · have := Text.isUpper_iff.1 hupper
      omega
    · rw [Text.toLower_of_not_isUpper (Bool.eq_false_iff.2 hupper)] at hplain
      exact hplain.2.1
  rw [Text.lowerEach_append, Text.lowerEach_of_ascii hascii, hending]
  exact List.suffix_append _ _

/-- Behind a body without an end tag none is met before the whole of it is read. -/
theorem eq_of_suffix {p : Text} (hbody : ¬HoldsEnd element body) (hp : p <+: body ++ '<' :: '/' :: name)
    (h : rawTextEnd element <:+ Text.lowerEach p) : p = body ++ '<' :: '/' :: name := by
  rcases List.prefix_or_prefix_of_prefix hp (List.prefix_append body _) with hwithin | ⟨begun, rfl⟩
  · exact absurd (HoldsEnd.mono h.isInfix hwithin) hbody
  · obtain ⟨rest, hrest⟩ := (List.prefix_append_right_inj body).1 hp
    have hending : begun.map Char.toLower ++ rest.map Char.toLower = rawTextEnd element := by
      rw [← List.map_append, hrest, map_toLower_endTag hname]
    rcases eq_or_ne begun [] with rfl | hbegun
    · rw [List.append_nil] at h
      exact absurd h.isInfix hbody
    · rcases eq_or_ne rest [] with rfl | hne
      · rw [← hrest, List.append_nil]
      · exact absurd h (not_suffix_of_begun helement hbegun (mt List.map_eq_nil_iff.1 hne) hending)

/-- An end tag in ASCII letters of any case is met at its last letter. -/
theorem meetsEnd_endTag (hbody : ¬HoldsEnd element body) :
    MeetsEnd element (body ++ '<' :: '/' :: name) where
  holds := (suffix_reading_end helement hname).isInfix
  first p hp hholds := by
    obtain ⟨met, hmet, hmeets⟩ := hholds.exists_meetsEnd
    have hwhole := eq_of_suffix helement hname hbody (hmet.trans hp) (hmeets.suffix helement)
    exact hp.eq_of_length_le (by rw [← hwhole]; exact hmet.length_le)

end EndTag

end Elements

/-- Text without a `<` holds no end tag. -/
theorem not_holdsEnd_of_not_mem (h : '<' ∉ s) : ¬HoldsEnd element s := by
  intro hholds
  have hlt : '<' ∈ Text.lowerEach s := hholds.subset List.mem_cons_self
  obtain ⟨c, hc, hlower⟩ := List.mem_flatMap.1 hlt
  obtain rfl := Text.eq_of_mem_lower (by decide) (by decide) hlower
  exact h hc

/-- What an element writes as its end tag is the end of a body, and a newline that may follow the name. -/
theorem endTag_eq {tag : Text} (htag : IsTagOf element tag) :
    ∃ s, endTag tag = rawTextEnd element ++ s ++ ['>'] ∧ '>' ∉ s ∧ '=' ∉ s := by
  rcases htag.eq with rfl | rfl
  · exact ⟨[], by simp [endTag, rawTextEnd], by decide, by decide⟩
  · exact ⟨['\n'], by simp [endTag, rawTextEnd], by decide, by decide⟩

/-- **From where an element begins, body text without a `<` and the end tag lead back to body text.** -/
theorem feed_body_endTag {tag : Text} (htag : IsTagOf element tag) (hbody : '<' ∉ body) :
    (afterTag element).feed (body ++ endTag tag) = data := by
  rw [afterTag_of_isElementName htag.name]
  split
  · rename_i helement
    have hsmall : element.map Char.toLower = element :=
      (List.map_congr_left fun c hc => Text.toLower_of_not_isUpper (htag.name.isSmall c hc).2).trans
        (List.map_id element)
    have hmeets : MeetsEnd element (body ++ rawTextEnd element) :=
      meetsEnd_endTag helement hsmall (not_holdsEnd_of_not_mem hbody)
    obtain ⟨s, htext, hend, hvalue⟩ := endTag_eq htag
    rw [← reading_nil, htext, ← List.append_assoc, ← List.append_assoc]
    exact hmeets.feed_end helement hend hvalue
  · rw [feed_append, feed_data hbody, feed_endTag htag]

/-! ## From the entry into the body -/

/-- The body of an element has just been entered: the last character of the markup read so far led there. -/
structure HasEntered (earlier element : Text) : Prop where
  before : (data.feed earlier.dropLast).inRawText = false
  inside : ∃ window, data.feed earlier = rawText element window

theorem eq_of_afterTag {name window : Text} (h : afterTag name = rawText element window) :
    element ∈ rawTextElements ∧ window = [] := by
  simp only [afterTag] at h
  split at h
  · rename_i hraw
    cases h
    exact ⟨hraw, rfl⟩
  · cases h

/-- Only the `>` of a tag leads into a body, and nothing has been read of the body then. -/
theorem eq_of_step {context : Context} {window : Text} (hbefore : context.inRawText = false)
    (h : context.step c = rawText element window) : element ∈ rawTextElements ∧ window = [] := by
  cases context with
  | rawText => cases hbefore
  | data | lt | bang | bangDash | comment | doubleQuoted | singleQuoted =>
    simp only [step] at h
    split_ifs at h
  | tag | beforeValue | unquoted =>
    simp only [step] at h
    split_ifs at h
    exact eq_of_afterTag h

theorem HasEntered.feed_eq {earlier : Text} (h : HasEntered earlier element) :
    element ∈ rawTextElements ∧ data.feed earlier = reading element [] := by
  obtain ⟨hbefore, window, hinside⟩ := h
  rcases List.eq_nil_or_concat' earlier with rfl | ⟨p, c, rfl⟩
  · cases hinside
  · rw [List.dropLast_concat] at hbefore
    have hstep : (data.feed p).step c = rawText element window := by
      rw [← hinside, feed_append, feed_singleton]
    obtain ⟨helement, rfl⟩ := eq_of_step hbefore hstep
    exact ⟨helement, by rw [hinside, reading_nil]⟩

/-- The state is the one that belongs to what was read from the beginning of a body on: the body while no
end tag was met, a tag from there up to the next `>`, and body text behind that. -/
structure StandsBehind (element read : Text) (context : Context) : Prop where
  inBody : ¬HoldsEnd element read → ∃ window, context = rawText element window
  inEndTag : ∀ met s, read = met ++ s → MeetsEnd element met → '>' ∉ s → '=' ∉ s →
    context = tag ('/' :: element) false
  behindEndTag : ∀ met s, read = met ++ s ++ ['>'] → MeetsEnd element met → '>' ∉ s → '=' ∉ s →
    context = data

theorem standsBehind_feed (helement : element ∈ rawTextElements) (read : Text) :
    StandsBehind element read ((reading element []).feed read) where
  inBody hread := ⟨_, feed_reading hread⟩
  inEndTag met s hread hmet hend hvalue := by
    rw [hread, hmet.feed_behind helement hend hvalue]
  behindEndTag met s hread hmet hend hvalue := by
    rw [hread, hmet.feed_end helement hend hvalue]

/-- A text leads nowhere out of the body exactly when it does not hold the end tag. -/
theorem inRawText_reading_iff (helement : element ∈ rawTextElements) (t : Text) :
    (∀ p, p <+: t → ((reading element []).feed p).inRawText = true) ↔ ¬HoldsEnd element t := by
  constructor
  · intro hstays hholds
    obtain ⟨met, hmet, hmeets⟩ := hholds.exists_meetsEnd
    have hinside := hstays met hmet
    rw [hmeets.feed helement] at hinside
    cases hinside
  · intro hnot p hp
    have hread : (reading element []).feed p = reading element p := feed_reading fun h => hnot (h.mono hp)
    rw [hread]
    rfl

/-- **The body of a script or style element ends exactly at its end tag**, whatever was read before it and
in whatever chunks it is fed: it lasts while the text, put in small letters character by character, does
not hold the end tag, the character that completes it leads into a tag, and the next `>` from there to
body text.  Nothing else leads out of the body. -/
theorem body_ends_at_end_tag {earlier element : Text} (hentered : HasEntered earlier element) (t : Text) :
    (∀ chunks : List Text, chunks.flatten <+: t →
      StandsBehind element chunks.flatten (chunks.foldl feed (data.feed earlier))) ∧
    ((∀ chunks : List Text, chunks.flatten <+: t →
      (chunks.foldl feed (data.feed earlier)).inRawText = true) ↔ ¬HoldsEnd element t) := by
  obtain ⟨helement, hfeed⟩ := hentered.feed_eq
  simp only [feed_chunks, hfeed]
  refine ⟨fun chunks _ => standsBehind_feed helement chunks.flatten, ?_⟩
  rw [← inRawText_reading_iff helement]
  refine ⟨fun hstays p hp => ?_, fun hstays chunks hchunks => hstays _ hchunks⟩
  have hchunk := hstays [p]
  rw [List.flatten_singleton] at hchunk
  exact hchunk hp

/-- Beginnings of an end tag, a dotted capital i in one and the end tag of another element stay in the
body; the end tag that overlaps with such a beginning leads out of it. -/
theorem body_ends_at_end_tag_overlapping :
    let earlier := "<p>1<2</p><Script async>".toList
    let body := "a<b '-->' </style> </scrİpt <</scr".toList
    let state := fun chunks : List Text => chunks.foldl feed (data.feed earlier)
    HasEntered earlier "script".toList ∧
      (∃ window, state [body, "</SCRIP".toList] = rawText "script".toList window) ∧
      state [body ++ "</SC".toList, "RIPT".toList] = tag "/script".toList false ∧
      state [body, "</SCRIPT".toList, " x'>".toList] = data := by
  intro earlier body state
  have hentered : HasEntered earlier "script".toList := ⟨by decide +kernel, [], by decide +kernel⟩
  have hmeets : MeetsEnd "script".toList (body ++ "</SCRIP".toList ++ ['T']) :=
    meetsEnd_concat (by decide +kernel) (by decide +kernel)
  have hends := (body_ends_at_end_tag hentered (body ++ "</SCRIPT x'>".toList)).1
  refine ⟨hentered, ?_, ?_, ?_⟩
  · exact (hends [body, "</SCRIP".toList] (by decide +kernel)).inBody (by decide +kernel)
  · exact (hends [body ++ "</SC".toList, "RIPT".toList] (by decide +kernel)).inEndTag _ [] rfl hmeets
      (by decide) (by decide)
  · exact (hends [body, "</SCRIPT".toList, " x'>".toList] (by decide +kernel)).behindEndTag _ " x'".toList rfl
      hmeets (by decide) (by decide)

end Context

end Markup

end TemplateAudit
