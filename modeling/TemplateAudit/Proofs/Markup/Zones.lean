import TemplateAudit.Markup.Piece
import TemplateAudit.Proofs.Markup.RawText

/-!
# Well-formed markup is read as it is meant

`Leads` says that reading a marked text leads through the zones it is marked with.  Each construct of
well-formed markup does so: values and attributes (`leads_attrs`), tags (`leads_tag`), comments
(`leads_comment`), script and style elements (`leads_rawElement`).  The exception are tags whose name goes
on behind `script` or `style` with a sign other than a hyphen, such as `style_guide-card`: their name is
read up to the sign only.  So markup is classified as it is meant at every place, in whatever chunks it is
fed, exactly when it holds no such tag (`classifies_feed_iff`).
-/

namespace TemplateAudit

namespace Markup

open Context

variable {context context' context'' : Context} {marked marked' : MarkedText} {name s : Text}

/-! ## Reading marked text -/

/-- Reading a marked text leads from one state to another through the zones it is marked with. -/
inductive Leads : Context → MarkedText → Context → Prop where
  | done (context : Context) : Leads context [] context
  | step {context last : Context} {c : Char} {zone : Zone} {rest : MarkedText}
      (hzone : (context.step c).zone = zone) (hrest : Leads (context.step c) rest last) :
      Leads context ((c, zone) :: rest) last

namespace Leads

theorem append (h : Leads context marked context') (h' : Leads context' marked' context'') :
    Leads context (marked ++ marked') context'' := by
  induction h with
  | done context => exact h'
  | step hzone _ ih => exact .step hzone (ih h')

theorem one {c : Char} {zone : Zone} (hstep : context.step c = context')
    (hzone : context'.zone = zone) : Leads context [(c, zone)] context' := by
  obtain rfl := hstep
  exact .step hzone (.done _)

theorem feed (h : Leads context marked context') : context.feed (marked.map Prod.fst) = context' := by
  induction h with
  | done context => rfl
  | step _ _ ih => exact ih

/-- Text that leaves a state as it is. -/
theorem on {zone : Zone} (hzone : context.zone = zone) (h : ∀ c ∈ s, context.step c = context) :
    Leads context (zone.on s) context := by
  induction s with
  | nil => exact .done context
  | cons c s ih =>
    obtain ⟨hc, hs⟩ := List.forall_mem_cons.1 h
    exact (one hc hzone).append (ih hs)

/-- Text that leads through the states that stand for what was read so far. -/
theorem along (state : Text → Context) {zone : Zone} (hzone : ∀ read, (state read).zone = zone)
    (before : Text) (hstep : ∀ p c, p ++ [c] <+: s →
      (state (before ++ p)).step c = state (before ++ p ++ [c])) :
    Leads (state before) (zone.on s) (state (before ++ s)) := by
  induction s generalizing before with
  | nil => rw [List.append_nil]; exact .done _
  | cons c s ih =>
    have hfirst : (state before).step c = state (before ++ [c]) := by
      have hnone := hstep [] c (List.cons_prefix_cons.2 ⟨rfl, List.nil_prefix⟩)
      rwa [List.append_nil] at hnone
    have hrest := ih (before ++ [c]) fun p d hp => by
      have hlater := hstep (c :: p) d (List.cons_prefix_cons.2 ⟨rfl, hp⟩)
      rwa [List.append_cons] at hlater
    rw [List.append_cons]
    exact (one hfirst (hzone _)).append hrest

/-- The zone behind any number of characters is the one that the last of them is marked with. -/
theorem zone_take (h : Leads context marked context') (count : Nat) :
    (context.feed ((marked.take count).map Prod.fst)).zone =
      ((marked.take count).getLast?.map Prod.snd).getD context.zone := by
  induction h generalizing count with
  | done context => rw [List.take_nil]; rfl
  | @step context _ c zone rest hzone _ ih =>
    cases count with
    | zero => rfl
    | succ count =>
      have hfeed : context.feed (((((c, zone) :: rest).take (count + 1)).map Prod.fst)) =
          (context.step c).feed ((rest.take count).map Prod.fst) := rfl
      rw [hfeed, ih, List.take_succ_cons, List.getLast?_cons]
      cases (rest.take count).getLast? <;> simp [hzone]

end Leads

/-! ## Characters of tags -/

/-- White space stands in no name of a tag. -/
theorem step_tag_of_isBlank {c : Char} {naming : Bool} (h : Text.isBlank c = true) :
    (Context.tag name naming).step c = .tag name false := by
  have hname : Text.isLetterOrNumeral c = false := by
    refine Bool.eq_false_iff.2 fun hletter => ?_
    rw [Text.isBlank_of_isWordChar (by rw [Text.isWordChar, hletter, Bool.or_true])] at h
    cases h
  refine step_tag ?_ ?_ ?_
  · rw [hname, Bool.false_or, decide_eq_false_iff_not]
    rintro rfl
    cases h
  · rintro rfl
    cases h
  · rintro rfl
    cases h

theorem ne_of_isNameChar {c : Char} (h : isNameChar c = true) : c ≠ '>' ∧ c ≠ '=' := by
  constructor <;> rintro rfl <;> revert h <;> decide

theorem leads_space (h : IsSpace s) : Leads (.tag name false) (Zone.on .tag s) (.tag name false) :=
  .on rfl fun c hc => step_tag_of_isBlank (h c hc)

theorem leads_attrName (h : IsName s) : Leads (.tag name false) (Zone.on .tag s) (.tag name false) := by
  refine .on rfl fun c hc => ?_
  obtain ⟨hend, hvalue⟩ := ne_of_isNameChar (h c hc)
  rw [step, Bool.false_and, if_neg (by decide), if_neg hend, if_neg hvalue]

/-! ## Values -/

/-- Is the state one in which the next thing in a tag may follow white space or end the tag?  A value
without quotes need not have ended yet. -/
inductive Between (name : Text) (unquoted : Bool) : Context → Prop where
  | tag (naming : Bool) : Between name unquoted (.tag name naming)
  | value (h : unquoted = true) : Between name unquoted (.unquoted name)

theorem Between.mono {unquoted : Bool} (h : Between name unquoted context) :
    Between name true context := by
  cases h with
  | tag naming => exact .tag naming
  | value => exact .value rfl

theorem Between.step_blank {unquoted : Bool} {c : Char} (h : Between name unquoted context)
    (hc : Text.isBlank c = true) : context.step c = .tag name false := by
  cases h with
  | tag naming => exact step_tag_of_isBlank hc
  | value =>
    have hend : c ≠ '>' := by
      rintro rfl
      cases hc
    rw [step, if_neg hend, if_pos hc]

theorem Between.step_end {unquoted : Bool} (h : Between name unquoted context) :
    context.step '>' = afterTag name := by
  cases h with
  | tag naming => exact step_tag_end
  | value => rfl

theorem leads_unquoted (h : Quoting.Fits s .none) :
    Leads (.beforeValue name) (Zone.on .unquoted s) (.unquoted name) := by
  obtain ⟨hne, hall, hhead⟩ := h
  obtain ⟨c, s, rfl⟩ := List.exists_cons_of_ne_nil hne
  obtain ⟨hc, hs⟩ := List.forall_mem_cons.1 hall
  obtain ⟨hdouble, hsingle⟩ := hhead c rfl
  have hfirst : (Context.beforeValue name).step c = .unquoted name := by
    rw [step, if_neg hdouble, if_neg hsingle, if_neg hc.2, if_neg (by simp [hc.1])]
  have hrest : Leads (.unquoted name) (Zone.on .unquoted s) (.unquoted name) :=
    .on rfl fun d hd => by rw [step, if_neg (hs d hd).2, if_neg (by simp [(hs d hd).1])]
  exact (Leads.one hfirst rfl).append hrest

theorem leads_content (name : Text) {value : AttrValue} (h : value.quoting.Fits value.content) :
    ∃ context, Between name (value.quoting == .none) context ∧
      Leads (.beforeValue name) value.markedContent context := by
  rw [AttrValue.markedContent]
  cases hquoting : value.quoting with
  | double =>
    rw [hquoting] at h
    have hcontent : Leads (.doubleQuoted name) (Zone.on .doubleQuoted value.content)
        (.doubleQuoted name) := .on rfl fun c hc => if_neg (ne_of_mem_of_not_mem hc h)
    exact ⟨.tag name false, .tag false,
      .append (.append (Leads.one rfl rfl) hcontent) (Leads.one rfl rfl)⟩
  | single =>
    rw [hquoting] at h
    have hcontent : Leads (.singleQuoted name) (Zone.on .singleQuoted value.content)
        (.singleQuoted name) := .on rfl fun c hc => if_neg (ne_of_mem_of_not_mem hc h)
    exact ⟨.tag name false, .tag false,
      .append (.append (Leads.one rfl rfl) hcontent) (Leads.one rfl rfl)⟩
  | none =>
    rw [hquoting] at h
    exact ⟨.unquoted name, .value rfl, leads_unquoted h⟩

theorem leads_value (name : Text) {value : AttrValue} (h : value.WellFormed) :
    ∃ context, Between name (value.quoting == .none) context ∧
      Leads (.tag name false) value.marked context := by
  obtain ⟨hbefore, hafter, hcontent⟩ := h
  obtain ⟨context, hbetween, hleads⟩ := leads_content name hcontent
  have hequals : Leads (.tag name false) [('=', .beforeValue)] (.beforeValue name) := .one rfl rfl
  have hspace : Leads (.beforeValue name) (Zone.on .beforeValue value.after) (.beforeValue name) := by
    refine .on rfl fun c hc => ?_
    have hblank := hafter c hc
    have hne : ∀ d, Text.isBlank d = false → c ≠ d := by
      rintro d hd rfl
      rw [hd] at hblank
      cases hblank
    rw [step, if_neg (hne _ (by decide)), if_neg (hne _ (by decide)), if_neg (hne _ (by decide)),
      if_pos hblank]
  refine ⟨context, hbetween, ?_⟩
  exact ((leads_space hbefore).append (hequals.append hspace)).append hleads

/-! ## Tags -/

/-- Is the value of an attribute written without quotes? -/
def Attr.isUnquoted (attr : Attr) : Bool :=
  attr.value.any fun value => value.quoting == .none

theorem leads_attr {attr : Attr} {unquoted : Bool} (h : attr.WellFormed)
    (hbetween : Between name unquoted context) :
    ∃ context', Between name attr.isUnquoted context' ∧ Leads context attr.marked context' := by
  obtain ⟨hne, hspace, hattrName, hvalue⟩ := h
  obtain ⟨c, space, hcons⟩ := List.exists_cons_of_ne_nil hne
  rw [hcons] at hspace
  obtain ⟨hc, hspace⟩ := List.forall_mem_cons.1 hspace
  have hfront : Leads context (Zone.on .tag attr.space ++ Zone.on .tag attr.name) (.tag name false) := by
    rw [hcons]
    exact ((Leads.one (hbetween.step_blank hc) rfl).append (leads_space hspace)).append
      (leads_attrName hattrName)
  rw [Attr.marked, Attr.isUnquoted]
  cases hwritten : attr.value with
  | none => exact ⟨.tag name false, .tag false, hfront.append (.done _)⟩
  | some value =>
    obtain ⟨context', hbetween', hleads⟩ := leads_value name (hvalue value hwritten)
    exact ⟨context', hbetween', hfront.append hleads⟩

/-- Attributes lead from one place between attributes to the next. -/
theorem leads_attrs {attrs : List Attr} (h : ∀ attr ∈ attrs, attr.WellFormed) {unquoted : Bool}
    (hbetween : Between name unquoted context) :
    ∃ context', Between name ((attrs.getLast?.map Attr.isUnquoted).getD unquoted) context' ∧
      Leads context (attrs.flatMap Attr.marked) context' := by
  induction attrs generalizing context unquoted with
  | nil => exact ⟨context, hbetween, .done context⟩
  | cons attr attrs ih =>
    obtain ⟨hattr, hattrs⟩ := List.forall_mem_cons.1 h
    obtain ⟨middle, hmiddle, hfirst⟩ := leads_attr hattr hbetween
    obtain ⟨last, hlast, hrest⟩ := ih hattrs hmiddle
    refine ⟨last, ?_, hfirst.append hrest⟩
    rw [List.getLast?_cons]
    cases hends : attrs.getLast? <;> simpa [hends] using hlast

/-- What follows the name of a tag leads to a place where the tag may end. -/
theorem leads_markedRest (name : Text) (naming : Bool) {t : Tag} (h : t.WellFormed) :
    ∃ context, Between name true context ∧ Leads (.tag name naming) t.markedRest context := by
  obtain ⟨-, hattrs, hspace, hslash⟩ := h
  have hbegin : Between name false (.tag name naming) := .tag naming
  obtain ⟨middle, hmiddle, hleads⟩ := leads_attrs hattrs hbegin
  -- behind white space no value is left open
  obtain ⟨behind, hbehind, hwhite⟩ : ∃ behind, Between name t.endsUnquoted behind ∧
      Leads middle (Zone.on .tag t.space) behind := by
    rw [Tag.endsUnquoted]
    cases hcons : t.space with
    | nil =>
      refine ⟨middle, ?_, .done middle⟩
      rw [List.isEmpty_nil, Bool.true_and]
      cases hends : t.attrs.getLast? <;> simpa [hends, Attr.isUnquoted] using hmiddle
    | cons c space =>
      rw [hcons] at hspace
      obtain ⟨hc, hspace⟩ := List.forall_mem_cons.1 hspace
      exact ⟨.tag name false, .tag false,
        (Leads.one (hmiddle.step_blank hc) rfl).append (leads_space hspace)⟩
  rw [Tag.markedRest]
  by_cases hwritten : t.slash = true
  · rw [if_pos hwritten]
    rw [hslash hwritten] at hbehind
    obtain ⟨naming'⟩ | ⟨⟨⟩⟩ := hbehind
    have hsign : (Context.tag name naming').step '/' = .tag name false :=
      step_tag (by decide) (by decide) (by decide)
    exact ⟨.tag name false, .tag false, (hleads.append hwhite).append (.one hsign rfl)⟩
  · rw [if_neg hwritten]
    exact ⟨behind, hbehind.mono, (hleads.append hwhite).append (.done behind)⟩

/-- The rest of a tag and its `>` lead to where its name says. -/
theorem leads_markedRest_end (naming : Bool) {t : Tag} {zone : Zone} (h : t.WellFormed)
    (hzone : (afterTag name).zone = zone) :
    Leads (.tag name naming) (t.markedRest ++ [('>', zone)]) (afterTag name) := by
  obtain ⟨context, hbetween, hleads⟩ := leads_markedRest name naming h
  exact hleads.append (.one hbetween.step_end hzone)

/-- Does the character go on with the name of a tag? -/
def goesOn (c : Char) : Bool :=
  Text.isLetterOrNumeral c || c == '-'

theorem goesOn_of_isAlpha {c : Char} (h : c.isAlpha = true) : goesOn c = true := by
  have hcode := Text.toNat_of_isAlpha h
  rw [goesOn, Text.isLetterOrNumeral, if_pos (by omega), Char.isAlphanum, h]
  rfl

/-- A name is read up to the first character that does not go on with it. -/
theorem leads_name (h : IsName s) (name : Text) :
    ∃ naming, Leads (.tag name true) (Zone.on .tag s) (.tag (name ++ s.takeWhile goesOn) naming) := by
  induction s generalizing name with
  | nil => exact ⟨true, by rw [List.takeWhile_nil, List.append_nil]; exact .done _⟩
  | cons c s ih =>
    obtain ⟨hc, hs⟩ := List.forall_mem_cons.1 h
    by_cases hgoes : goesOn c = true
    · have hstep : (Context.tag name true).step c = .tag (name ++ [c]) true := by
        rw [step, Bool.true_and]
        exact if_pos (by simpa [goesOn] using hgoes)
      obtain ⟨naming, hleads⟩ := ih hs (name ++ [c])
      refine ⟨naming, ?_⟩
      rw [List.takeWhile_cons_of_pos hgoes, List.append_cons]
      exact (Leads.one hstep rfl).append hleads
    · obtain ⟨hend, hvalue⟩ := ne_of_isNameChar hc
      have hstep : (Context.tag name true).step c = .tag name false :=
        step_tag (by simpa [goesOn] using hgoes) hend hvalue
      refine ⟨false, ?_⟩
      rw [List.takeWhile_cons_of_neg hgoes, List.append_nil]
      exact (Leads.one hstep rfl).append (leads_attrName hs)

/-- The part of the name of a tag that is read as its name. -/
def Tag.readName (t : Tag) : Text :=
  t.name.takeWhile goesOn

/-- A start tag leads to where the part of its name says that is read. -/
theorem leads_tag {t : Tag} (zone : Zone) (h : t.WellFormed)
    (hletter : t.name.head?.any Char.isAlpha = true) (hzone : (afterTag t.readName).zone = zone) :
    Leads .data (('<', .opening) :: Zone.on .tag t.name ++ t.markedRest ++ [('>', zone)])
      (afterTag t.readName) := by
  obtain ⟨c, hc, halpha⟩ := (Option.any_eq_true _ _).1 hletter
  obtain ⟨rest, hcons⟩ := List.head?_eq_some_iff.1 hc
  have hcode := Text.toNat_of_isAlpha halpha
  have hisLetter : Text.isLetter c = true := by rw [Text.isLetter, if_pos (by omega), halpha]
  have hgoes : goesOn c = true := goesOn_of_isAlpha halpha
  have hopen : lt.step c = .tag [c] true := by
    rw [step, hisLetter]
    rfl
  have hrest : IsName rest := fun d hd => h.1 d (by rw [hcons]; exact List.mem_cons_of_mem _ hd)
  obtain ⟨naming, hname⟩ := leads_name hrest [c]
  have hread : t.readName = [c] ++ rest.takeWhile goesOn := by
    rw [Tag.readName, hcons, List.takeWhile_cons_of_pos hgoes]
    rfl
  rw [hread] at hzone ⊢
  have hend := leads_markedRest_end naming h hzone
  have hbegin : Leads .data [('<', .opening)] lt := .one rfl rfl
  rw [hcons, List.append_assoc]
  exact (hbegin.append ((Leads.one hopen rfl).append hname)).append hend

theorem leads_endTag {t : Tag} (h : t.WellFormed) : Leads .data (Piece.endTag t).marked .data := by
  obtain ⟨naming, hname⟩ := leads_name h.1 ['/']
  have hzone : (afterTag ('/' :: t.readName)).zone = .body := by
    rw [afterTag_slash]
    rfl
  have hend := leads_markedRest_end naming h hzone
  have hbegin : Leads .data [('<', .opening), ('/', .tag)] (.tag ['/'] true) :=
    .step rfl (.step rfl (.done _))
  rw [afterTag_slash] at hend
  rw [Piece.marked, List.append_assoc]
  exact (hbegin.append hname).append hend

/-! ## Comments and document types -/

/-- A comment after all that was read of it and of the hyphens in front; it may end behind two
hyphens. -/
def commenting (before : Text) : Context :=
  .comment (min (before.reverse.takeWhile (· == '-')).length 2)

theorem commenting_dash (before : Text) :
    (commenting before).step '-' = commenting (before ++ ['-']) := by
  simp only [commenting, List.reverse_append, List.reverse_singleton, List.singleton_append, beq_self_eq_true,
    List.takeWhile_cons_of_pos, List.length_cons, step]
  rw [if_neg (by simp), if_pos trivial]
  congr 1
  omega

theorem commenting_step {before : Text} {c : Char} (hc : c ≠ '-')
    (hend : ¬['-', '-', '>'] <:+ before ++ [c]) :
    (commenting before).step c = commenting (before ++ [c]) := by
  have hnext : commenting (before ++ [c]) = .comment 0 := by simp [commenting, hc]
  rw [hnext, commenting, step, if_neg hc]
  refine if_neg fun hcond => hend ?_
  simp only [Bool.and_eq_true, decide_eq_true_eq] at hcond
  obtain ⟨rfl, hdashes⟩ := hcond
  -- two hyphens at the end, since the row of hyphens there is that long
  have hrow : List.replicate 2 '-' <+: before.reverse := by
    have hprefix : before.reverse.takeWhile (· == '-') <+: before.reverse := List.takeWhile_prefix _
    have hall : before.reverse.takeWhile (· == '-') =
        List.replicate (before.reverse.takeWhile (· == '-')).length '-' :=
      List.eq_replicate_iff.2 ⟨rfl, fun d hd => by simpa using List.mem_takeWhile_imp hd⟩
    refine List.IsPrefix.trans ?_ hprefix
    rw [hall]
    exact (List.prefix_replicate_iff).2 ⟨by simp; omega, by simp⟩
  have hsuffix : ['-', '-'] <:+ before := List.reverse_prefix.1 hrow
  obtain ⟨front, rfl⟩ := hsuffix
  exact ⟨front, by simp⟩

theorem leads_commenting {before : Text} (h : ∀ p, p <+: s → ¬['-', '-', '>'] <:+ before ++ p) :
    Leads (commenting before) (Zone.on .comment s) (commenting (before ++ s)) := by
  refine .along commenting (fun _ => rfl) before fun p c hp => ?_
  by_cases hdash : c = '-'
  · rw [hdash, commenting_dash]
  · refine commenting_step hdash ?_
    rw [List.append_assoc]
    exact h _ hp

/-- What ends a comment is not met in the comment, the hyphens in front of it included. -/
theorem not_suffix_of_comment (h : (Piece.comment s).WellFormed) (p : Text) (hp : p <+: s) :
    ¬['-', '-', '>'] <:+ ['-', '-'] ++ p := by
  obtain ⟨hend, hdash, hwithin⟩ := h
  rintro ⟨front, hfront⟩
  match front, hfront with
  | [], hfront =>
    obtain rfl : ['>'] = p := by simpa using hfront
    exact hend hp
  | [_], hfront =>
    obtain rfl : ['-', '>'] = p := by simpa using (List.cons.inj hfront).2
    exact hdash hp
  | _ :: _ :: front, hfront =>
    have hsuffix : ['-', '-', '>'] <:+ p := ⟨front, (List.cons.inj (List.cons.inj hfront).2).2⟩
    exact hwithin (hsuffix.isInfix.trans hp.isInfix)

theorem leads_comment (h : (Piece.comment s).WellFormed) :
    Leads .data (Piece.comment s).marked .data := by
  have hopen : Leads .data [('<', .opening), ('!', .bang), ('-', .bangDash), ('-', .comment)]
      (commenting ['-', '-']) :=
    .step rfl (.step rfl (.step rfl (.step rfl (.done _))))
  have hclose : Leads (commenting (['-', '-'] ++ s)) [('-', .comment), ('-', .comment), ('>', .body)]
      .data := by
    refine (Leads.one (commenting_dash _) rfl).append ((Leads.one (commenting_dash _) rfl).append
      (Leads.one ?_ rfl))
    simp [commenting, step]
  exact (hopen.append (leads_commenting (not_suffix_of_comment h))).append hclose

theorem leads_doctype (h : (Piece.doctype s).WellFormed) :
    Leads .data (Piece.doctype s).marked .data := by
  have hopen : Leads .data [('<', .opening), ('!', .bang), ('D', .tag)] (.tag [] false) :=
    .step rfl (.step rfl (.step rfl (.done _)))
  have hcontent : Leads (.tag [] false) (Zone.on .tag ("OCTYPE".toList ++ s)) (.tag [] false) := by
    refine .on rfl fun c hc => ?_
    have hne : c ≠ '>' ∧ c ≠ '=' := by
      rcases List.mem_append.1 hc with hletter | hmem
      · constructor <;> rintro rfl <;> revert hletter <;> decide
      · exact h c hmem
    rw [step, Bool.false_and, if_neg (by decide), if_neg hne.1, if_neg hne.2]
  have hend : (Context.tag [] false).step '>' = .data := by
    rw [step_tag_end]
    rfl
  exact (hopen.append hcontent).append (.one hend rfl)

/-! ## Script and style elements -/

theorem leads_reading {element : Text} {before : Text} (h : ¬HoldsEnd element (before ++ s)) :
    Leads (reading element before) (Zone.on .rawText s) (reading element (before ++ s)) := by
  refine .along (reading element) (fun _ => rfl) before fun p c hp => ?_
  refine step_reading_of_not_holdsEnd fun hholds => h (hholds.mono ?_)
  rw [List.append_assoc]
  exact (List.prefix_append_right_inj before).2 hp

/-- The body of an element and its end tag up to the name. -/
theorem leads_body {element body name : Text} (helement : element ∈ rawTextElements)
    (hname : name.map Char.toLower = element)
    (hbody : ¬rawTextEnd element <:+: body.map Char.toLower) :
    Leads (rawText element [])
      (Zone.on .rawText body ++ Zone.upTo .rawText .tag ('<' :: '/' :: name))
      (.tag ('/' :: element) false) := by
  have hmeets := meetsEnd_endTag helement hname fun h => hbody (h.infix_map_toLower helement)
  obtain ⟨begun, c, hbegun⟩ : ∃ begun c, '<' :: '/' :: name = begun ++ [c] :=
    ⟨_, _, (List.dropLast_append_getLast (List.cons_ne_nil _ _)).symm⟩
  rw [hbegun, ← List.append_assoc] at hmeets
  have hread : Leads (reading element []) (Zone.on .rawText (body ++ begun))
      (reading element (body ++ begun)) := leads_reading hmeets.not_holdsEnd
  have hlast : Leads (reading element (body ++ begun)) (Zone.on .tag [c]) (.tag ('/' :: element) false) :=
    .one (hmeets.step helement) rfl
  rw [Zone.upTo, hbegun, List.dropLast_concat, List.getLast?_concat, ← List.append_assoc, Zone.on, Zone.on,
    ← List.map_append, ← reading_nil]
  exact hread.append hlast

/-- Behind a tag stands the body of the script or style element that it names, or body text. -/
theorem afterTag_of_ascii (h : ∀ c ∈ name, c.toNat < 128) :
    afterTag name = if name.map Char.toLower ∈ rawTextElements then
      rawText (name.map Char.toLower) [] else data := by
  rw [afterTag, Text.lower_of_ascii h]

/-- The name of a script or style element is made of letters. -/
theorem isAlpha_of_element {t : Tag} (h : t.element ∈ rawTextElements) {c : Char} (hc : c ∈ t.name) :
    c.isAlpha = true := by
  have hsmall : ∀ raw ∈ rawTextElements, raw.all Char.isLower = true := by decide
  have hlower := List.all_eq_true.1 (hsmall _ h) c.toLower (List.mem_map_of_mem hc)
  by_cases hupper : c.isUpper = true
  · rw [Char.isAlpha, hupper, Bool.true_or]
  · rw [Text.toLower_of_not_isUpper (Bool.eq_false_iff.2 hupper)] at hlower
    rw [Char.isAlpha, hlower, Bool.or_true]

theorem leads_rawElement {start ending : Tag} {body : Text}
    (h : (Piece.rawElement start body ending).WellFormed) :
    Leads .data (Piece.rawElement start body ending).marked .data := by
  obtain ⟨hstart, hending, -, helement, hsame, hbody⟩ := h
  have hread : start.readName = start.name :=
    List.takeWhile_eq_self_iff.2 fun c hc => goesOn_of_isAlpha (isAlpha_of_element helement hc)
  have hletter : start.name.head?.any Char.isAlpha = true := by
    cases hname : start.name with
    | nil =>
      rw [Tag.element, hname] at helement
      revert helement
      decide
    | cons c rest => exact isAlpha_of_element helement (by rw [hname]; exact List.mem_cons_self)
  have hbehind : afterTag start.readName = rawText start.element [] := by
    rw [hread, afterTag_of_ascii fun c hc => ?_]
    · exact if_pos helement
    · have := Text.toNat_of_isAlpha (isAlpha_of_element helement hc)
      omega
  have hopen := leads_tag .rawText hstart hletter (by rw [hbehind]; rfl)
  have hzone : (afterTag ('/' :: start.element)).zone = .body := by
    rw [afterTag_slash]
    rfl
  have hclose := leads_markedRest_end false hending hzone
  rw [hbehind] at hopen
  rw [afterTag_slash] at hclose
  have hwhole := hopen.append ((leads_body helement hsame hbody).append hclose)
  simpa only [Piece.marked, List.append_assoc, List.cons_append, List.nil_append] using hwhole

/-! ## All pieces -/

/-- Is the piece a start tag of whose name only `script` or `style` is read? -/
def Piece.IsCut : Piece → Prop
  | startTag t => t.readName.map Char.toLower ∈ rawTextElements
  | _ => False

instance : DecidablePred Piece.IsCut
  | .startTag t => inferInstanceAs (Decidable (t.readName.map Char.toLower ∈ rawTextElements))
  | .text _ | .comment _ | .doctype _ | .endTag _ | .rawElement _ _ _ => instDecidableFalse

theorem ascii_readName {t : Tag} (h : t.OpensElement) : ∀ c ∈ t.readName, c.toNat < 128 :=
  fun c hc => h.2.1 c (List.takeWhile_subset _ hc)

theorem leads_piece {piece : Piece} (h : piece.WellFormed) (hcut : ¬piece.IsCut) :
    Leads .data piece.marked .data := by
  cases piece with
  | text content => exact .on rfl fun c hc => if_neg (ne_of_mem_of_not_mem hc h)
  | comment content => exact leads_comment h
  | doctype content => exact leads_doctype h
  | startTag t =>
    obtain ⟨htag, hopens⟩ := h
    have hbehind : afterTag t.readName = .data :=
      (afterTag_of_ascii (ascii_readName hopens)).trans (if_neg hcut)
    have hleads := leads_tag .body htag hopens.1 (by rw [hbehind]; rfl)
    rwa [hbehind] at hleads
  | endTag t => exact leads_endTag h
  | rawElement start body ending => exact leads_rawElement h

theorem leads_markedAll {pieces : List Piece} (h : ∀ piece ∈ pieces, piece.WellFormed)
    (hcut : ∀ piece ∈ pieces, ¬piece.IsCut) : Leads .data (markedAll pieces) .data := by
  induction pieces with
  | nil => exact .done _
  | cons piece pieces ih =>
    obtain ⟨hpiece, hpieces⟩ := List.forall_mem_cons.1 h
    obtain ⟨hwhole, hwholes⟩ := List.forall_mem_cons.1 hcut
    exact (leads_piece hpiece hwhole).append (ih hpieces hwholes)

/-- A start tag whose name is cut is taken for one of a script or style element. -/
theorem feed_of_isCut {piece : Piece} (h : piece.WellFormed) (hcut : piece.IsCut) :
    (data.feed (piece.marked.map Prod.fst)).zone = .rawText ∧
      piece.marked.getLast?.map Prod.snd = some .body := by
  cases piece with
  | startTag t =>
    obtain ⟨htag, hopens⟩ := h
    have hbehind : afterTag t.readName = rawText (t.readName.map Char.toLower) [] :=
      (afterTag_of_ascii (ascii_readName hopens)).trans (if_pos hcut)
    have hleads := (leads_tag .rawText htag hopens.1 (by rw [hbehind]; rfl)).feed
    refine ⟨?_, ?_⟩
    · rw [Piece.marked, List.map_append]
      rw [List.map_append] at hleads
      rw [show [('>', Zone.body)].map Prod.fst = [('>', Zone.rawText)].map Prod.fst from rfl, hleads, hbehind]
      rfl
    · rw [Piece.marked, List.getLast?_concat]
      rfl
  | text | comment | doctype | endTag | rawElement => exact hcut.elim

/-- A state stands for a zone, and answers the three questions about a value as the zone does. -/
structure Classifies (context : Context) (zone : Zone) : Prop where
  zone_eq : context.zone = zone
  inAttributeValue : context.inAttributeValue = zone.isValue
  inRawText : context.inRawText = (zone == .rawText)
  inTag : context.inTag = zone.isTag

/-- The answers follow from the zone. -/
theorem classifies_iff {zone : Zone} : Classifies context zone ↔ context.zone = zone := by
  refine ⟨Classifies.zone_eq, ?_⟩
  rintro rfl
  cases context <;> exact ⟨rfl, rfl, rfl, rfl⟩

/-- **Well-formed markup is classified as it is meant at every place, in whatever chunks it is fed, if and
only if it holds no start tag of whose name only `script` or `style` is read.** -/
theorem classifies_feed_iff {pieces : List Piece} (h : ∀ piece ∈ pieces, piece.WellFormed) :
    (∀ chunks : List Text, chunks.flatten <+: written pieces →
      Classifies (chunks.foldl Context.feed data) (zoneAt pieces chunks.flatten.length)) ↔
    ∀ piece ∈ pieces, ¬piece.IsCut := by
  simp only [classifies_iff]
  constructor
  · intro hzone piece hmem hcut
    -- the first tag that is cut follows markup that is read as it is meant
    obtain ⟨first, hfound⟩ : ∃ first, pieces.find? (fun piece => decide piece.IsCut) = some first :=
      Option.isSome_iff_exists.1 (List.find?_isSome.2 ⟨piece, hmem, decide_eq_true hcut⟩)
    obtain ⟨hfirst, before, behind, rfl, hbefore⟩ := List.find?_eq_some_iff_append.1 hfound
    have hmarked : markedAll (before ++ first :: behind) =
        markedAll before ++ first.marked ++ markedAll behind := by
      simp only [markedAll, List.flatMap_append, List.flatMap_cons, List.append_assoc]
    have hfed := (leads_markedAll (fun piece hpiece => h piece (List.mem_append_left _ hpiece))
      fun piece hpiece => by simpa using hbefore piece hpiece).feed
    obtain ⟨hraw, hbody⟩ := feed_of_isCut (h first (by simp)) (of_decide_eq_true hfirst)
    have hread := hzone [(markedAll before ++ first.marked).map Prod.fst] (by
      rw [List.flatten_singleton, written, hmarked]
      exact (List.prefix_append _ _).map Prod.fst)
    rw [feed_chunks, List.flatten_singleton, List.map_append, feed_append, hfed, hraw, zoneAt, hmarked,
      ← List.map_append, List.length_map, List.take_left, List.getLast?_append, Option.map_or, hbody] at hread
    cases hread
  · intro hcut chunks hchunks
    rw [feed_chunks, zoneAt]
    have htext : chunks.flatten = ((markedAll pieces).take chunks.flatten.length).map Prod.fst := by
      rw [List.map_take]
      exact List.prefix_iff_eq_take.1 hchunks
    have hread := (leads_markedAll h hcut).zone_take chunks.flatten.length
    rwa [← htext] at hread

/-- The start tag of a `style_guide-card` is taken for that of a style element. -/
theorem classifies_feed_iff_guideCard :
    let pieces : List Piece :=
      [.comment " > ".toList,
        .rawElement ⟨"SCRIPT".toList, [⟨[' '], "async".toList, none⟩], [], false⟩ "'<</scr".toList
          ⟨"Script".toList, [], [' '], false⟩,
        .startTag ⟨"style_guide-card".toList, [], [], false⟩]
    (∀ piece ∈ pieces, piece.WellFormed) ∧
      ¬∀ chunks : List Text, chunks.flatten <+: written pieces →
        Classifies (chunks.foldl Context.feed data) (zoneAt pieces chunks.flatten.length) := by
  intro pieces
  have hwell : ∀ piece ∈ pieces, piece.WellFormed := by decide +kernel
  refine ⟨hwell, fun hzone => ?_⟩
  exact (classifies_feed_iff hwell).1 hzone _ (List.mem_of_getLast? rfl) (by decide)

end Markup

end TemplateAudit
