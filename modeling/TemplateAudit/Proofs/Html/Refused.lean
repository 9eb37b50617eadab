import Mathlib.Data.List.Infix
import TemplateAudit.Html.Document
import TemplateAudit.Proofs.Outcome
import TemplateAudit.Proofs.Text.Trim

/-!
# Which markup is refused

The reader of markup is lenient, and refuses two things only: a marked section of an unknown kind, and a
reference with too many decimal digits.  Every reader of this library leaves over an end of the text it was
given (`Construct.Within`, `Step.Within`), so that what is refused further on stands in the whole text.
Markup without `<![` and without such a reference has a document (`exists_parse`).
-/

namespace TemplateAudit

open Outcome

namespace Html

variable {s t rest : Text}

/-! ## Marked sections and long numbers -/

/-- A marked section may begin in a text. -/
def HasSection (s : Text) : Prop :=
  "<![".toList <:+: s

/-- A reference with more decimal digits than are read stands in a text. -/
def HasLongNumber (s : Text) : Prop :=
  ∃ digits : Text, (∀ c ∈ digits, c.isDigit) ∧ Decimal.mostDigits < digits.length ∧
    '&' :: '#' :: digits <:+: s

/-- A text holds something that may be refused. -/
def Refusable (s : Text) : Prop :=
  HasSection s ∨ HasLongNumber s

theorem HasLongNumber.mono (h : HasLongNumber s) (hin : s <:+: t) : HasLongNumber t := by
  obtain ⟨digits, hdigits, hlong, hstands⟩ := h
  exact ⟨digits, hdigits, hlong, hstands.trans hin⟩

theorem Refusable.of_suffix (h : Refusable s) (hend : s <:+ t) : Refusable t :=
  h.imp (fun h => h.trans hend.isInfix) fun h => h.mono hend.isInfix

/-- No reference begins with a character other than `&`. -/
theorem HasLongNumber.of_cons {c : Char} (hc : c ≠ '&') (h : HasLongNumber (c :: s)) :
    HasLongNumber s := by
  obtain ⟨digits, hdigits, hlong, hstands⟩ := h
  refine ⟨digits, hdigits, hlong, (List.infix_cons_iff.1 hstands).resolve_left fun hprefix => ?_⟩
  exact hc (List.cons_prefix_cons.1 hprefix).1.symm

theorem not_hasLongNumber_nil : ¬HasLongNumber [] := by
  rintro ⟨digits, -, -, hstands⟩
  cases List.infix_nil.1 hstands

/-! ## What is left over -/

theorem cutAtChar_suffix {mark : Char} {cut : Text × Text} (h : Text.cutAtChar mark s = some cut) :
    cut.2 <:+ s ∧ cut.1 <:+: s := by
  rw [Text.cutAtChar_eq_some h]
  exact ⟨⟨cut.1 ++ [mark], by simp⟩, (List.prefix_append _ _).isInfix⟩

theorem semicolon_suffix (s : Text) : (semicolon s).2 <:+ s := by
  unfold semicolon
  split
  · exact List.suffix_cons _ _
  · exact List.suffix_refl _

/-- The digits of a number that is too long stand in front of what is left over. -/
theorem number?_spec {n : Numbered} (h : number? s = some (n, rest)) :
    rest <:+ s ∧ (n = .tooLong → HasLongNumber ('&' :: '#' :: s)) := by
  unfold number? at h
  have hhex : ∀ {x : Char} {t : Text}, (if (t.takeWhile isHexDigit).isEmpty then none
      else some (.number (numberOf 16 (t.takeWhile isHexDigit)), t.dropWhile isHexDigit)) =
        some (n, rest) → rest <:+ x :: t ∧ (n = .tooLong → HasLongNumber ('&' :: '#' :: x :: t)) := by
    intro x t h
    split at h
    · cases h
    · cases h
      exact ⟨(List.dropWhile_suffix _).trans (List.suffix_cons _ _), nofun⟩
  split at h
  · exact hhex h
  · exact hhex h
  · dsimp only at h
    split at h
    · cases h
    · cases h
      refine ⟨List.dropWhile_suffix _, fun hlong => ?_⟩
      split at hlong
      · cases hlong
      · rename_i hmore
        refine ⟨s.takeWhile Char.isDigit, List.all_eq_true.1 List.all_takeWhile, by omega, ?_⟩
        exact (List.cons_prefix_cons.2
          ⟨rfl, List.cons_prefix_cons.2 ⟨rfl, List.takeWhile_prefix _⟩⟩).isInfix

/-! ## Attributes -/

theorem skipGap_suffix (s : Text) : skipGap s <:+ s := by
  fun_induction skipGap s with
  | case1 => exact List.suffix_refl _
  | case2 => exact List.suffix_refl _
  | case3 c s _ _ ih => exact ih.trans (List.suffix_cons _ _)
  | case4 => exact List.suffix_refl _

theorem bareValue_within (s : Text) : (bareValue s).2 <:+ s ∧ (bareValue s).1 <:+: s :=
  ⟨List.dropWhile_suffix _, (List.takeWhile_prefix _).isInfix⟩

theorem closedValue?_within {found : Text × Text} (h : closedValue? s = some found) :
    found.2 <:+ s ∧ found.1 <:+: s := by
  unfold closedValue? at h
  split at h
  · obtain ⟨hrest, hvalue⟩ := cutAtChar_suffix h
    exact ⟨hrest.trans (List.suffix_cons _ _), hvalue.trans (List.suffix_cons _ _).isInfix⟩
  · obtain ⟨hrest, hvalue⟩ := cutAtChar_suffix h
    exact ⟨hrest.trans (List.suffix_cons _ _), hvalue.trans (List.suffix_cons _ _).isInfix⟩
  · cases h
    exact bareValue_within _

/-- A value stands in the text, but for an equals sign that may be in front of it. -/
theorem value?_within {found : Text × Text} (h : value? s = some found) :
    found.2 <:+ s ∧ (HasLongNumber found.1 → HasLongNumber s) := by
  unfold value? at h
  split at h
  · rename_i signs heq
    have hstart : Text.trimStart (signs.dropWhile (· == '=')) <:+ s := by
      refine (Text.trimStart_suffix _).trans ((List.dropWhile_suffix _).trans ?_)
      exact (List.suffix_cons '=' signs).trans (heq ▸ Text.trimStart_suffix s)
    dsimp only at h
    generalize Text.trimStart (signs.dropWhile (· == '=')) = start at h hstart
    split at h
    · rename_i found' hclosed
      cases h
      obtain ⟨hrest, hvalue⟩ := closedValue?_within hclosed
      exact ⟨hrest.trans hstart, fun hlong => hlong.mono (hvalue.trans hstart.isInfix)⟩
    · split at h
      · cases h
        exact ⟨hstart, fun hlong => absurd hlong not_hasLongNumber_nil⟩
      · split at h
        · cases h
          have hrest : (bareValue ('=' :: start)).2 = (bareValue start).2 := rfl
          refine ⟨hrest ▸ (bareValue_within start).1.trans hstart, fun hlong => ?_⟩
          have hsign := hlong.mono (bareValue_within ('=' :: start)).2
          exact (hsign.of_cons (by decide)).mono hstart.isInfix
        · cases h
  · cases h

theorem attribute?_within {before : Char} {found : (Text × Text) × Text}
    (h : attribute? before s = some found) :
    found.2 <:+ s ∧ (HasLongNumber found.1.2 → HasLongNumber s) := by
  unfold attribute? at h
  split at h
  · cases h
  · rename_i c s
    split at h
    · have hafter : s.dropWhile isAttributeNameChar <:+ c :: s :=
        (List.dropWhile_suffix _).trans (List.suffix_cons _ _)
      dsimp only at h
      split at h
      · rename_i value rest hvalue
        cases h
        obtain ⟨hrest, hlong⟩ := value?_within hvalue
        exact ⟨(skipGap_suffix _).trans (hrest.trans hafter), fun h =>
          (hlong h).mono hafter.isInfix⟩
      · cases h
        exact ⟨(skipGap_suffix _).trans hafter, fun hlong => absurd hlong not_hasLongNumber_nil⟩
    · cases h

theorem attributesOf_within (before : Char) (s : Text) :
    (attributesOf before s).2 <:+ s ∧
      ∀ attr ∈ (attributesOf before s).1, HasLongNumber attr.2 → HasLongNumber s := by
  fun_induction attributesOf before s with
  | case1 => exact ⟨List.suffix_refl _, nofun⟩
  | case2 before s attr rest hattr found ih =>
    obtain ⟨hrest, hlong⟩ := attribute?_within hattr
    obtain ⟨hend, hmore⟩ := ih
    refine ⟨hend.trans hrest, List.forall_mem_cons.2 ⟨hlong, fun more hmem h => ?_⟩⟩
    exact (hmore more hmem h).mono hrest.isInfix

/-- A value that cannot be read holds a number that is too long. -/
theorem hasLongNumber_of_readValueFrom? {skip : Nat} (h : readValueFrom? skip s = none) :
    HasLongNumber s := by
  induction s generalizing skip with
  | nil => cases skip <;> cases h
  | cons c s ih =>
    have hlater : ∀ {skip : Nat}, readValueFrom? skip s = none → HasLongNumber (c :: s) :=
      fun h => (ih h).mono (List.suffix_cons _ _).isInfix
    cases skip with
    | succ skip => exact hlater h
    | zero =>
      by_cases hc : c = '&'
      · subst hc
        rw [readValueFrom?] at h
        split at h
        · exact hlater (Option.map_eq_none_iff.1 h)
        · rename_i rest hreference
          unfold valueReference? at hreference
          split at hreference
          · split at hreference
            · cases hreference
            · rename_i hnumber
              exact (number?_spec hnumber).2 rfl
            · cases hreference
          · dsimp only at hreference
            split at hreference <;> cases hreference
        · exact hlater (Option.map_eq_none_iff.1 h)
      · rw [readValueFrom?] at h
        · exact hlater (Option.map_eq_none_iff.1 h)
        · exact fun heq => hc heq

theorem exists_of_readValues? {attrs : List (Text × Text)} (h : readValues? attrs = none) :
    ∃ attr ∈ attrs, HasLongNumber attr.2 := by
  induction attrs with
  | nil => cases h
  | cons attr attrs ih =>
    obtain ⟨name, value⟩ := attr
    cases hvalue : readValue? value with
    | none => exact ⟨_, List.mem_cons_self, hasLongNumber_of_readValueFrom? hvalue⟩
    | some read =>
      cases hvalues : readValues? attrs with
      | none =>
        obtain ⟨later, hlater, hlong⟩ := ih hvalues
        exact ⟨later, List.mem_cons_of_mem _ hlater, hlong⟩
      | some values =>
        rw [readValues?, hvalue, hvalues] at h
        cases h

/-! ## Constructs -/

/-- What became of a construct: the text that is left over ends the text that was read, and only what may be
refused is. -/
def Construct.Within (s : Text) : Construct → Prop
  | .read _ _ rest => rest <:+ s
  | .unfinished => True
  | .rejected _ => Refusable s

theorem tagName?_suffix {name : Text} (h : tagName? s = some (name, rest)) : rest <:+ s := by
  unfold tagName? at h
  split at h
  · cases h
  · split at h
    · cases h
      exact (List.dropWhile_suffix _).trans (List.suffix_cons _ _)
    · cases h

/-- Whatever is made of the attributes of a tag, only a number that is too long is refused. -/
theorem finished_within {attrs : List (Text × Text)}
    (hlong : ∀ attr ∈ attrs, HasLongNumber attr.2 → HasLongNumber s)
    {construct : List (Text × Text) → Construct} (h : ∀ values, (construct values).Within s) :
    (match readValues? attrs with
      | some values => construct values
      | none => Construct.rejected .longNumber).Within s := by
  split
  · exact h _
  · rename_i hnone
    obtain ⟨attr, hattr, hvalue⟩ := exists_of_readValues? hnone
    exact .inr (hlong attr hattr hvalue)

theorem readStartTag_within (s : Text) : (readStartTag s).Within s := by
  unfold readStartTag
  split
  · trivial
  · rename_i c t
    split
    · trivial
    · rename_i written afterName hname
      have hgap : skipGap afterName <:+ c :: t :=
        (skipGap_suffix _).trans ((tagName?_suffix hname).trans (List.suffix_cons _ _))
      obtain ⟨hrest, hlong⟩ := attributesOf_within
        ((Text.consumed (c :: t) (skipGap afterName)).getLastD '<') (skipGap afterName)
      dsimp only
      generalize attributesOf _ (skipGap afterName) = found at hrest hlong ⊢
      have hfinished {construct : List (Text × Text) → Construct}
          (hwithin : ∀ attrs, (construct attrs).Within (c :: t)) :=
        finished_within (fun attr hattr hvalue => (hlong attr hattr hvalue).mono hgap.isInfix) hwithin
      split
      · trivial
      · rename_i rest hfound
        rw [hfound] at hrest
        exact hfinished fun _ => (List.suffix_cons _ _).trans (hrest.trans hgap)
      · rename_i rest hfound
        rw [hfound] at hrest
        exact hfinished fun _ => ((List.suffix_cons _ _).trans (List.suffix_cons _ _)).trans
          (hrest.trans hgap)
      · split
        · trivial
        · exact hfinished fun _ => hrest.trans hgap

theorem readEndTag_within (raw : Option Text) (s : Text) : (readEndTag raw s).Within s := by
  unfold readEndTag
  dsimp only
  split
  · trivial
  · rename_i inside rest hcut
    have hrest : rest <:+ s := (cutAtChar_suffix hcut).1.trans (List.drop_suffix _ _)
    repeat' split
    all_goals exact hrest

theorem afterComment?_suffix (h : afterComment? s = some rest) : rest <:+ s := by
  fun_induction afterComment? s with
  | case1 => cases h
  | case2 s after hclose =>
    cases h
    refine (List.suffix_cons '>' rest).trans ?_
    exact hclose ▸ (Text.trimStart_suffix s).trans ((List.suffix_cons _ _).trans (List.suffix_cons _ _))
  | case3 s _ ih => exact (ih h).trans (List.suffix_cons _ _)
  | case4 c s _ ih => exact (ih h).trans (List.suffix_cons _ _)

theorem asideUpTo_within (raw : Option Text) {found : Option Text} (h : ∀ rest ∈ found, rest <:+ s) :
    (asideUpTo raw found).Within s := by
  cases found with
  | none => trivial
  | some rest => exact h rest rfl

theorem afterBrackets?_suffix {count : Nat} (h : afterBrackets? count s = some rest) : rest <:+ s := by
  induction count generalizing s with
  | zero =>
    unfold afterBrackets? at h
    split at h
    · cases h
      exact List.suffix_cons _ _
    · cases h
  | succ count ih =>
    unfold afterBrackets? at h
    split at h
    · exact (ih h).trans ((Text.trimStart_suffix _).trans (List.suffix_cons _ _))
    · cases h

theorem cutAtBrackets?_suffix {count : Nat} {cut : Text × Text}
    (h : cutAtBrackets? count s = some cut) : cut.2 <:+ s := by
  induction s generalizing cut with
  | nil => cases h
  | cons c s ih =>
    unfold cutAtBrackets? at h
    split at h
    · rename_i hafter
      cases h
      exact afterBrackets?_suffix hafter
    · obtain ⟨later, hlater, rfl⟩ := Option.map_eq_some_iff.1 h
      exact (ih hlater).trans (List.suffix_cons _ _)

theorem readSection_within (raw : Option Text) (s : Text) :
    (readSection raw s).Within ('<' :: '!' :: '[' :: s) := by
  have hsection : Refusable ('<' :: '!' :: '[' :: s) :=
    .inl (List.prefix_append ['<', '!', '['] s).isInfix
  have hin : s <:+ '<' :: '!' :: '[' :: s := List.suffix_append ['<', '!', '['] s
  unfold readSection
  split
  · trivial
  · split
    · dsimp only
      split
      · trivial
      · split
        · exact hsection
        · split
          · trivial
          · rename_i hcut
            exact (cutAtBrackets?_suffix hcut).trans hin
    · exact hsection

theorem readDeclaration_within (raw : Option Text) (s : Text) :
    (readDeclaration raw s).Within ('<' :: '!' :: s) := by
  unfold readDeclaration
  split
  · rename_i t
    refine asideUpTo_within raw fun rest hrest => ?_
    exact (afterComment?_suffix hrest).trans (List.suffix_append ['<', '!', '-', '-'] t)
  · exact readSection_within raw _
  · refine asideUpTo_within raw fun rest hrest => ?_
    obtain ⟨cut, hcut, rfl⟩ := Option.map_eq_some_iff.1 hrest
    refine (cutAtChar_suffix hcut).1.trans (List.IsSuffix.trans ?_ (List.suffix_append ['<', '!'] s))
    split
    · exact List.drop_suffix _ _
    · exact List.suffix_refl _

/-! ## Steps -/

/-- What became of a step: the text that is left over ends the text that was read, and only what may be
refused is. -/
def Step.Within (s : Text) : Step → Prop
  | .next _ _ rest => rest <:+ s
  | .stop _ rest => rest <:+ s
  | .reject _ => Refusable s

/-- The step over a construct refuses no more than the construct. -/
theorem stepOfConstruct_within {construct : Option Construct} {atEnd : Bool} {raw : Option Text}
    (h : ∀ found ∈ construct, found.Within s) :
    (match construct with
      | none => Step.stop [] s
      | some (.read events raw rest) => .next events raw rest
      | some (.rejected reason) => .reject reason
      | some .unfinished =>
        if atEnd then .next [.text (unfinishedText s)] raw (s.drop (unfinishedText s).length)
        else .stop [] s).Within s := by
  split
  · exact List.suffix_refl _
  · exact h _ rfl
  · exact h _ rfl
  · split
    · exact List.drop_suffix _ _
    · exact List.suffix_refl _

theorem stepAtTag_within (atEnd : Bool) (raw : Option Text) (s : Text) :
    (stepAtTag atEnd raw ('<' :: s)).Within ('<' :: s) := by
  refine stepOfConstruct_within fun found hfound => ?_
  cases s with
  | nil => cases hfound
  | cons c t =>
    have hlater : t <:+ '<' :: c :: t := List.suffix_append ['<', c] t
    simp only [List.drop_succ_cons, List.drop_zero] at hfound
    split at hfound
    · cases hfound
      exact readStartTag_within _
    · split at hfound
      · cases hfound
        exact readEndTag_within _ _
      · split at hfound
        · cases hfound
          refine asideUpTo_within raw fun rest hrest => ?_
          obtain ⟨cut, hcut, rfl⟩ := Option.map_eq_some_iff.1 hrest
          exact (cutAtChar_suffix hcut).1.trans hlater
        · split at hfound
          · rename_i hmark
            cases hfound
            rw [hmark]
            exact readDeclaration_within raw t
          · cases hfound
            exact List.suffix_cons _ _

theorem bodyNumber?_spec {n : Numbered} (h : bodyNumber? s = some (n, rest)) :
    number? s = some (n, rest) := by
  unfold bodyNumber? at h
  split at h
  · rename_i hnumber
    split at h
    · cases h
    · cases h
      exact hnumber
  · cases h

theorem bodyName?_suffix {name : Text} (h : bodyName? s = some (name, rest)) : rest <:+ s := by
  unfold bodyName? at h
  split at h
  · cases h
  · rename_i c s
    split at h
    · dsimp only at h
      split at h
      · rename_i hall
        have hname : s.takeWhile isBodyNameChar = s := by
          have happend := List.takeWhile_append_dropWhile (p := isBodyNameChar) (l := s)
          rwa [hall, List.append_nil] at happend
        split at h
        · cases h
        · cases h
          rw [hname]
          exact List.drop_suffix _ _
      · cases h
        exact (List.dropWhile_suffix _).trans (List.suffix_cons _ _)
    · cases h

theorem stepAtReference_within (atEnd : Bool) (raw : Option Text) (s : Text) :
    (stepAtReference atEnd raw s).Within ('&' :: s) := by
  unfold stepAtReference
  split
  · exact List.suffix_refl _
  · rename_i t
    have hlater : t <:+ '&' :: '#' :: t := List.suffix_append ['&', '#'] t
    split
    · rename_i hnumber
      exact (semicolon_suffix _).trans ((number?_spec (bodyNumber?_spec hnumber)).1.trans hlater)
    · rename_i hnumber
      exact .inr ((number?_spec (bodyNumber?_spec hnumber)).2 rfl)
    · split
      · exact hlater
      · exact List.suffix_refl _
  · rename_i c t _
    split
    · rename_i hname
      exact (semicolon_suffix _).trans ((bodyName?_suffix hname).trans (List.suffix_cons _ _))
    · split
      · dsimp only [Step.Within]
        split
        · exact List.suffix_cons _ _
        · exact List.suffix_refl _
      · exact List.suffix_cons _ _

/-- Where no plain text stands in front, a reference or a tag begins. -/
theorem exists_cons_of_takeWhile (h : s.takeWhile isPlainChar = []) :
    s = [] ∨ (∃ t, s = '&' :: t) ∨ ∃ t, s = '<' :: t := by
  cases s with
  | nil => exact .inl rfl
  | cons c t =>
    rw [List.takeWhile_cons] at h
    split at h
    · cases h
    · rename_i hc
      have htag : c ≠ '&' → c = '<' := by simpa [isPlainChar] using hc
      by_cases hand : c = '&'
      · exact .inr (.inl ⟨t, by rw [hand]⟩)
      · exact .inr (.inr ⟨t, by rw [htag hand]⟩)

theorem exists_cons_of_beforeRawEnd? {element : Text} (h : beforeRawEnd? element s = some []) :
    ∃ t, s = '<' :: t := by
  cases s with
  | nil => cases h
  | cons c t =>
    rw [beforeRawEnd?] at h
    split at h
    · rename_i hend
      unfold afterRawEnd? at hend
      split at hend
      · rename_i heq
        exact ⟨_, heq⟩
      · cases hend
    · obtain ⟨later, -, hcons⟩ := Option.map_eq_some_iff.1 h
      cases hcons

theorem step_within (atEnd : Bool) (raw : Option Text) (s : Text) : (step atEnd raw s).Within s := by
  unfold step
  dsimp only
  split
  · exact List.suffix_refl _
  · exact List.drop_suffix _ _
  · rename_i hplain
    split
    · exact List.suffix_refl _
    · exact stepAtReference_within atEnd raw _
    · rename_i hnil hreference
      have htag : ∃ t, s = '<' :: t := by
        cases raw with
        | none =>
          rcases exists_cons_of_takeWhile (Option.some.inj hplain) with rfl | ⟨t, rfl⟩ | htag
          · exact absurd rfl hnil
          · exact absurd rfl (hreference t)
          · exact htag
        | some element => exact exists_cons_of_beforeRawEnd? hplain
      obtain ⟨t, rfl⟩ := htag
      exact stepAtTag_within atEnd raw t

/-! ## Reading it all -/

/-- What is left over ends the text that was read, and only what may be refused is. -/
theorem readOn_within (atEnd : Bool) (raw : Option Text) (s : Text) :
    (∀ reason, readOn atEnd raw s = .error reason → Refusable s) ∧
      ∀ read, readOn atEnd raw s = .ok read → read.2.2 <:+ s := by
  fun_induction readOn atEnd raw s with
  | case1 raw s reason hstep =>
    have hwithin := step_within atEnd raw s
    rw [hstep] at hwithin
    exact ⟨fun _ _ => hwithin, nofun⟩
  | case2 raw s events rest hstep =>
    have hwithin := step_within atEnd raw s
    rw [hstep] at hwithin
    refine ⟨nofun, fun read hread => ?_⟩
    cases hread
    exact hwithin
  | case3 raw s events raw' rest hstep hless more last hmore ih =>
    have hwithin := step_within atEnd raw s
    rw [hstep] at hwithin
    refine ⟨nofun, fun read hread => ?_⟩
    cases hread
    exact (ih.2 _ hmore).trans hwithin
  | case4 raw s events raw' rest hstep hless reason hreason ih =>
    have hwithin := step_within atEnd raw s
    rw [hstep] at hwithin
    exact ⟨fun _ _ => (ih.1 _ hreason).of_suffix hwithin, nofun⟩
  | case5 raw s events raw' rest hstep hless =>
    have hwithin := step_within atEnd raw s
    rw [hstep] at hwithin
    refine ⟨nofun, fun read hread => ?_⟩
    cases hread
    exact hwithin

/-- **Only what may be refused is refused.** -/
theorem refusable_of_events {reason : Rejection} (h : events s = .error reason) : Refusable s := by
  rcases bind_eq_error.1 h with hfirst | ⟨first, hfirst, h⟩
  · exact (readOn_within false none s).1 _ hfirst
  · rcases bind_eq_error.1 h with hsecond | ⟨second, -, h⟩
    · exact ((readOn_within true first.2.1 first.2.2).1 _ hsecond).of_suffix
        ((readOn_within false none s).2 _ hfirst)
    · cases h

/-- Markup that holds nothing that may be refused has a document. -/
theorem exists_parse (h : ¬Refusable (s.filter (· != '\uFEFF'))) :
    ∃ document, parse s = .ok document := by
  rw [parse, ofMarkup]
  cases hevents : events (s.filter (· != '\uFEFF')) with
  | error reason => exact absurd (refusable_of_events hevents) h
  | ok read => exact ⟨_, rfl⟩

end Html

end TemplateAudit
