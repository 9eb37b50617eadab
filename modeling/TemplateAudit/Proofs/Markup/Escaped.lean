import TemplateAudit.Markup.Escape
import TemplateAudit.Proofs.Markup.Spacing

/-!
# Cleaning up escaped text

A reference holds no white space, and white space is not escaped.  So escaped text that is cleaned up is the escape of
another text (`exists_escapeValue_tidiesTo`), and tags with their attributes are cleaned up value by value
(`exists_startTag_cleansTo`).  The same is true of byte order marks, which are taken out of markup before it is read.
-/

namespace TemplateAudit

namespace Markup

variable {c : Char} {s tag : Text} {attrs : List (Text × Text)}

/-! ## Characters -/

/-- The characters that are written as references. -/
def escapedChars : Text :=
  ['&', '<', '>', '"', '\'']

theorem escapeValueChar_of_not_mem (h : c ∉ escapedChars) : escapeValueChar c = [c] := by
  simp only [escapedChars, List.mem_cons, List.not_mem_nil, or_false, not_or] at h
  obtain ⟨hand, hless, hgreater, hquote, hmark⟩ := h
  rw [escapeValueChar, if_neg hquote, if_neg hmark, escapeBodyChar, if_neg hand, if_neg hless, if_neg hgreater]

/-- What holds of the characters of all references, and of a character, holds of the escape of this character. -/
theorem forall_mem_escapeValueChar {p : Char → Prop}
    (hreferences : ∀ d ∈ escapedChars.flatMap escapeValueChar, p d) (hc : p c) : ∀ d ∈ escapeValueChar c, p d := by
  by_cases hescaped : c ∈ escapedChars
  · exact fun d hd => hreferences d (List.mem_flatMap.2 ⟨c, hescaped, hd⟩)
  · rw [escapeValueChar_of_not_mem hescaped]
    exact List.forall_mem_singleton.2 hc

theorem not_blank_escapeValueChar (h : Text.isBlank c = false) : ∀ d ∈ escapeValueChar c, Text.isBlank d = false :=
  forall_mem_escapeValueChar (by decide) h

theorem escapeValueChar_of_blank (h : Text.isBlank c = true) : escapeValueChar c = [c] := by
  refine escapeValueChar_of_not_mem fun hmem => ?_
  have hclear : ∀ d ∈ escapedChars, Text.isBlank d = false := by decide
  rw [hclear c hmem] at h
  cases h

theorem escapeValueChar_ne_nil (c : Char) : escapeValueChar c ≠ [] := by
  by_cases hescaped : c ∈ escapedChars
  · have hall : ∀ d ∈ escapedChars, escapeValueChar d ≠ [] := by decide
    exact hall c hescaped
  · rw [escapeValueChar_of_not_mem hescaped]
    exact List.cons_ne_nil c []

theorem escapeValue_cons (c : Char) (s : Text) : escapeValue (c :: s) = escapeValueChar c ++ escapeValue s := rfl

theorem escapeValue_append (s t : Text) : escapeValue (s ++ t) = escapeValue s ++ escapeValue t :=
  List.flatMap_append

theorem escapeValue_eq_self (h : ∀ c ∈ s, c ∉ escapedChars) : escapeValue s = s := by
  rw [escapeValue, List.flatMap_congr fun c hc => escapeValueChar_of_not_mem (h c hc)]
  exact List.flatMap_singleton' s

theorem escapeValue_of_blank (h : ∀ c ∈ s, Text.isBlank c = true) : escapeValue s = s := by
  rw [escapeValue, List.flatMap_congr fun c hc => escapeValueChar_of_blank (h c hc)]
  exact List.flatMap_singleton' s

theorem not_blank_escapeValue (h : ∀ c ∈ s, Text.isBlank c = false) : ∀ c ∈ escapeValue s, Text.isBlank c = false := by
  intro d hd
  obtain ⟨c, hc, hd⟩ := List.mem_flatMap.1 hd
  exact not_blank_escapeValueChar (h c hc) d hd

/-! ## White space -/

theorem trimLines_append (h : ∀ c ∈ s, Text.isBlank c = false) (t : Text) :
    trimLines (s ++ t) = s ++ trimLines t :=
  trimLines_append_of_isChain (isSpaced_of_not_blank h).isChain fun c hc hspace => by
    rw [isSpaceOrTab_of_not_blank (h c (List.mem_of_getLast? hc))] at hspace
    cases hspace

/-- Spaces are taken out of escaped text only. -/
theorem exists_trimLines_escapeValue (hc : Text.isBlank c = false) (s : Text) :
    ∃ s', ∀ t, trimLines (escapeValue s ++ c :: t) = escapeValue s' ++ c :: trimLines t := by
  induction s with
  | nil => exact ⟨[], trimLines_cons hc⟩
  | cons d s ih =>
    obtain ⟨s', hs'⟩ := ih
    cases hd : Text.isBlank d with
    | false =>
      refine ⟨d :: s', fun t => ?_⟩
      rw [escapeValue_cons, escapeValue_cons, List.append_assoc, trimLines_append (not_blank_escapeValueChar hd),
        hs', List.append_assoc]
    | true =>
      have hline : ∀ t, isLineEnd (escapeValue s' ++ c :: t) = isLineEnd (escapeValue s' ++ [c]) := fun t => by
        cases escapeValue s' <;> rfl
      have hkept : ∀ t, trimLines (escapeValue (d :: s) ++ c :: t) =
          if isSpaceOrTab d && isLineEnd (escapeValue s' ++ [c]) then escapeValue s' ++ c :: trimLines t
          else d :: (escapeValue s' ++ c :: trimLines t) := fun t => by
        rw [escapeValue_cons, escapeValueChar_of_blank hd, List.singleton_append, List.cons_append, trimLines, hs' t,
          hline]
      cases hgoes : isSpaceOrTab d && isLineEnd (escapeValue s' ++ [c]) with
      | true => exact ⟨s', fun t => by rw [hkept, hgoes, if_pos rfl]⟩
      | false =>
        refine ⟨d :: s', fun t => ?_⟩
        rw [hkept, hgoes, if_neg Bool.false_ne_true, escapeValue_cons, escapeValueChar_of_blank hd,
          List.singleton_append, List.cons_append]

theorem squeezeFrom_append_of_not_blank {run : Text} (hne : s ≠ []) (h : ∀ c ∈ s, Text.isBlank c = false) (t : Text) :
    squeezeFrom run (s ++ t) = squeezeRun run.reverse ++ s ++ squeeze t := by
  induction s generalizing run with
  | nil => exact absurd rfl hne
  | cons c s ih =>
    obtain ⟨hc, hs⟩ := List.forall_mem_cons.1 h
    have hhere : squeezeFrom run (c :: (s ++ t)) = squeezeRun run.reverse ++ c :: squeezeFrom [] (s ++ t) :=
      if_neg (Bool.eq_false_iff.1 hc)
    rw [List.cons_append, hhere, List.append_assoc, List.cons_append]
    cases s with
    | nil => rfl
    | cons d s =>
      rw [ih (List.cons_ne_nil d s) hs]
      rfl

/-- Runs of white space become shorter in escaped text. -/
theorem exists_squeezeFrom_escapeValue {run : Text} (hrun : ∀ c ∈ run, Text.isBlank c = true) (s : Text) :
    ∃ s', squeezeFrom run (escapeValue s) = escapeValue s' := by
  have hrun' : escapeValue (squeezeRun run.reverse) = squeezeRun run.reverse :=
    escapeValue_of_blank (isBlank_squeezeRun fun c hc => hrun c (List.mem_reverse.1 hc))
  induction s generalizing run with
  | nil => exact ⟨_, hrun'.symm⟩
  | cons d s ih =>
    cases hd : Text.isBlank d with
    | true =>
      have hnext : ∀ c ∈ d :: run, Text.isBlank c = true := List.forall_mem_cons.2 ⟨hd, hrun⟩
      obtain ⟨s', hs'⟩ := ih hnext
        (escapeValue_of_blank (isBlank_squeezeRun fun c hc => hnext c (List.mem_reverse.1 hc)))
      refine ⟨s', ?_⟩
      rw [escapeValue_cons, escapeValueChar_of_blank hd, List.singleton_append, squeezeFrom, if_pos hd, hs']
    | false =>
      obtain ⟨s', hs'⟩ := @ih [] (by simp) rfl
      refine ⟨squeezeRun run.reverse ++ d :: s', ?_⟩
      rw [escapeValue_cons, squeezeFrom_append_of_not_blank (escapeValueChar_ne_nil d) (not_blank_escapeValueChar hd),
        squeeze, hs', escapeValue_append, hrun', escapeValue_cons, List.append_assoc]

/-- Escaped text in front of a character that is no white space is cleaned up to escaped text; without white space it
stays as it is. -/
theorem exists_escapeValue_tidiesTo (hc : Text.isBlank c = false) (s : Text) :
    ∃ s', TidiesTo (escapeValue s ++ [c]) (escapeValue s' ++ [c]) ∧
      ((∀ d ∈ s, Text.isBlank d = false) → s' = s) := by
  by_cases hs : ∀ d ∈ s, Text.isBlank d = false
  · exact ⟨s, (isSpaced_of_not_blank (not_blank_escapeValue hs)).tidiesTo hc, fun _ => rfl⟩
  · obtain ⟨trimmed, htrimmed⟩ := exists_trimLines_escapeValue hc s
    obtain ⟨s', hs'⟩ := @exists_squeezeFrom_escapeValue [] (by simp) trimmed
    have htidies := TidiesTo.of_trimLines hc htrimmed
    rw [squeeze, hs'] at htidies
    exact ⟨s', htidies, fun h => absurd h hs⟩

/-! ## Byte order marks -/

/-- The text without byte order marks. -/
def withoutMarks (s : Text) : Text :=
  s.filter (· != '\uFEFF')

theorem withoutMarks_append (s t : Text) : withoutMarks (s ++ t) = withoutMarks s ++ withoutMarks t :=
  List.filter_append s t

theorem withoutMarks_eq_self (h : ∀ c ∈ s, c ≠ '\uFEFF') : withoutMarks s = s :=
  List.filter_eq_self.2 fun c hc => bne_iff_ne.2 (h c hc)

/-- A byte order mark is not escaped, and no reference holds one. -/
theorem withoutMarks_escapeValue (s : Text) : withoutMarks (escapeValue s) = escapeValue (withoutMarks s) := by
  induction s with
  | nil => rfl
  | cons c s ih =>
    rw [escapeValue_cons, withoutMarks_append, ih]
    by_cases hc : c = '\uFEFF'
    · subst hc
      rfl
    · have hkept : withoutMarks (c :: s) = c :: withoutMarks s := List.filter_cons_of_pos (bne_iff_ne.2 hc)
      rw [withoutMarks_eq_self (forall_mem_escapeValueChar (by decide) hc), hkept, escapeValue_cons]

/-! ## Cleaning up -/

/-- The text holds neither white space nor a byte order mark. -/
def IsSolid (s : Text) : Prop :=
  ∀ c ∈ s, Text.isBlank c = false ∧ c ≠ '\uFEFF'

instance (s : Text) : Decidable (IsSolid s) :=
  Text.decidableForallMem _ s

/-- The text becomes another one when white space is cleaned up and byte order marks are taken out, whatever stands
behind it. -/
def CleansTo (s s' : Text) : Prop :=
  ∀ t, withoutMarks (tidy (s ++ t)) = s' ++ withoutMarks (tidy t)

theorem CleansTo.append {s' t t' : Text} (hs : CleansTo s s') (ht : CleansTo t t') : CleansTo (s ++ t) (s' ++ t') := by
  intro rest
  rw [List.append_assoc, hs, ht, List.append_assoc]

theorem CleansTo.eq {s' : Text} (h : CleansTo s s') : withoutMarks (tidy s) = s' := by
  have hempty := h []
  have hnothing : withoutMarks (tidy []) = [] := rfl
  rwa [hnothing, List.append_nil, List.append_nil] at hempty

theorem TidiesTo.cleansTo {s' : Text} (h : TidiesTo s s') : CleansTo s (withoutMarks s') := by
  intro t
  rw [h t, withoutMarks_append]

theorem IsSolid.cleansTo (h : IsSolid s) : CleansTo s s := by
  have htidies := (TidiesTo.of_not_blank fun c hc => (h c hc).1).cleansTo
  rwa [withoutMarks_eq_self fun c hc => (h c hc).2] at htidies

/-- Escaped text becomes escaped text in front of a solid character. -/
theorem exists_escapeValue_cleansTo (hc : IsSolid [c]) (s : Text) :
    ∃ s', CleansTo (escapeValue s ++ [c]) (escapeValue s' ++ [c]) ∧ (IsSolid s → s' = s) := by
  obtain ⟨s', hs', hsame⟩ := exists_escapeValue_tidiesTo (hc c List.mem_cons_self).1 s
  have hcleans := hs'.cleansTo
  rw [withoutMarks_append, withoutMarks_escapeValue, withoutMarks_eq_self fun d hd => (hc d hd).2] at hcleans
  refine ⟨withoutMarks s', hcleans, fun hsolid => ?_⟩
  rw [hsame fun d hd => (hsolid d hd).1, withoutMarks_eq_self fun d hd => (hsolid d hd).2]

/-- An attribute that has become another one: it has kept its name, and a solid value. -/
def KeptAttribute (attr attr' : Text × Text) : Prop :=
  attr'.1 = attr.1 ∧ (IsSolid attr.2 → attr'.2 = attr.2)

theorem map_fst_of_keptAttribute {attrs' : List (Text × Text)} (h : List.Forall₂ KeptAttribute attrs attrs') :
    attrs'.map Prod.fst = attrs.map Prod.fst := by
  induction h with
  | nil => rfl
  | cons hkept _ ih => rw [List.map_cons, List.map_cons, ih, hkept.1]

theorem exists_oneAttribute_cleansTo {name : Text} (hname : IsSolid name) (value : Text) :
    ∃ value', CleansTo (oneAttribute name value) (oneAttribute name value') ∧ (IsSolid value → value' = value) := by
  obtain ⟨value', hvalue, hsame⟩ := exists_escapeValue_cleansTo (c := '"') (by decide) value
  have hname' : ∀ c ∈ name ++ ['='], Text.isBlank c = false ∧ c ≠ '\uFEFF' :=
    List.forall_mem_append.2 ⟨hname, by decide⟩
  have hspaced : IsSpaced (' ' :: (name ++ ['='])) :=
    List.isChain_cons.2 ⟨fun c hc _ => (hname' c (List.mem_of_mem_head? hc)).1,
      isSpaced_of_not_blank fun c hc => (hname' c hc).1⟩
  have hfront : CleansTo (' ' :: (name ++ ['=']) ++ ['"']) (' ' :: (name ++ ['=']) ++ ['"']) := by
    have hcleans := (hspaced.tidiesTo (c := '"') (by decide)).cleansTo
    rwa [withoutMarks_eq_self] at hcleans
    exact List.forall_mem_append.2
      ⟨List.forall_mem_cons.2 ⟨by decide, fun c hc => (hname' c hc).2⟩, by decide⟩
  have hshape : ∀ value, oneAttribute name value = ' ' :: (name ++ ['=']) ++ ['"'] ++ (escapeValue value ++ ['"']) :=
    fun value => by simp [oneAttribute]
  refine ⟨value', ?_, hsame⟩
  rw [hshape, hshape]
  exact hfront.append hvalue

theorem exists_attributes_cleansTo (h : ∀ attr ∈ attrs, IsSolid attr.1) :
    ∃ attrs', List.Forall₂ KeptAttribute attrs attrs' ∧ CleansTo (attributes attrs) (attributes attrs') := by
  induction attrs with
  | nil => exact ⟨[], .nil, fun _ => rfl⟩
  | cons attr attrs ih =>
    obtain ⟨hname, hattrs⟩ := List.forall_mem_cons.1 h
    obtain ⟨attrs', hkept, hcleans⟩ := ih hattrs
    obtain ⟨value', hvalue, hsame⟩ := exists_oneAttribute_cleansTo hname attr.2
    exact ⟨(attr.1, value') :: attrs', .cons ⟨rfl, hsame⟩ hkept, hvalue.append hcleans⟩

/-- A start tag becomes a start tag in which solid values are the same. -/
theorem exists_startTag_cleansTo (htag : IsSolid tag) (hattrs : ∀ attr ∈ attrs, IsSolid attr.1) :
    ∃ attrs', List.Forall₂ KeptAttribute attrs attrs' ∧ CleansTo (startTag tag attrs) (startTag tag attrs') := by
  obtain ⟨attrs', hkept, hcleans⟩ := exists_attributes_cleansTo hattrs
  have hfront : IsSolid ("<".toList ++ tag) := List.forall_mem_append.2 ⟨by decide, htag⟩
  have hend : IsSolid ">" := by decide
  exact ⟨attrs', hkept, (hfront.cleansTo.append hcleans).append hend.cleansTo⟩

/-- An element with escaped text becomes such an element. -/
theorem exists_element_cleansTo (htag : IsSolid tag) (hattrs : ∀ attr ∈ attrs, IsSolid attr.1) (body : Text) :
    ∃ attrs' body', List.Forall₂ KeptAttribute attrs attrs' ∧
      CleansTo (startTag tag attrs ++ escapeValue body ++ endTag tag)
        (startTag tag attrs' ++ escapeValue body' ++ endTag tag) := by
  obtain ⟨attrs', hkept, hstart⟩ := exists_startTag_cleansTo htag hattrs
  obtain ⟨body', hbody, -⟩ := exists_escapeValue_cleansTo (c := '<') (by decide) body
  have hend : IsSolid ('/' :: (tag ++ ['>'])) :=
    List.forall_mem_cons.2 ⟨by decide, List.forall_mem_append.2 ⟨htag, by decide⟩⟩
  have hshape : ∀ attrs body, startTag tag attrs ++ escapeValue body ++ endTag tag =
      startTag tag attrs ++ (escapeValue body ++ ['<'] ++ '/' :: (tag ++ ['>'])) := fun attrs body => by simp [endTag]
  refine ⟨attrs', body', hkept, ?_⟩
  rw [hshape, hshape]
  exact hstart.append (hbody.append hend.cleansTo)

end Markup

end TemplateAudit
