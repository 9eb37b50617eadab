import Mathlib.Data.List.TakeWhile
import TemplateAudit.Markup.Piece
import TemplateAudit.Proofs.Text.Parts
import TemplateAudit.Template.Reference

/-!
# Calls that render a partial

A call names its partial in one of three forms: by its name, by the key `partial` with a name, or by a model.
It is said here for each form what a text has to begin with (`Form.Shows`), by the parts that the call is made
of.  The readers of the three forms read exactly these (`Form.read_eq_some_iff`).
-/

namespace TemplateAudit

namespace Template

open Markup (IsSpace)

variable {before : Option Char} {name rest s : Text}

/-! ## The parts of a call -/

/-- What may stand between `render` and what it names: white space, with at most one parenthesis in it. -/
def OpensCall (opening : Text) : Prop :=
  ∃ space paren space', opening = space ++ (paren ++ space') ∧ IsSpace space ∧
    (paren = [] ∨ paren = ['(']) ∧ IsSpace space'

/-- A name stands between two quotes of either kind. -/
def Quotes (name quoted : Text) : Prop :=
  ∃ opening closing, quoted = opening :: (name ++ [closing]) ∧ isQuote opening = true ∧
    isQuote closing = true ∧ name ≠ [] ∧ ∀ c ∈ name, isQuote c = false

/-- The character, if there is one, belongs to no word. -/
def EndsWord (before : Option Char) : Prop :=
  ∀ c ∈ before, Text.isWordChar c = false

/-- A text begins with the key `partial:` or `:partial =>`, and a text stands behind it. -/
def KeyStands (before : Option Char) (value s : Text) : Prop :=
  ∃ space, IsSpace space ∧
    (EndsWord before ∧ s = "partial".toList ++ (space ++ ':' :: value) ∨
      s = ":partial".toList ++ (space ++ '=' :: '>' :: value))

/-- A text begins with the key and a quoted name. -/
def NamedKeyStands (before : Option Char) (name rest s : Text) : Prop :=
  ∃ space quoted, IsSpace space ∧ Quotes name quoted ∧
    KeyStands before (space ++ (quoted ++ rest)) s

/-- The first key with a quoted name that stands in a text. -/
def NextKey (before : Option Char) (name rest s : Text) : Prop :=
  ∃ between key, s = between ++ key ∧ NamedKeyStands (between.getLast?.or before) name rest key ∧
    ∀ earlier later, between = earlier ++ later → later ≠ [] →
      ∀ name' rest', ¬NamedKeyStands (earlier.getLast?.or before) name' rest' (later ++ key)

/-- The forms of a call, in the order in which they are looked for. -/
inductive Form where
  /-- `render "name"`. -/
  | name
  /-- `render partial: "name"` or `render :partial => "name"`, with anything in front of the key. -/
  | key
  /-- `render @model`. -/
  | model
  deriving DecidableEq, Repr

/-- A text that follows the character `before` begins with a call of the form that says `name`, and `rest` stands
behind it. -/
def Form.Shows (form : Form) (before : Option Char) (name rest s : Text) : Prop :=
  EndsWord before ∧ ∃ args, s = "render".toList ++ args ∧
    match form with
    | .name => ∃ opening quoted, args = opening ++ (quoted ++ rest) ∧ OpensCall opening ∧ Quotes name quoted
    | .key => EndsWord args.head? ∧ NextKey (some 'r') name rest args
    | .model => ∃ opening, args = opening ++ '@' :: (name ++ rest) ∧ OpensCall opening ∧ name ≠ [] ∧
        (∀ c ∈ name, Text.isWordChar c = true) ∧ EndsWord rest.head?

/-- The reader of a form. -/
def Form.read : Form → Option Char → Text → Option (Text × Text)
  | .name => renderedName?
  | .key => renderedPartial?
  | .model => renderedModel?

/-! ## What the readers read -/

theorem any_isWordChar_eq_true_iff : before.any Text.isWordChar = true ↔ ¬EndsWord before := by
  cases before <;> simp [EndsWord]

theorem afterWord?_eq_some_iff {word : Text} :
    afterWord? word before s = some rest ↔ EndsWord before ∧ s = word ++ rest := by
  rw [afterWord?]
  split
  · rename_i hgoes
    exact iff_of_false nofun fun h => any_isWordChar_eq_true_iff.1 hgoes h.1
  · rename_i hends
    rw [List.isPrefixOf?_eq_some_iff_append_eq, eq_comm,
      and_iff_right (not_not.1 (hends ∘ any_isWordChar_eq_true_iff.2))]

/-- What stands behind the opening of a call, when it begins with a character of its own. -/
theorem skipParen_eq_cons_iff {c : Char} (hc : Text.isBlank c = false) (hparen : c ≠ '(') :
    skipParen s = c :: rest ↔ ∃ opening, s = opening ++ c :: rest ∧ OpensCall opening := by
  constructor
  · intro h
    rw [skipParen] at h
    split at h
    · rename_i inside hinside
      obtain ⟨space, rfl, hspace⟩ := (Text.trimStart_eq_cons_iff (by decide)).1 hinside
      obtain ⟨space', rfl, hspace'⟩ := (Text.trimStart_eq_cons_iff hc).1 h
      exact ⟨space ++ ('(' :: space'), by simp, space, ['('], space', rfl, hspace, .inr rfl, hspace'⟩
    · obtain ⟨space, rfl, hspace⟩ := (Text.trimStart_eq_cons_iff hc).1 h
      exact ⟨space, rfl, space, [], [], by simp, hspace, .inl rfl, by simp [IsSpace]⟩
  · rintro ⟨_, rfl, space, paren, space', rfl, hspace, rfl | rfl, hspace'⟩
    · have htrim : Text.trimStart (space ++ ([] ++ space') ++ c :: rest) = c :: rest :=
        (Text.trimStart_eq_cons_iff hc).2 ⟨space ++ space', by simp, fun d hd =>
          (List.mem_append.1 hd).elim (hspace d) (hspace' d)⟩
      rw [skipParen, htrim]
      split
      · rename_i heq
        exact absurd (List.cons.inj heq).1 hparen
      · rfl
    · have htrim : Text.trimStart (space ++ (['('] ++ space') ++ c :: rest) = '(' :: (space' ++ c :: rest) :=
        (Text.trimStart_eq_cons_iff (by decide)).2 ⟨space, by simp, hspace⟩
      rw [skipParen, htrim]
      exact (Text.trimStart_eq_cons_iff hc).2 ⟨space', rfl, hspace'⟩

theorem quotedName?_eq_some_iff :
    quotedName? s = some (name, rest) ↔ ∃ quoted, s = quoted ++ rest ∧ Quotes name quoted := by
  constructor
  · intro h
    cases s with
    | nil => cases h
    | cons c s =>
      rw [quotedName?] at h
      split at h
      · rename_i hopening
        have hcut := List.takeWhile_append_dropWhile (p := fun c => !isQuote c) (l := s)
        split at h
        · cases h
        · rename_i closing rest' hdrop
          dsimp only at h
          split at h
          · cases h
          · rename_i hname
            cases h
            have hclosing := List.head_dropWhile_not (fun c => !isQuote c) (by rw [hdrop]; nofun)
            simp only [hdrop, List.head_cons, Bool.not_eq_false'] at hclosing
            refine ⟨c :: (s.takeWhile (fun c => !isQuote c) ++ [closing]), ?_, c, closing, rfl, hopening,
              hclosing, by simpa using hname, fun d hd => by simpa using List.mem_takeWhile_imp hd⟩
            rw [hdrop] at hcut
            simp [hcut]
      · cases h
  · rintro ⟨_, rfl, opening, closing, rfl, hopening, hclosing, hne, hname⟩
    have hinside : ∀ c ∈ name, (!isQuote c) = true := fun c hc => by rw [hname c hc]; rfl
    have hstop : ∀ c ∈ (closing :: rest).head?, (!isQuote c) = false := fun c hc => by
      rw [← Option.some.inj hc, hclosing]
      rfl
    simp only [List.cons_append, List.append_assoc, List.nil_append, quotedName?, hopening, if_pos,
      Text.takeWhile_append_of_stop hinside hstop, Text.dropWhile_append_of_stop hinside hstop,
      List.isEmpty_eq_false_iff.2 hne, Bool.false_eq_true, if_false]

theorem isBlank_of_isQuote {c : Char} (h : isQuote c = true) : Text.isBlank c = false := by
  rcases Bool.or_eq_true_iff.1 h with h | h <;> obtain rfl := eq_of_beq h <;> decide

/-- A quoted name stands behind what is skipped in front of it. -/
theorem quotedName?_skip_eq_some_iff {skipped : Text} {Skips : Text → Prop}
    (hskip : ∀ {c t}, Text.isBlank c = false → c ≠ '(' →
      (skipped = c :: t ↔ ∃ opening, s = opening ++ c :: t ∧ Skips opening)) :
    quotedName? skipped = some (name, rest) ↔
      ∃ opening quoted, s = opening ++ (quoted ++ rest) ∧ Skips opening ∧ Quotes name quoted := by
  have hparen : ∀ {c}, isQuote c = true → c ≠ '(' := by
    rintro c hc rfl
    exact absurd hc (by decide)
  rw [quotedName?_eq_some_iff]
  constructor
  · rintro ⟨_, heq, c, closing, rfl, hc, hquoted⟩
    obtain ⟨opening, rfl, hopening⟩ := (hskip (isBlank_of_isQuote hc) (hparen hc)).1 heq
    exact ⟨opening, _, rfl, hopening, c, closing, rfl, hc, hquoted⟩
  · rintro ⟨opening, _, rfl, hopening, c, closing, rfl, hc, hquoted⟩
    exact ⟨c :: (name ++ [closing]),
      (hskip (isBlank_of_isQuote hc) (hparen hc)).2 ⟨opening, rfl, hopening⟩, c, closing, rfl, hc, hquoted⟩

/-! ## The key -/

theorem afterPartialKey?_eq_some_iff {value : Text} :
    afterPartialKey? before s = some value ↔ KeyStands before value s := by
  constructor
  · intro h
    rw [afterPartialKey?, Option.or_eq_some_iff] at h
    rcases h with h | ⟨-, h⟩ <;> obtain ⟨rest, hrest, hvalue⟩ := Option.bind_eq_some_iff.1 h <;>
      split at hvalue
    · rename_i value' htrim
      obtain ⟨hbefore, rfl⟩ := afterWord?_eq_some_iff.1 hrest
      obtain ⟨space, rfl, hspace⟩ := (Text.trimStart_eq_cons_iff (by decide)).1 htrim
      cases hvalue
      exact ⟨space, hspace, .inl ⟨hbefore, rfl⟩⟩
    · cases hvalue
    · rename_i value' htrim
      obtain rfl := List.isPrefixOf?_eq_some_iff_append_eq.1 hrest
      obtain ⟨space, rfl, hspace⟩ := (Text.trimStart_eq_cons_iff (by decide)).1 htrim
      cases hvalue
      exact ⟨space, hspace, .inr rfl⟩
    · cases hvalue
  · rintro ⟨space, hspace, ⟨hbefore, rfl⟩ | rfl⟩
    · rw [afterPartialKey?, afterWord?_eq_some_iff.2 ⟨hbefore, rfl⟩, Option.bind_some,
        (Text.trimStart_eq_cons_iff (by decide)).2 ⟨space, rfl, hspace⟩]
      rfl
    · -- a text that begins with a colon does not begin with the word
      have hlabel : afterWord? "partial".toList before (":partial".toList ++ (space ++ '=' :: '>' :: value)) =
          none := Option.eq_none_iff_forall_ne_some.2 fun value hsome =>
        absurd (List.cons.inj (afterWord?_eq_some_iff.1 hsome).2).1 (by decide)
      rw [afterPartialKey?, hlabel, List.isPrefixOf?_eq_some_iff_append_eq.2 rfl, Option.bind_some,
        (Text.trimStart_eq_cons_iff (by decide)).2 ⟨space, rfl, hspace⟩]
      rfl

theorem namedKey_eq_some_iff :
    ((afterPartialKey? before s).bind fun rest => quotedName? (Text.trimStart rest)) = some (name, rest) ↔
      NamedKeyStands before name rest s := by
  have hquoted : ∀ after, quotedName? (Text.trimStart after) = some (name, rest) ↔
      ∃ space quoted, after = space ++ (quoted ++ rest) ∧ IsSpace space ∧ Quotes name quoted :=
    fun after => quotedName?_skip_eq_some_iff fun hc _ => Text.trimStart_eq_cons_iff hc
  simp only [Option.bind_eq_some_iff, afterPartialKey?_eq_some_iff, NamedKeyStands]
  constructor
  · rintro ⟨after, hkey, hname⟩
    obtain ⟨space, quoted, rfl, hspace, hquoted⟩ := (hquoted after).1 hname
    exact ⟨space, quoted, hspace, hquoted, hkey⟩
  · rintro ⟨space, quoted, hspace, hquoted', hkey⟩
    exact ⟨_, hkey, (hquoted _).2 ⟨space, quoted, rfl, hspace, hquoted'⟩⟩

theorem NamedKeyStands.ne_nil (h : NamedKeyStands before name rest s) : s ≠ [] := by
  obtain ⟨space, quoted, -, -, space', -, ⟨-, rfl⟩ | rfl⟩ := h
  · exact List.append_ne_nil_of_left_ne_nil (by decide) _
  · exact List.append_ne_nil_of_left_ne_nil (by decide) _

theorem NamedKeyStands.suffix (h : NamedKeyStands before name rest s) : rest <:+ s := by
  obtain ⟨space, quoted, -, -, space', -, ⟨-, rfl⟩ | rfl⟩ := h
  · exact ⟨"partial".toList ++ (space' ++ ':' :: (space ++ quoted)), by simp⟩
  · exact ⟨":partial".toList ++ (space' ++ '=' :: '>' :: (space ++ quoted)), by simp⟩

theorem getLast?_cons_or (c : Char) (between : Text) (before : Option Char) :
    (c :: between).getLast?.or before = between.getLast?.or (some c) := by
  rw [List.getLast?_cons, Option.some_or]
  cases between.getLast? <;> rfl

/-- A place at which no key stands is passed over. -/
theorem nextKey_cons_iff {c : Char} (hnone : ∀ name' rest', ¬NamedKeyStands before name' rest' (c :: s)) :
    NextKey before name rest (c :: s) ↔ NextKey (some c) name rest s := by
  constructor
  · rintro ⟨between, key, heq, hkey, hfirst⟩
    cases between with
    | nil => exact absurd (heq ▸ hkey) (hnone name rest)
    | cons d between =>
      obtain ⟨rfl, rfl⟩ := List.cons.inj heq
      refine ⟨between, key, rfl, getLast?_cons_or c between before ▸ hkey, fun earlier later hsplit => ?_⟩
      rw [← getLast?_cons_or c earlier before]
      exact hfirst (c :: earlier) later (by rw [hsplit, List.cons_append])
  · rintro ⟨between, key, rfl, hkey, hfirst⟩
    refine ⟨c :: between, key, rfl, getLast?_cons_or c between before ▸ hkey,
      fun earlier later hsplit hlater => ?_⟩
    cases earlier with
    | nil => exact fun name' rest' h => hnone name' rest' (by rwa [← List.cons_append, hsplit])
    | cons d earlier =>
      obtain ⟨rfl, htail⟩ := List.cons.inj hsplit
      rw [getLast?_cons_or]
      exact hfirst earlier later htail hlater

/-- The key is looked for from the left. -/
theorem nextPartialKey?_eq_some_iff :
    nextPartialKey? before s = some (name, rest) ↔ NextKey before name rest s := by
  induction s generalizing before with
  | nil =>
    refine iff_of_false nofun ?_
    rintro ⟨between, key, heq, hkey, -⟩
    exact hkey.ne_nil (List.append_eq_nil_iff.1 heq.symm).2
  | cons c s ih =>
    rw [nextPartialKey?]
    split
    · rename_i found hfound
      have hhere := namedKey_eq_some_iff.1 hfound
      constructor
      · rintro ⟨⟩
        exact ⟨[], _, rfl, hhere, fun earlier later heq hlater =>
          absurd (List.append_eq_nil_iff.1 heq.symm).2 hlater⟩
      · rintro ⟨between, key, heq, hkey, hfirst⟩
        cases between with
        | nil =>
          obtain rfl := heq
          exact hfound.symm.trans (namedKey_eq_some_iff.2 hkey)
        | cons d between =>
          exact absurd (heq ▸ hhere) (hfirst [] (d :: between) rfl (List.cons_ne_nil _ _) _ _)
    · rename_i hnone
      rw [ih, nextKey_cons_iff fun name' rest' h => ?_]
      rw [namedKey_eq_some_iff.2 h] at hnone
      cases hnone

/-! ## The forms -/

/-- What a reader reads behind the word `render`. -/
theorem afterRender_bind_eq_some_iff {read : Text → Option (Text × Text)} {Reads : Text → Prop}
    (hread : ∀ args, read args = some (name, rest) ↔ Reads args) :
    (afterWord? "render" before s).bind read = some (name, rest) ↔
      EndsWord before ∧ ∃ args, s = "render".toList ++ args ∧ Reads args := by
  simp only [Option.bind_eq_some_iff, afterWord?_eq_some_iff, hread, and_assoc, exists_and_left]

/-- The word that a text begins with, if it begins with one, goes up to where a word ends. -/
theorem wordOf_eq_some_iff :
    (if (s.takeWhile Text.isWordChar).isEmpty then none
      else some (s.takeWhile Text.isWordChar, s.dropWhile Text.isWordChar)) = some (name, rest) ↔
      s = name ++ rest ∧ name ≠ [] ∧ (∀ c ∈ name, Text.isWordChar c = true) ∧ EndsWord rest.head? := by
  constructor
  · intro h
    split at h
    · cases h
    · rename_i hne
      cases h
      refine ⟨List.takeWhile_append_dropWhile.symm, by simpa using hne,
        fun c hc => List.mem_takeWhile_imp hc, fun c hc => ?_⟩
      have hdrop := List.head?_dropWhile_not Text.isWordChar s
      rw [Option.mem_def.1 hc] at hdrop
      exact hdrop
  · rintro ⟨rfl, hne, hname, hrest⟩
    rw [Text.takeWhile_append_of_stop hname hrest, Text.dropWhile_append_of_stop hname hrest,
      if_neg (by simpa using hne)]

/-- The reader of a form reads what the form shows. -/
theorem Form.read_eq_some_iff (form : Form) :
    form.read before s = some (name, rest) ↔ form.Shows before name rest s := by
  cases form with
  | name => exact afterRender_bind_eq_some_iff fun args => quotedName?_skip_eq_some_iff skipParen_eq_cons_iff
  | key =>
    refine afterRender_bind_eq_some_iff fun args => ?_
    split
    · rename_i hgoes
      exact iff_of_false nofun fun h => any_isWordChar_eq_true_iff.1 hgoes h.1
    · rename_i hends
      rw [nextPartialKey?_eq_some_iff, and_iff_right (not_not.1 (hends ∘ any_isWordChar_eq_true_iff.2))]
  | model =>
    refine afterRender_bind_eq_some_iff fun args => ?_
    constructor
    · intro h
      split at h
      · rename_i model hskip
        obtain ⟨opening, rfl, hopening⟩ := (skipParen_eq_cons_iff (by decide) (by decide)).1 hskip
        obtain ⟨rfl, hname⟩ := wordOf_eq_some_iff.1 h
        exact ⟨opening, rfl, hopening, hname⟩
      · cases h
    · rintro ⟨opening, rfl, hopening, hname⟩
      rw [(skipParen_eq_cons_iff (by decide) (by decide)).2 ⟨opening, rfl, hopening⟩]
      exact wordOf_eq_some_iff.2 ⟨rfl, hname⟩

/-- What stands behind a call stands in the text behind the word `render`. -/
theorem Form.Shows.length_lt {form : Form} (h : form.Shows before name rest s) : rest.length < s.length := by
  obtain ⟨-, args, rfl, h⟩ := h
  have hsuffix : rest <:+ args := by
    cases form with
    | name =>
      obtain ⟨opening, quoted, rfl, -⟩ := h
      exact ⟨opening ++ quoted, by simp⟩
    | key =>
      obtain ⟨-, between, key, rfl, hkey, -⟩ := h
      exact hkey.suffix.trans (List.suffix_append _ _)
    | model =>
      obtain ⟨opening, rfl, -⟩ := h
      exact ⟨opening ++ '@' :: name, by simp⟩
  rw [List.length_append]
  exact Nat.lt_of_le_of_lt hsuffix.length_le (Nat.lt_add_of_pos_left (by decide))

end Template

end TemplateAudit
