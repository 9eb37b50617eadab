import TemplateAudit.Markup.Context
import TemplateAudit.Markup.Escape
import TemplateAudit.Proofs.Text.Case

/-!
# Where written markup leads

What is written as an attribute value, as body text or as an attribute name cannot leave its place:
escaped text ends no value and opens no tag (`feed_attributes`, `feed_data`).  So a start tag leads from
body text into its element (`feed_startTag`), and an end tag from body text to body text (`feed_endTag`).
-/

namespace TemplateAudit

namespace Markup

variable {c : Char} {s body : Text}

/-! ## Escaped text -/

theorem not_mem_escapeBodyChar (c : Char) : '<' ∉ escapeBodyChar c := by
  rw [escapeBodyChar]
  split
  · decide
  · split
    · decide
    · split
      · decide
      · rename_i hlt _
        simpa using Ne.symm hlt

/-- Escaped body text opens no tag. -/
theorem not_mem_escapeBody (s : Text) : '<' ∉ escapeBody s := by
  intro h
  obtain ⟨c, -, hc⟩ := List.mem_flatMap.1 h
  exact not_mem_escapeBodyChar c hc

/-- An escaped value opens no tag and does not end at a double quote. -/
theorem not_mem_escapeValueChar (c : Char) : '<' ∉ escapeValueChar c ∧ '"' ∉ escapeValueChar c := by
  rw [escapeValueChar]
  split
  · decide
  · split
    · decide
    · refine ⟨not_mem_escapeBodyChar c, ?_⟩
      rename_i hquote _
      rw [escapeBodyChar]
      split
      · decide
      · split
        · decide
        · split
          · decide
          · simpa using Ne.symm hquote

theorem not_mem_escapeValue (s : Text) : '<' ∉ escapeValue s ∧ '"' ∉ escapeValue s := by
  constructor <;> intro h <;> obtain ⟨c, -, hc⟩ := List.mem_flatMap.1 h
  · exact (not_mem_escapeValueChar c).1 hc
  · exact (not_mem_escapeValueChar c).2 hc

/-! ## Names -/

/-- Nothing in the name of an attribute ends the tag or begins a value. -/
def IsAttributeName (name : Text) : Prop :=
  ∀ c ∈ name, c ≠ '>' ∧ c ≠ '='

instance (name : Text) : Decidable (IsAttributeName name) :=
  List.decidableBAll (fun c => c ≠ '>' ∧ c ≠ '=') name

/-- No name among the attributes ends the tag or begins a value. -/
def AllNamed (attrs : List (Text × Text)) : Prop :=
  ∀ attr ∈ attrs, IsAttributeName attr.1

theorem allNamed_nil : AllNamed [] :=
  List.forall_mem_nil _

theorem AllNamed.cons {attrs : List (Text × Text)} (h : AllNamed attrs) {name : Text}
    (hname : IsAttributeName name) (value : Text) : AllNamed ((name, value) :: attrs) :=
  List.forall_mem_cons.2 ⟨hname, h⟩

/-- Small letters and digits, a letter first. -/
structure IsElementName (name : Text) : Prop where
  head : name.head?.any Char.isLower = true
  all : ∀ c ∈ name, c.isLower = true ∨ c.isDigit = true

instance (name : Text) : Decidable (IsElementName name) :=
  decidable_of_iff
    (name.head?.any Char.isLower = true ∧ name.all (fun c => c.isLower || c.isDigit) = true)
    ⟨fun h => ⟨h.1, by simpa using h.2⟩, fun h => ⟨h.head, by simpa using h.all⟩⟩

/-- Is a tag that of an element?  There may be a newline after the name. -/
structure IsTagOf (element tag : Text) : Prop where
  name : IsElementName element
  eq : tag = element ∨ tag = element ++ ['\n']

namespace IsElementName

variable {name : Text} (h : IsElementName name)
include h

theorem isSmall : ∀ c ∈ name, Text.IsSmall c :=
  fun c hc => Text.isSmall_of_isLower_or_isDigit (h.all c hc)

theorem isAlphanum (hc : c ∈ name) : c.isAlphanum = true := by
  rcases h.all c hc with hlower | hdigit
  · simp [Char.isAlphanum, Char.isAlpha, hlower]
  · simp [Char.isAlphanum, hdigit]

theorem not_mem (hc : c.isAlphanum = false) : c ∉ name := by
  intro hmem
  rw [h.isAlphanum hmem] at hc
  cases hc

end IsElementName

/-- An element has one name. -/
theorem IsTagOf.unique {element element' tag : Text} (h : IsTagOf element tag)
    (h' : IsTagOf element' tag) : element = element' := by
  have hnewline : ∀ {a b : Text}, IsElementName a → a ≠ b ++ ['\n'] := by
    rintro a b ha rfl
    exact ha.not_mem (c := '\n') (by decide) (by simp)
  rcases h.eq with rfl | rfl <;> rcases h'.eq with heq | heq
  · exact heq
  · exact absurd heq (hnewline h.name)
  · exact absurd heq.symm (hnewline h'.name)
  · exact List.append_cancel_right heq

namespace Context

variable {name tag : Text} {naming : Bool}

theorem feed_cons (context : Context) (c : Char) (s : Text) :
    context.feed (c :: s) = (context.step c).feed s := rfl

theorem feed_singleton (context : Context) (c : Char) : context.feed [c] = context.step c := rfl

/-- Chunks are fed like the text they make up. -/
theorem feed_chunks (context : Context) (chunks : List Text) :
    chunks.foldl feed context = context.feed chunks.flatten :=
  List.foldl_flatten.symm

/-! ## Text that stays where it is -/

theorem feed_eq_self {context : Context} (h : ∀ c ∈ s, context.step c = context) :
    context.feed s = context := by
  induction s with
  | nil => rfl
  | cons c s ih =>
    obtain ⟨hc, hs⟩ := List.forall_mem_cons.1 h
    rw [feed_cons, hc, ih hs]

/-- Text without a `<` opens no tag. -/
theorem feed_data (h : '<' ∉ s) : data.feed s = data :=
  feed_eq_self fun _ hc => if_neg (ne_of_mem_of_not_mem hc h)

theorem feed_doubleQuoted (h : '"' ∉ s) : (doubleQuoted name).feed s = doubleQuoted name :=
  feed_eq_self fun _ hc => if_neg (ne_of_mem_of_not_mem hc h)

theorem feed_attributeName (h : IsAttributeName s) : (Context.tag name false).feed s = .tag name false := by
  refine feed_eq_self fun c hc => ?_
  obtain ⟨hend, hvalue⟩ := h c hc
  rw [step, Bool.false_and, if_neg (by decide), if_neg hend, if_neg hvalue]

/-! ## Tags -/

/-- In a tag one stays there up to an end or an equals sign. -/
theorem exists_feed_tag (h : IsAttributeName s) (name : Text) (naming : Bool) :
    ∃ name' naming', (Context.tag name naming).feed s = .tag name' naming' := by
  induction s generalizing name naming with
  | nil => exact ⟨name, naming, rfl⟩
  | cons c s ih =>
    obtain ⟨⟨hend, hvalue⟩, hs⟩ := List.forall_mem_cons.1 h
    rw [feed_cons, step]
    split
    · exact ih hs _ _
    · exact ih hs _ _

/-- The name of a tag ends at a character that stands in no name. -/
theorem step_tag (hnaming : (Text.isLetterOrNumeral c || decide (c = '-')) = false) (hend : c ≠ '>')
    (hvalue : c ≠ '=') : (Context.tag name naming).step c = .tag name false := by
  rw [step, hnaming, Bool.and_false, if_neg (by decide), if_neg hend, if_neg hvalue]

theorem step_newline : (Context.tag name naming).step '\n' = .tag name false :=
  step_tag (by decide) (by decide) (by decide)

theorem step_tag_end : (Context.tag name naming).step '>' = afterTag name := by
  have hnaming : (Text.isLetterOrNumeral '>' || decide ('>' = '-')) = false := by decide
  rw [step, hnaming, Bool.and_false, if_neg (by decide), if_pos rfl]

/-- An attribute stays in the tag, whatever its value is. -/
theorem feed_oneAttribute {key : Text} (hkey : IsAttributeName key) (value : Text) :
    (Context.tag name naming).feed (oneAttribute key value) = .tag name false := by
  have hspace : (Context.tag name naming).feed " ".toList = .tag name false :=
    step_tag (by decide) (by decide) (by decide)
  have hopen : (Context.tag name false).feed "=\"".toList = .doubleQuoted name := rfl
  have hclose : (Context.doubleQuoted name).feed "\"".toList = .tag name false := rfl
  simp only [oneAttribute, feed_append]
  rw [hspace, feed_attributeName hkey, hopen, feed_doubleQuoted (not_mem_escapeValue value).2, hclose]

/-- Attributes stay in the tag. -/
theorem feed_attributes {attrs : List (Text × Text)} (h : AllNamed attrs) (name : Text) (naming : Bool) :
    ∃ naming', (Context.tag name naming).feed (attributes attrs) = .tag name naming' := by
  induction attrs generalizing naming with
  | nil => exact ⟨naming, rfl⟩
  | cons attr attrs ih =>
    obtain ⟨hattr, hattrs⟩ := List.forall_mem_cons.1 h
    rw [attributes, List.flatMap_cons, feed_append, feed_oneAttribute hattr]
    exact ih hattrs false

theorem feed_attributes_end {attrs : List (Text × Text)} (h : AllNamed attrs) :
    (Context.tag name naming).feed (attributes attrs ++ ['>']) = afterTag name := by
  obtain ⟨naming', hattrs⟩ := feed_attributes h name naming
  rw [feed_append, hattrs, feed_singleton, step_tag_end]

/-- A name goes on with letters and digits. -/
theorem step_tag_of_isAlphanum (h : c.isAlphanum = true) :
    (Context.tag name true).step c = .tag (name ++ [c]) true := by
  have hword : Text.isLetterOrNumeral c = true := by
    have := Text.toNat_of_isAlphanum h
    rw [Text.isLetterOrNumeral, if_pos (by omega), h]
  rw [step, hword]
  rfl

theorem feed_name (h : ∀ c ∈ s, c.isAlphanum = true) (name : Text) :
    (Context.tag name true).feed s = .tag (name ++ s) true := by
  induction s generalizing name with
  | nil => rw [List.append_nil]; rfl
  | cons c s ih =>
    obtain ⟨hc, hs⟩ := List.forall_mem_cons.1 h
    rw [feed_cons, step_tag_of_isAlphanum hc, ih hs, List.append_assoc, List.singleton_append]

/-- The text of a tag is its name, and a newline that may follow it. -/
theorem feed_tag {element : Text} (h : IsTagOf element tag) (name : Text) :
    ∃ naming', (Context.tag name true).feed tag = .tag (name ++ element) naming' := by
  have hname := feed_name (fun c hc => h.name.isAlphanum hc) name
  rcases h.eq with rfl | rfl
  · exact ⟨true, hname⟩
  · refine ⟨false, ?_⟩
    rw [feed_append, hname, feed_singleton, step_newline]

/-- A tag is entered at the first letter of its name. -/
theorem feed_lt {element : Text} (h : IsTagOf element tag) :
    lt.feed tag = (Context.tag [] true).feed tag := by
  obtain ⟨c, hc, hletter⟩ := (Option.any_eq_true _ _).1 h.name.head
  obtain ⟨rest, rfl⟩ : ∃ rest, tag = c :: rest := by
    obtain ⟨rest, hrest⟩ := List.head?_eq_some_iff.1 hc
    rcases h.eq with rfl | rfl
    · exact ⟨rest, hrest⟩
    · exact ⟨rest ++ ['\n'], by rw [hrest, List.cons_append]⟩
  have halphanum := h.name.isAlphanum (List.mem_of_mem_head? hc)
  have hisLetter : Text.isLetter c = true := by
    have := Text.toNat_of_isAlphanum halphanum
    rw [Text.isLetter, if_pos (by omega), Char.isAlpha, hletter, Bool.or_true]
  have hstep : lt.step c = .tag [c] true := by
    rw [step, hisLetter]
    rfl
  rw [feed_cons, feed_cons, hstep, step_tag_of_isAlphanum halphanum]
  rfl

/-- **A start tag leads from body text to where its element begins**, whatever its attributes are. -/
theorem feed_startTag {element : Text} {attrs : List (Text × Text)} (htag : IsTagOf element tag)
    (hattrs : AllNamed attrs) :
    data.feed (startTag tag attrs) = afterTag element := by
  have hopen : data.feed "<".toList = lt := rfl
  obtain ⟨naming, hname⟩ := feed_tag htag []
  rw [startTag, List.append_assoc, List.append_assoc, feed_append, hopen, feed_append, feed_lt htag, hname]
  exact feed_attributes_end hattrs

/-! ## Elements -/

/-- Only script and style elements have a body that is no markup. -/
theorem afterTag_of_isElementName (h : IsElementName name) :
    afterTag name = if name ∈ rawTextElements then rawText name [] else data := by
  rw [afterTag, Text.lower_eq_self h.isSmall]

/-- Where an element begins is the text of a script or style element, or body text. -/
theorem inRawText_afterTag (h : IsElementName name) :
    (afterTag name).inRawText = true ↔ name ∈ rawTextElements := by
  rw [afterTag_of_isElementName h]
  split
  · rename_i hraw
    exact ⟨fun _ => hraw, fun _ => rfl⟩
  · rename_i hmarkup
    exact ⟨fun hraw => (by cases hraw), fun hraw => absurd hraw hmarkup⟩

theorem afterTag_eq_data (h : (afterTag name).inRawText = false) : afterTag name = data := by
  simp only [afterTag] at h ⊢
  split at h
  · cases h
  · rename_i hmarkup
    exact if_neg hmarkup

/-- Behind the name in an end tag it leads to body text. -/
theorem afterTag_slash (element : Text) : afterTag ('/' :: element) = data := by
  have hlower : Text.lower ('/' :: element) = '/' :: Text.lowerFrom ['/'] element := by
    rw [Text.lower, Text.lowerFrom, Text.lowerWithin_of_isSmall ⟨by decide, by decide⟩]
    rfl
  rw [afterTag, hlower]
  exact if_neg (by simp [rawTextElements])

/-- What follows the `/` of an end tag leads to body text. -/
theorem feed_slash {element : Text} (htag : IsTagOf element tag) :
    (Context.tag ['/'] true).feed (tag ++ ['>']) = data := by
  obtain ⟨naming, hname⟩ := feed_tag htag ['/']
  rw [feed_append, hname, feed_singleton, step_tag_end]
  exact afterTag_slash element

theorem feed_endTag {element : Text} (htag : IsTagOf element tag) : data.feed (endTag tag) = data := by
  have hopen : data.feed "</".toList = .tag ['/'] true := rfl
  rw [endTag, List.append_assoc, feed_append, hopen]
  exact feed_slash htag

end Context

end Markup

end TemplateAudit
