import TemplateAudit.Proofs.Helper.Markup
import TemplateAudit.Proofs.Markup.Attributes

/-!
# The attributes of helpers are read back

The names that options and helpers give to attributes hold nothing that means something between attributes
(`isWrittenName_of_isKeyName`), so the attributes of a helper are among those that are read back from what is
written (`attributes_read_back`).
-/

namespace TemplateAudit

namespace Helper

open Markup (IsTagOf IsWrittenName ReadAs)

variable {name code : Text} {attrs : List (Text × Text)} {rendered : Rendered} {call : Call}

/-- Letters, numerals, underscores and hyphens mean nothing between attributes. -/
theorem isWrittenName_of_isKeyName (h : IsKeyName name) : IsWrittenName name := by
  refine ⟨h.1, List.all_eq_true.2 fun c hc => ?_⟩
  have hkey := h.2 c hc
  have hblank : Text.isBlank c = false := by
    rcases Bool.or_eq_true_iff.1 hkey with hword | hhyphen
    · exact Text.isBlank_of_isWordChar hword
    · rw [beq_iff_eq.1 hhyphen]
      decide
  have hmarks : c ≠ '"' ∧ c ≠ '\'' ∧ c ≠ '=' ∧ c ≠ '>' := by
    refine ⟨?_, ?_, ?_, ?_⟩ <;>
    · rintro rfl
      revert hkey
      decide
  simp [Markup.isWrittenNameChar, hblank, hmarks]

/-- The attributes that the options of a call write have such names. -/
theorem isWrittenName_optionAttributes (h : Call.read? code = some call) :
    ∀ attr ∈ optionAttributes call.options, IsWrittenName attr.1 := fun attr hattr =>
  isWrittenName_of_isKeyName (allKeyNamed_optionAttributes (keyed_of_read? h) attr hattr)

/-- What a helper writes begins with the start tag of an element, and its attributes have such names. -/
theorem exists_startTag_of_render? {block : Bool} (h : render? code = some (rendered, block)) :
    ∃ element tag attrs rest, IsTagOf element tag ∧ rendered.markup = Markup.startTag tag attrs ++ rest ∧
      ∀ attr ∈ attrs, IsWrittenName attr.1 := by
  have hnames : ∀ {attrs : List (Text × Text)}, AllKeyNamed attrs → ∀ attr ∈ attrs, IsWrittenName attr.1 :=
    fun hattrs attr hattr => isWrittenName_of_isKeyName (hattrs attr hattr)
  cases shaped_of_render? h with
  | @void element tag attrs htag _ hattrs =>
    exact ⟨element, tag, attrs, [], htag, (List.append_nil _).symm, hnames hattrs⟩
  | @whole element tag body attrs htag hattrs _ =>
    exact ⟨element, tag, attrs, body ++ Markup.endTag tag, htag, List.append_assoc _ _ _, hnames hattrs⟩
  | @around element tag attrs htag hattrs =>
    exact ⟨element, tag, attrs, [], htag, (List.append_nil _).symm, hnames hattrs⟩

/-- **Written attributes are read back as what was written**, whatever their values hold, and so different attributes
are never written alike.  The names of the attributes that options and helpers write are such that this holds. -/
theorem attributes_read_back :
    (∀ attrs : List (Text × Text), (∀ attr ∈ attrs, IsWrittenName attr.1) →
      ∀ found, ReadAs (Markup.attributes attrs) found ↔ found = attrs) ∧
    (∀ attrs attrs' : List (Text × Text), (∀ attr ∈ attrs, IsWrittenName attr.1) →
      (∀ attr ∈ attrs', IsWrittenName attr.1) → attrs ≠ attrs' → Markup.attributes attrs ≠ Markup.attributes attrs') ∧
    (∀ code call, Call.read? code = some call → ∀ attr ∈ optionAttributes call.options, IsWrittenName attr.1) ∧
    ∀ code rendered block, render? code = some (rendered, block) → ∃ element tag attrs rest,
      IsTagOf element tag ∧ rendered.markup = Markup.startTag tag attrs ++ rest ∧
        ∀ attr ∈ attrs, IsWrittenName attr.1 := by
  refine ⟨fun attrs hattrs found => ?_, fun attrs attrs' hattrs hattrs' hne hsame => ?_, fun _ _ => ?_, fun _ _ _ => ?_⟩
  · constructor
    · exact fun hfound => hfound.unique (Markup.readAs_attributes hattrs)
    · rintro rfl
      exact Markup.readAs_attributes hattrs
  · have hread := Markup.readAs_attributes hattrs
    rw [hsame] at hread
    exact hne (hread.unique (Markup.readAs_attributes hattrs'))
  · exact isWrittenName_optionAttributes
  · exact exists_startTag_of_render?

/-- Values that hold quotes, references, and text that looks like another attribute. -/
def lookalikes : List (Text × Text) :=
  [("title", "\" id=\"x' <&>"), ("aria-label", "&quot;&amp;#x27;"), ("data-é", "")]

/-- A call with such values among its options. -/
def lookalikeCall : Text :=
  "image_tag 'a.png', alt: '\" id=\"', data: \x7b my_key: '&quot;' \x7d"

/-- What this call writes. -/
def lookalikeMarkup : Text :=
  "<img src=\"a.png\" alt=\"&quot; id=&quot;\" data-my-key=\"&amp;quot;\">"

theorem attributes_read_back_lookalikes :
    ((∀ attr ∈ lookalikes, IsWrittenName attr.1) ∧ ReadAs (Markup.attributes lookalikes) lookalikes ∧
      Markup.attributes lookalikes ≠ Markup.attributes lookalikes.reverse) ∧
    (∃ call, Call.read? lookalikeCall = some call ∧ ∀ attr ∈ optionAttributes call.options, IsWrittenName attr.1) ∧
    render? lookalikeCall = some (⟨lookalikeMarkup, none⟩, false) ∧ ∃ element tag attrs rest,
      IsTagOf element tag ∧ lookalikeMarkup = Markup.startTag tag attrs ++ rest ∧
        ∀ attr ∈ attrs, IsWrittenName attr.1 := by
  obtain ⟨hread, hdifferent, hoptions, hhelpers⟩ := attributes_read_back
  have hnames : ∀ attr ∈ lookalikes, IsWrittenName attr.1 := by decide +kernel
  have hnames' : ∀ attr ∈ lookalikes.reverse, IsWrittenName attr.1 := by decide +kernel
  have hsome : (Call.read? lookalikeCall).isSome = true := by decide +kernel
  obtain ⟨call, hcall⟩ := Option.isSome_iff_exists.1 hsome
  have hrender : render? lookalikeCall = some (⟨lookalikeMarkup, none⟩, false) := by decide +kernel
  refine ⟨⟨hnames, (hread lookalikes hnames lookalikes).2 rfl, ?_⟩, ⟨call, hcall, hoptions lookalikeCall call hcall⟩,
    hrender, hhelpers lookalikeCall _ _ hrender⟩
  exact hdifferent lookalikes lookalikes.reverse hnames hnames' (by decide)

end Helper

end TemplateAudit
