import TemplateAudit.Proofs.Helper.Keys
import TemplateAudit.Proofs.Helper.Rendered
import TemplateAudit.Proofs.Markup.RawText

/-!
# The markup of calls

Whatever its arguments and options hold, a known helper writes one of three shapes (`Shaped`): a start
tag whose element has no body, an element with a body in which no tag opens, or a start tag with its end
tag apart.  So what a call stands for leaves body text as body text, unless it opens a script or a style
element for its block, and the end tag of a block leads back to body text (`render?_keepsContext`).
-/

namespace TemplateAudit

namespace Helper

open Markup (AllNamed IsElementName IsTagOf endTag)
open Markup.Context

variable {call : Call} {rendered : Rendered} {element tag body : Text} {attrs : List (Text × Text)}

/-! ## Shapes -/

/-- The markup of a call is one of three shapes, with names that end no tag and bodies that open
none. -/
inductive Shaped : Rendered → Prop
  | void {element tag : Text} {attrs : List (Text × Text)} (htag : IsTagOf element tag)
      (hmarkup : element ∉ rawTextElements) (hattrs : AllKeyNamed attrs) : Shaped (void tag attrs)
  | whole {element tag body : Text} {attrs : List (Text × Text)} (htag : IsTagOf element tag)
      (hattrs : AllKeyNamed attrs) (hbody : '<' ∉ body) : Shaped (whole tag attrs body)
  | around {element tag : Text} {attrs : List (Text × Text)} (htag : IsTagOf element tag)
      (hattrs : AllKeyNamed attrs) : Shaped (around tag attrs)

theorem shaped_element (htag : IsTagOf element tag) (hattrs : AllKeyNamed attrs) (hbody : '<' ∉ body) :
    Shaped (Helper.element call tag attrs body) := by
  rw [Helper.element]
  split
  · exact .around htag hattrs
  · exact .whole htag hattrs hbody

/-! ## Bodies and tags -/

/-- No value opens a tag in body text. -/
theorem not_mem_asBody (value : Value) : '<' ∉ value.asBody := by
  cases value with
  | str text => exact Markup.not_mem_escapeBody text
  | sym name => exact Markup.not_mem_escapeBody name
  | dynamic _ => exact (by decide : '<' ∉ placeholder)
  | nil => exact List.not_mem_nil
  | bool _ => exact List.not_mem_nil
  | hash _ => exact List.not_mem_nil

theorem not_mem_labelText (call : Call) (name : Text) : '<' ∉ labelText call name := by
  rw [labelText]
  split
  · exact (by decide : '<' ∉ placeholder)
  · exact (Markup.not_mem_escapeValue _).1
  · exact not_mem_asBody _

/-- A name of letters and digits is written as it is. -/
theorem isTagOf_self (h : IsElementName tag) : IsTagOf tag tag :=
  ⟨h, .inl rfl⟩

/-- The tag that a call may name is that of an element. -/
theorem exists_isTagOf (h : isTagName tag = true) : ∃ element, IsTagOf element tag := by
  refine ⟨Text.dropFinal '\n' tag, ?_, ?_⟩
  · rw [isTagName] at h
    split at h
    · cases h
    · rename_i c rest heq
      rw [heq]
      obtain ⟨hc, hrest⟩ := Bool.and_eq_true_iff.1 h
      refine ⟨hc, List.forall_mem_cons.2 ⟨.inl hc, fun d hd => ?_⟩⟩
      simpa using List.all_eq_true.1 hrest d hd
  · rw [Text.dropFinal]
    split
    · rename_i hlast
      exact .inr (List.dropLast_append_getLast? _ hlast).symm
    · exact .inl rfl

/-! ## Renderers -/

section Renderers

variable (hkeys : Keyed call.options)
include hkeys

theorem shaped_renderInput {type : Text} (h : renderInput type call = some rendered) : Shaped rendered := by
  obtain ⟨name, -, rfl⟩ := Option.map_eq_some_iff.1 h
  refine .void (isTagOf_self (by decide)) (by decide) (allKeyNamed_attributesOver hkeys ?_)
  exact ((allKeyNamed_nil.cons (by decide) _).cons (by decide) _).cons (by decide) _

theorem shaped_renderField (htag : IsElementName tag) (h : renderField tag call = some rendered) :
    Shaped rendered := by
  obtain ⟨name, -, rfl⟩ := Option.map_eq_some_iff.1 h
  refine .whole (isTagOf_self htag) (allKeyNamed_attributesOver hkeys ?_) List.not_mem_nil
  exact (allKeyNamed_nil.cons (by decide) _).cons (by decide) _

theorem shaped_renderLabel (h : renderLabel call = some rendered) : Shaped rendered := by
  obtain ⟨name, -, rfl⟩ := Option.map_eq_some_iff.1 h
  refine shaped_element (isTagOf_self (by decide)) (allKeyNamed_attributesOver hkeys ?_)
    (not_mem_labelText call name)
  exact allKeyNamed_nil.cons (by decide) _

theorem shaped_renderSubmit (hattrs : AllKeyNamed attrs) (h : renderSubmit attrs call = some rendered) :
    Shaped rendered := by
  obtain rfl := Option.some.inj h
  exact .void (isTagOf_self (by decide)) (by decide)
    (allKeyNamed_attributesOver hkeys (hattrs.cons (by decide) _))

theorem shaped_renderBuilderSubmit (h : renderBuilderSubmit call = some rendered) : Shaped rendered := by
  rw [renderBuilderSubmit] at h
  split at h
  · exact shaped_renderSubmit hkeys allKeyNamed_nil h
  · exact shaped_renderSubmit hkeys (allKeyNamed_nil.cons (by decide) _) h

theorem shaped_renderSubmitTag (h : renderSubmitTag call = some rendered) : Shaped rendered := by
  rw [renderSubmitTag] at h
  split at h <;> exact shaped_renderSubmit hkeys (allKeyNamed_nil.cons (by decide) _) h

theorem shaped_renderForm (h : renderForm call = some rendered) : Shaped rendered := by
  obtain ⟨-, hform⟩ := Option.ite_none_right_eq_some.1 h
  obtain rfl := Option.some.inj hform
  exact .around (isTagOf_self (by decide)) (allKeyNamed_optionAttributes hkeys)

theorem shaped_renderImage (h : renderImage call = some rendered) : Shaped rendered := by
  rw [renderImage] at h
  split at h
  · cases h
  · obtain rfl := Option.some.inj h
    exact .void (isTagOf_self (by decide)) (by decide)
      (allKeyNamed_attributesOver hkeys (allKeyNamed_nil.cons (by decide) _))

theorem shaped_renderLink (h : renderLink call = some rendered) : Shaped rendered := by
  have hlink : IsTagOf "a".toList "a" := isTagOf_self (by decide)
  have hattrs : ∀ url, AllKeyNamed (call.attributesOver [("href", url)]) := fun url =>
    allKeyNamed_attributesOver hkeys (allKeyNamed_nil.cons (by decide) url)
  rw [renderLink] at h
  split at h
  · obtain rfl := Option.some.inj h
    exact .around hlink (hattrs _)
  · split at h
    · cases h
    · obtain rfl := Option.some.inj h
      exact .whole hlink (hattrs _) (not_mem_asBody _)
    · obtain rfl := Option.some.inj h
      refine .whole hlink (hattrs _) ?_
      split <;> exact not_mem_asBody _

theorem shaped_renderButtonTag (h : renderButtonTag call = some rendered) : Shaped rendered := by
  obtain rfl := Option.some.inj h
  refine shaped_element (isTagOf_self (by decide)) (allKeyNamed_optionAttributes hkeys) ?_
  split
  · decide
  · exact not_mem_asBody _

theorem shaped_renderButton (h : renderButton call = some rendered) : Shaped rendered := by
  rw [renderButton] at h
  split at h
  · cases h
  · obtain rfl := Option.some.inj h
    exact shaped_element (isTagOf_self (by decide)) (allKeyNamed_optionAttributes hkeys) (not_mem_asBody _)

theorem shaped_renderContentTag (h : renderContentTag call = some rendered) : Shaped rendered := by
  have hnamed : ∀ {tag : Text}, (if isTagName tag then
      some (Helper.element call tag call.attributes (call.arg 1).asBody) else none) = some rendered →
      Shaped rendered := by
    intro tag h
    obtain ⟨htag, hrendered⟩ := Option.ite_none_right_eq_some.1 h
    obtain ⟨element, helement⟩ := exists_isTagOf htag
    obtain rfl := Option.some.inj hrendered
    exact shaped_element helement (allKeyNamed_optionAttributes hkeys) (not_mem_asBody _)
  rw [renderContentTag] at h
  split at h
  · exact hnamed h
  · exact hnamed h
  · cases h

/-- Every renderer of the catalogue writes one of the shapes. -/
theorem shaped_of_render {entry : Entry} (hentry : entry ∈ catalogue)
    (h : entry.render call = some rendered) : Shaped rendered := by
  rcases List.mem_append.1 hentry with hinput | hother
  · obtain ⟨helper, -, rfl⟩ := List.mem_map.1 hinput
    exact shaped_renderInput hkeys h
  · simp only [List.mem_cons, List.not_mem_nil, or_false] at hother
    rcases hother with rfl | rfl | rfl | rfl | rfl | rfl | rfl | rfl | rfl | rfl | rfl | rfl | rfl
    · exact shaped_renderField hkeys (by decide) h
    · exact shaped_renderField hkeys (by decide) h
    · exact shaped_renderLabel hkeys h
    · exact shaped_renderBuilderSubmit hkeys h
    · exact shaped_renderSubmitTag hkeys h
    · exact shaped_renderImage hkeys h
    · exact shaped_renderLink hkeys h
    · exact shaped_renderButtonTag hkeys h
    · exact shaped_renderButton hkeys h
    · exact shaped_renderContentTag hkeys h
    · exact shaped_renderForm hkeys h
    · exact shaped_renderForm hkeys h
    · exact shaped_renderForm hkeys h

end Renderers

/-- What a known helper writes is one of the shapes. -/
theorem shaped_of_render? {code : Text} {block : Bool} (h : render? code = some (rendered, block)) :
    Shaped rendered := by
  obtain ⟨call, entry, hcall, hentry, -, hrender, -⟩ := exists_entry_of_render? h
  exact shaped_of_render (keyed_of_read? hcall) (List.mem_of_find?_eq_some hentry) hrender

/-! ## Where the markup leads -/

/-- Is this the end tag of a script or style element, perhaps with a newline after its name? -/
def EndsRawText (ending : Text) : Prop :=
  ∃ element ∈ rawTextElements, ending = endTag element ∨ ending = endTag (element ++ ['\n'])

theorem endTag_injective : Function.Injective endTag :=
  fun _ _ h => List.append_cancel_left (List.append_cancel_right h)

/-- The end tag of an element tells whether it is a script or style element. -/
theorem endsRawText_endTag (htag : IsTagOf element tag) :
    EndsRawText (endTag tag) ↔ element ∈ rawTextElements := by
  constructor
  · rintro ⟨raw, hraw, hending⟩
    have hnames : ∀ raw ∈ rawTextElements, IsElementName raw := by decide
    have hsame : IsTagOf raw tag :=
      ⟨hnames raw hraw, hending.imp (fun h => endTag_injective h) fun h => endTag_injective h⟩
    exact htag.unique hsame ▸ hraw
  · exact fun hraw => ⟨element, hraw, htag.eq.imp (congrArg endTag) (congrArg endTag)⟩

theorem feed_void (htag : IsTagOf element tag) (hmarkup : element ∉ rawTextElements)
    (hattrs : AllNamed attrs) : data.feed (void tag attrs).markup = data := by
  rw [void, feed_startTag htag hattrs, afterTag_eq_data]
  exact Bool.eq_false_iff.2 fun hraw => hmarkup ((inRawText_afterTag htag.name).1 hraw)

theorem feed_whole (htag : IsTagOf element tag) (hattrs : AllNamed attrs) (hbody : '<' ∉ body) :
    data.feed (whole tag attrs body).markup = data := by
  rw [whole, List.append_assoc, feed_append, feed_startTag htag hattrs, feed_body_endTag htag hbody]

/-- A piece of markup leaves body text as body text, or opens a script or style element, and then the end
tag that is written apart is that of such an element; this end tag leads back from any text in
between in which no tag opens. -/
structure KeepsContext (rendered : Rendered) : Prop where
  inRawText_iff : (data.feed rendered.markup).inRawText = true ↔
    ∃ ending ∈ rendered.closing, EndsRawText ending
  eq_data : (data.feed rendered.markup).inRawText = false → data.feed rendered.markup = data
  feed_closing : ∀ ending ∈ rendered.closing, ∀ text, '<' ∉ text →
    data.feed (rendered.markup ++ text ++ ending) = data

/-- Where all of the markup is body text again and no end tag comes apart, nothing else is to be shown. -/
theorem keepsContext_of_feed_eq_data (hclosing : rendered.closing = none)
    (h : data.feed rendered.markup = data) : KeepsContext rendered where
  inRawText_iff := by simp [h, hclosing, inRawText]
  eq_data := fun _ => h
  feed_closing := by simp [hclosing]

theorem Shaped.keepsContext (h : Shaped rendered) : KeepsContext rendered := by
  cases h with
  | void htag hmarkup hattrs => exact keepsContext_of_feed_eq_data rfl (feed_void htag hmarkup hattrs.allNamed)
  | whole htag hattrs hbody => exact keepsContext_of_feed_eq_data rfl (feed_whole htag hattrs.allNamed hbody)
  | @around element tag attrs htag hattrs =>
    have hfeed : data.feed (Helper.around tag attrs).markup = afterTag element :=
      feed_startTag htag hattrs.allNamed
    refine ⟨?_, ?_, ?_⟩
    · rw [hfeed, inRawText_afterTag htag.name, ← endsRawText_endTag htag]
      simp [Helper.around]
    · rw [hfeed]
      exact afterTag_eq_data
    · rintro ending hending text htext
      obtain rfl := Option.some.inj hending
      rw [List.append_assoc, feed_append, hfeed, feed_body_endTag htag htext]

/-- **The markup of a call breaks no context.**  What a known helper writes, whatever its code holds,
leads from body text to body text, unless it opens a script or style element for a block; the end tag of
the block leads back from any text in which no tag opens. -/
theorem render?_keepsContext {code : Text} {block : Bool}
    (h : render? code = some (rendered, block)) : KeepsContext rendered := by
  rw [render?] at h
  split at h
  · cases h
  · rename_i call hcall
    split at h
    · cases h
    · rename_i entry hentry
      obtain ⟨-, hrender⟩ := Option.ite_none_right_eq_some.1 h
      obtain ⟨rendered', hrendered, hpair⟩ := Option.map_eq_some_iff.1 hrender
      obtain ⟨rfl, -⟩ := Prod.mk.inj hpair
      exact (shaped_of_render (keyed_of_read? hcall) (List.mem_of_find?_eq_some hentry) hrendered).keepsContext

/-- A style element with an option that would end its tag. -/
def breaking : Text :=
  "content_tag 'style', 'data-x': '\"><b title=' do |x|"

/-- The tag of the style element stays whole. -/
theorem render?_keepsContext_breaking :
    render? breaking = some (⟨"<style data-x=\"&quot;&gt;&lt;b title=\">", some "</style>"⟩, true) ∧
      KeepsContext ⟨"<style data-x=\"&quot;&gt;&lt;b title=\">", some "</style>"⟩ := by
  have hrender : render? breaking =
      some (⟨"<style data-x=\"&quot;&gt;&lt;b title=\">", some "</style>"⟩, true) := by decide +kernel
  exact ⟨hrender, render?_keepsContext hrender⟩

end Helper

end TemplateAudit
