import Mathlib.Tactic.ByContra
import TemplateAudit.Helper.Catalogue

/-!
# Calls with a block

A known helper writes an end tag apart only for a call with a block (`closing_eq_none`), and a call has
a block just when its code opens one (`block_of_render?`).
-/

namespace TemplateAudit

namespace Helper

variable {call : Call} {rendered : Rendered} {tag body : Text} {attrs : List (Text × Text)}

/-! ## Shapes of markup -/

@[simp]
theorem closing_void : (void tag attrs).closing = none := rfl

@[simp]
theorem closing_whole : (whole tag attrs body).closing = none := rfl

theorem closing_element (h : call.block = false) : (element call tag attrs body).closing = none := by
  rw [element, h]
  rfl

/-! ## Renderers -/

/-- Without a block a renderer writes no end tag apart. -/
theorem closing_eq_none {entry : Entry} (hentry : entry ∈ catalogue) (hblock : call.block = false)
    (h : entry.render call = some rendered) : rendered.closing = none := by
  rcases List.mem_append.1 hentry with hinput | hother
  · obtain ⟨helper, -, rfl⟩ := List.mem_map.1 hinput
    obtain ⟨name, -, rfl⟩ := Option.map_eq_some_iff.1 h
    rfl
  · simp only [List.mem_cons, List.not_mem_nil, or_false] at hother
    rcases hother with rfl | rfl | rfl | rfl | rfl | rfl | rfl | rfl | rfl | rfl | rfl | rfl | rfl <;>
      grind [renderField, renderLabel, renderBuilderSubmit, renderSubmitTag, renderSubmit, renderImage,
        renderLink, renderButtonTag, renderButton, renderContentTag, renderForm, closing_void,
        closing_whole, closing_element, Option.map_eq_some_iff]

/-! ## Calls -/

theorem block_of_read? {code : Text} (h : Call.read? code = some call) :
    call.block = opensBlock (Text.trim code) := by
  simp only [Call.read?] at h
  split at h
  · cases h
  · split at h
    · cases h
    · obtain rfl := Option.some.inj h
      rfl

/-- Markup is written for a call that can be read, by the renderer that the catalogue has for its name. -/
theorem exists_entry_of_render? {code : Text} {block : Bool} (h : render? code = some (rendered, block)) :
    ∃ call entry, Call.read? code = some call ∧ find? call.name = some entry ∧
      entry.onReceiver = call.receiver.isSome ∧ entry.render call = some rendered ∧ block = call.block := by
  rw [render?] at h
  split at h
  · cases h
  · rename_i call hcall
    split at h
    · cases h
    · rename_i entry hentry
      obtain ⟨hreceiver, hmap⟩ := Option.ite_none_right_eq_some.1 h
      obtain ⟨rendered', hrender, hpair⟩ := Option.map_eq_some_iff.1 hmap
      obtain ⟨rfl, rfl⟩ := Prod.mk.inj hpair
      exact ⟨call, entry, hcall, hentry, beq_iff_eq.1 hreceiver, hrender, rfl⟩

/-- A call that is written as markup has a block when its code opens one, and an end tag apart only
then. -/
theorem block_of_render? {code : Text} {block : Bool} (h : render? code = some (rendered, block)) :
    block = opensBlock (Text.trim code) ∧ (rendered.closing.isSome → block = true) := by
  obtain ⟨call, entry, hcall, hentry, -, hrender, rfl⟩ := exists_entry_of_render? h
  refine ⟨block_of_read? hcall, fun hclosing => ?_⟩
  by_contra hblock
  rw [closing_eq_none (List.mem_of_find?_eq_some hentry) (Bool.eq_false_iff.2 hblock) hrender] at hclosing
  cases hclosing

end Helper

end TemplateAudit
