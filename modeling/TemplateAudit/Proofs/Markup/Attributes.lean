import TemplateAudit.Markup.Attributes
import TemplateAudit.Proofs.Markup.Context
import TemplateAudit.Proofs.Markup.Escaped
import TemplateAudit.Proofs.Text.Parts

/-!
# Written attributes are read back

Resolving references undoes escaping (`unescape_escapeValue`), and no escaped value holds the double quote that
would end it.  So written attributes are read as what was written (`readAs_attributes`), and since a text is read
in one way only (`ReadAs.unique`), different attributes are never written alike.
-/

namespace TemplateAudit

namespace Markup

variable {c : Char} {s : Text} {attrs attrs' : List (Text × Text)}

/-! ## References -/

theorem unescape_cons (hc : c ≠ '&') (s : Text) : unescape (c :: s) = c :: unescape s := by
  conv_lhs => unfold unescape
  split <;> simp_all

/-- What is written for a character is resolved to the character, whatever stands behind it. -/
theorem unescape_escapeValueChar (c : Char) (s : Text) :
    unescape (escapeValueChar c ++ s) = c :: unescape s := by
  by_cases hescaped : c ∈ escapedChars
  · simp only [escapedChars, List.mem_cons, List.not_mem_nil, or_false] at hescaped
    rcases hescaped with rfl | rfl | rfl | rfl | rfl <;> rfl
  · have hand : c ≠ '&' := by
      rintro rfl
      exact hescaped List.mem_cons_self
    rw [escapeValueChar_of_not_mem hescaped, List.singleton_append, unescape_cons hand]

/-- Resolving references undoes escaping, also where the text holds references itself. -/
theorem unescape_escapeValue (s : Text) : unescape (escapeValue s) = s := by
  induction s with
  | nil => rfl
  | cons c s ih => rw [escapeValue_cons, unescape_escapeValueChar, ih]

/-! ## Attributes -/

/-- Written attributes are read as what was written. -/
theorem readAs_attributes (h : ∀ attr ∈ attrs, IsWrittenName attr.1) : ReadAs (attributes attrs) attrs := by
  induction attrs with
  | nil => exact .nil
  | cons attr attrs ih =>
    obtain ⟨hname, hattrs⟩ := List.forall_mem_cons.1 h
    have hread := ReadAs.cons hname (not_mem_escapeValue attr.2).2 (ih hattrs)
    rw [unescape_escapeValue] at hread
    have hshape : attributes (attr :: attrs) =
        ' ' :: (attr.1 ++ '=' :: '"' :: (escapeValue attr.2 ++ '"' :: attributes attrs)) := by
      simp [attributes, oneAttribute]
    rwa [hshape]

/-- No name holds an equals sign. -/
theorem IsWrittenName.not_mem {name : Text} (h : IsWrittenName name) : '=' ∉ name := fun hmem =>
  absurd (List.all_eq_true.1 h.2 '=' hmem) (by decide)

/-- A text is read in one way only. -/
theorem ReadAs.unique (h : ReadAs s attrs) (h' : ReadAs s attrs') : attrs = attrs' := by
  induction h generalizing attrs' with
  | nil =>
    cases h'
    rfl
  | @cons name value rest attrs hname hvalue _ ih =>
    generalize htext : ' ' :: (name ++ '=' :: '"' :: (value ++ '"' :: rest)) = text at h'
    cases h' with
    | nil => cases htext
    | cons hname' hvalue' hrest' =>
      obtain ⟨rfl, hbehind⟩ := Text.append_mark_inj hname.not_mem hname'.not_mem (List.cons.inj htext).2
      obtain ⟨rfl, rfl⟩ := Text.append_mark_inj hvalue hvalue' (List.cons.inj hbehind).2
      rw [ih hrest']

end Markup

end TemplateAudit
