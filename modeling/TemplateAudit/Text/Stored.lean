import TemplateAudit.Text.Basic

/-!
# Stored text

A file holds a text as bytes in UTF-8.  Only the one encoding of each character counts, and no
encoding of half a character.  Lines that end in a carriage return, alone or with a newline, end in a
newline once they are read.
-/

namespace TemplateAudit

namespace Text

/-- The text that bytes hold. -/
def ofBytes? (bytes : ByteArray) : Option Text :=
  (String.fromUTF8? bytes).map String.toList

/-- The bytes that hold a text. -/
def toBytes (s : Text) : ByteArray :=
  (String.ofList s).toUTF8

/-- A text with every end of a line written as a newline. -/
def withNewlines : Text → Text
  | [] => []
  | '\r' :: '\n' :: s => '\n' :: withNewlines s
  | c :: s => (if c = '\r' then '\n' else c) :: withNewlines s

/-- The text that bytes hold, its lines ending in newlines. -/
def ofFile? (bytes : ByteArray) : Option Text :=
  (ofBytes? bytes).map withNewlines

/-- What was written can be read. -/
theorem ofBytes?_toBytes (s : Text) : ofBytes? (toBytes s) = some s := by
  have valid := (String.ofList s).isValidUTF8
  have same : String.fromUTF8 (String.ofList s).toByteArray valid = String.ofList s :=
    String.toByteArray_inj.1 rfl
  simp only [ofBytes?, toBytes, String.toUTF8, String.fromUTF8?, dif_pos valid, same,
    Option.map_some, String.toList_ofList]

/-- The bytes that hold no text are those that are not in UTF-8. -/
theorem ofFile?_eq_none {bytes : ByteArray} : ofFile? bytes = none ↔ ¬bytes.IsValidUTF8 := by
  simp [ofFile?, ofBytes?, String.fromUTF8?]

/-- A text without carriage returns stays as it is. -/
theorem withNewlines_eq_self {s : Text} (h : '\r' ∉ s) : withNewlines s = s := by
  induction s with
  | nil => rfl
  | cons c s ih =>
    obtain ⟨hc, hs⟩ := List.ne_and_not_mem_of_not_mem_cons h
    rw [withNewlines, if_neg (Ne.symm hc), ih hs]
    exact fun _ heq _ => hc heq.symm

/-- A text without carriage returns is read back from its file. -/
theorem ofFile?_toBytes {s : Text} (h : '\r' ∉ s) : ofFile? (toBytes s) = some s := by
  rw [ofFile?, ofBytes?_toBytes, Option.map_some, withNewlines_eq_self h]

end Text

end TemplateAudit
