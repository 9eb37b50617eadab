import TemplateAudit.Proofs.Css.Quoted
import TemplateAudit.Rule.LabelTarget

/-!
# The selector for a label

The selector that is written for the label of a field asks for a label with the id of the field, whatever characters
this holds (`read?_labelSelector`).  Only the character with the number zero cannot be asked for.
-/

namespace TemplateAudit

namespace Rule

open Css (readable)

/-- A label that names the field with a given id. -/
def labelFor (fieldId : Text) : Css.Pattern :=
  .simple (some "label") [.value "for" .equals fieldId false]

theorem bracket?_for (s : Text) : Css.bracket? ("for=".toList ++ s) =
    match Css.string? s with
    | none => none
    | some (wanted, s) => Css.valueEnd? "for" .equals wanted s := rfl

/-- The brackets of the selector hold one condition. -/
theorem bracket?_labelSelector (fieldId rest : Text) :
    Css.bracket? ("for=".toList ++ (Css.quote fieldId ++ ']' :: rest)) =
      some (.value "for" .equals (fieldId.map readable) false, rest) := by
  rw [bracket?_for, Css.string?_quote]
  rfl

/-- **The selector for a label is read as what is meant by it**, whatever the id holds. -/
theorem read?_labelSelector (fieldId : Text) :
    Css.Selector.read? (labelSelector fieldId) = some [labelFor (fieldId.map readable)] := by
  have hcondition : Css.condition? ('[' :: ("for=".toList ++ (Css.quote fieldId ++ [']']))) =
      some (.value "for" .equals (fieldId.map readable) false, []) := bracket?_labelSelector fieldId []
  have hconditions : ∀ fuel, Css.conditionsOf (fuel + 2) ('[' :: ("for=".toList ++ (Css.quote fieldId ++ [']']))) =
      ([.value "for" .equals (fieldId.map readable) false], []) := fun fuel => by
    rw [Css.conditionsOf, hcondition]
    rfl
  have hsimple : Css.simple? (labelSelector fieldId) = some (labelFor (fieldId.map readable), []) := by
    have hident : Css.simple? (labelSelector fieldId) =
        let found := Css.conditionsOf ((Css.quote fieldId ++ [']']).length + 5)
          ('[' :: ("for=".toList ++ (Css.quote fieldId ++ [']'])))
        some (.simple (some "label") found.1, found.2) := rfl
    rw [hident, hconditions]
    rfl
  have hstart : Css.skipSpace (labelSelector fieldId) = labelSelector fieldId := rfl
  rw [Css.Selector.read?, hstart, hsimple]
  rfl

/-- What is asked of a document. -/
theorem asks_labelSelector (fieldId : Text) (document : Html.Document) :
    asks (labelSelector fieldId) document = .ok (Css.exists? [labelFor (fieldId.map readable)] document) := by
  rw [asks, read?_labelSelector]

/-! ## Labels -/

section Labels

variable {fieldId value : Text}

/-- An element is a label for an id: its target is the id, or that with a newline after it. -/
def IsLabelFor (fieldId : Text) (label : Html.Place) : Prop :=
  label.tag = "label" ∧ ∃ target ∈ label.attr? "for", target = fieldId ∨ target = fieldId ++ ['\n']

instance (fieldId : Text) (label : Html.Place) : Decidable (IsLabelFor fieldId label) :=
  inferInstanceAs (Decidable (_ ∧ ∃ target ∈ label.attr? "for", _))

/-- An id with which no label is missed: it does not hold the character that no selector can ask for. -/
def IsAskable (fieldId : Text) : Prop :=
  '\x00' ∉ fieldId

instance (fieldId : Text) : Decidable (IsAskable fieldId) :=
  inferInstanceAs (Decidable (_ ∉ fieldId))

theorem IsAskable.map_readable (h : IsAskable fieldId) : fieldId.map Css.readable = fieldId := by
  have hsame : ∀ c ∈ fieldId, Css.readable c = c := fun c hc => if_neg fun (hzero : c = '\x00') => h (hzero ▸ hc)
  rw [List.map_congr_left hsame, List.map_id']

/-- A value that is compared by its length and its beginning is the wanted one. -/
theorem isSame_iff : Css.isSame false fieldId value = true ↔ value = fieldId := by
  rw [Css.isSame, Css.beginsLike, if_neg Bool.false_ne_true, Bool.and_eq_true, beq_iff_eq, List.isPrefixOf_iff_prefix]
  exact ⟨fun h => (h.2.eq_of_length h.1.symm).symm, fun h => h ▸ ⟨rfl, List.prefix_refl _⟩⟩

/-- The last newline of a value may be left out. -/
theorem holds_equals_iff :
    Css.Comparison.equals.holds false fieldId value = true ↔ value = fieldId ∨ value = fieldId ++ ['\n'] := by
  rw [Css.Comparison.holds, Bool.or_eq_true, isSame_iff, isSame_iff, Text.dropFinal]
  split
  · rename_i hlast
    obtain ⟨front, rfl⟩ := List.getLast?_eq_some_iff.1 hlast
    rw [List.dropLast_concat, List.append_left_inj]
  · rename_i hlast
    have hno : value ≠ fieldId ++ ['\n'] := fun heq => hlast (heq ▸ List.getLast?_concat)
    rw [or_self, or_iff_left hno]

theorem labelFor_matchesAt_iff {label : Html.Place} :
    (labelFor fieldId).matchesAt label = true ↔ IsLabelFor fieldId label := by
  have htarget : (Css.Condition.value "for" .equals fieldId false).holds label = true ↔
      ∃ target ∈ label.attr? "for", target = fieldId ∨ target = fieldId ++ ['\n'] := by
    rw [Css.Condition.holds]
    cases label.attr? "for" with
    | none => exact ⟨nofun, fun h => nomatch h⟩
    | some target =>
      refine holds_equals_iff.trans ⟨fun h => ⟨target, rfl, h⟩, ?_⟩
      rintro ⟨_, ⟨⟩, h⟩
      exact h
  rw [labelFor, Css.Pattern.matchesAt, Bool.and_eq_true, Option.all_some, List.all_cons, List.all_nil, Bool.and_true,
    htarget, beq_iff_eq, eq_comm]
  rfl

end Labels

end Rule

end TemplateAudit
