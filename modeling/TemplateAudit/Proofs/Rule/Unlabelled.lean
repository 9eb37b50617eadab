import TemplateAudit.Proofs.Outcome
import TemplateAudit.Proofs.Rule.LabelTarget
import TemplateAudit.Rule.FormLabels

/-!
# Fields without a label

The selector that is written for the id of a field finds a label exactly where there is one for this id
(`asks_labelSelector_iff`).  So the fields that are reported are those without a label and without a name of their
own, each once and in document order (`examine_reports_unlabelled`).
-/

namespace TemplateAudit

namespace Rule

namespace FormLabels

open Html (Place places)

variable {document : Html.Document} {field : Place} {fieldId value : Text}

/-! ## Labels -/

/-- A document has a label for an id. -/
def IsLabelled (document : Html.Document) (fieldId : Text) : Prop :=
  ∃ label ∈ places document, IsLabelFor fieldId label

/-- A field needs a label: it has an id and no name of its own, and the document has no label for it. -/
def IsUnlabelled (document : Html.Document) (field : Place) : Prop :=
  ∃ fieldId ∈ field.attr? "id", Text.saysNothing fieldId = false ∧ isBlank (field.attr? "aria-label") = true ∧
    isBlank (field.attr? "aria-labelledby") = true ∧ ¬IsLabelled document fieldId

instance (document : Html.Document) (fieldId : Text) : Decidable (IsLabelled document fieldId) :=
  inferInstanceAs (Decidable (∃ label ∈ places document, _))

instance (document : Html.Document) (field : Place) : Decidable (IsUnlabelled document field) :=
  inferInstanceAs (Decidable (∃ fieldId ∈ field.attr? "id", _))

/-- **The selector for an id finds the labels for it and no others.** -/
theorem asks_labelSelector_iff (h : IsAskable fieldId) (document : Html.Document) :
    asks (labelSelector fieldId) document = .ok (decide (IsLabelled document fieldId)) := by
  have hexists : Css.exists? [labelFor fieldId] document = true ↔ IsLabelled document fieldId := by
    simp [Css.exists?, Css.select, Css.Selector.matchesAt, labelFor_matchesAt_iff, IsLabelled]
  rw [asks_labelSelector, h.map_readable, Bool.eq_iff_iff.2 (hexists.trans decide_eq_true_iff.symm)]

/-! ## Fields -/

/-- A field is reported when it needs a label. -/
theorem examineField_eq (h : ∀ fieldId ∈ field.attr? "id", IsAskable fieldId) (origin : Origin) :
    examineField document origin field =
      .ok (if IsUnlabelled document field then [unlabelled field ((field.attr? "id").getD []) origin] else []) := by
  rw [examineField]
  cases hid : field.attr? "id" with
  | none =>
    have hfine : ¬IsUnlabelled document field := by
      rintro ⟨fieldId, hsome, -⟩
      rw [hid] at hsome
      cases hsome
    rw [if_neg hfine]
  | some fieldId =>
    have hneeds : IsUnlabelled document field ↔ Text.saysNothing fieldId = false ∧ hasOwnName field = false ∧
        ¬IsLabelled document fieldId := by
      simp only [IsUnlabelled, hid, Option.mem_some_iff, exists_eq_left', hasOwnName, Bool.or_eq_false_iff,
        Bool.not_eq_eq_eq_not, Bool.not_false, and_assoc]
    simp only [asks_labelSelector_iff (h fieldId hid), Except.map, hneeds, Option.getD_some]
    cases Text.saysNothing fieldId <;> cases hasOwnName field <;> by_cases hlabel : IsLabelled document fieldId <;>
      simp [hlabel]

/-- **Exactly the fields without a label are reported**, each once and in document order: those with an id that says
something, no name of their own, and no label for this id in the document.  The ids may hold any character but the
one that no selector can ask for. -/
theorem examine_reports_unlabelled (h : ∀ field ∈ places document, ∀ fieldId ∈ field.attr? "id", IsAskable fieldId)
    (origin : Origin) :
    examine document origin =
      .ok (((Css.select fields document).filter fun field => IsUnlabelled document field).map fun field =>
        unlabelled field ((field.attr? "id").getD []) origin) := by
  have hfields : ∀ field ∈ Css.select fields document, examineField document origin field =
      .ok (if IsUnlabelled document field then [unlabelled field ((field.attr? "id").getD []) origin] else []) :=
    fun field hfield => examineField_eq (h field (List.mem_of_mem_filter hfield)) origin
  rw [examine, Outcome.mapM_eq_ok_map hfields, Except.map, ← List.flatMap_def]
  generalize Css.select fields document = found
  congr 1
  induction found with
  | nil => rfl
  | cons field found ih =>
    rw [List.flatMap_cons, ih, List.filter_cons]
    by_cases hneeds : IsUnlabelled document field <;> simp [hneeds]

/-- An element without anything in it. -/
def bare (tag : Text) (attrs : List (Text × Text)) : Html.Node :=
  .element tag attrs []

/-- Fields with brackets, quotes, a backslash, line breaks and an escape character in their ids, the second with a
label of its own and the third with an id that continues the first one's. -/
def oddForm : Html.Document :=
  [bare "input" [("id", "a\\\"]\nb\x1b")], bare "label" [("for", "a\\\"]\nb")], bare "textarea" [("id", "a\\\"]\nb")],
    bare "select" [("id", "a\\\"]\nb\x1bc"), ("aria-label", " \n")], bare "input" [("type", "HIDDEN"), ("id", "d")],
    bare "input" [("type", "TEXT"), ("id", "e"), ("aria-labelledby", "f")], bare "input" [("id", " \n")]]

/-- The first and the third field are reported. -/
theorem examine_reports_unlabelled_odd :
    ∃ fields : List Place,
      fields.map (Place.attr? · "id") = [some ("a\\\"]\nb\x1b" : Text), some ("a\\\"]\nb\x1bc" : Text)] ∧
      examine oddForm .unknown =
        .ok (fields.map fun field => unlabelled field ((field.attr? "id").getD []) .unknown) := by
  have hids : ∀ field ∈ places oddForm, ∀ fieldId ∈ field.attr? "id", IsAskable fieldId := by decide +kernel
  exact ⟨_, by decide +kernel, examine_reports_unlabelled hids .unknown⟩

end FormLabels

end Rule

end TemplateAudit
