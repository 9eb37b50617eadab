import TemplateAudit.Proofs.Helper.Fields
import TemplateAudit.Proofs.Rule.LabelTarget
import TemplateAudit.Proofs.Template.Outputs
import TemplateAudit.Rule.FormLabels

/-!
# Labels and fields of one name

A label and a field that are printed for one name become elements with the same id (`exists_printedAs_label`,
`exists_printedAs_field`).  So whatever the name, no field is reported where both are printed, and where the field is
printed by itself, it is reported once (`label_pairs_with_field`).
-/

namespace TemplateAudit

namespace Rule

namespace FormLabels

open Helper (HoldsNoExpression IsPositional callWith elementAttrs fieldHelpers fieldId inputAttrs inputHelpers
  labelAttrs)
open Html (Node Place)
open Markup (IsSolid KeptAttribute)
open Template (AreReadable PrintedAs WrittenInBody outputs)

variable {name helper id : Text} {node label field : Node} {attrs : List (Text × Text)}

/-! ## Ids -/

theorem isEndNameChar_of_mem_fieldId {c : Char} (h : c ∈ fieldId name) : Html.isEndNameChar c = true := by
  obtain ⟨d, -, rfl⟩ := List.mem_map.1 h
  split
  · rename_i hd
    simp only [Helper.isIdChar, Bool.or_eq_true] at hd
    simp only [Html.isEndNameChar, Bool.or_eq_true]
    tauto
  · decide

theorem isSolid_fieldId (name : Text) : IsSolid (fieldId name) :=
  Html.isSolid_of_isEndNameChar fun _ => isEndNameChar_of_mem_fieldId

/-- An id that is made from a name can be asked for in a selector. -/
theorem map_readable_fieldId (name : Text) : (fieldId name).map Css.readable = fieldId name :=
  IsAskable.map_readable fun hzero => Html.ne_of_isEndNameChar (isEndNameChar_of_mem_fieldId hzero) (by decide) rfl

/-! ## Attributes -/

section Attributes

variable {type : Text}

/-- Of the attributes of a label nothing is lost. -/
theorem eq_labelAttrs (h : List.Forall₂ KeptAttribute (labelAttrs id) attrs) (hid : IsSolid id) :
    attrs = labelAttrs id := by
  obtain ⟨⟨key, value⟩, rest, ⟨hkey, hvalue⟩, hrest, rfl⟩ := List.forall₂_cons_left_iff.1 h
  obtain rfl := List.forall₂_nil_left_iff.1 hrest
  obtain rfl : key = "for" := hkey
  obtain rfl : value = id := hvalue hid
  rfl

/-- Of the attributes of a field only the name may change. -/
theorem exists_eq_elementAttrs (h : List.Forall₂ KeptAttribute (elementAttrs name id) attrs) (hid : IsSolid id) :
    ∃ name, attrs = elementAttrs name id := by
  obtain ⟨⟨key, value⟩, rest, ⟨hkey, -⟩, hrest, rfl⟩ := List.forall₂_cons_left_iff.1 h
  obtain ⟨⟨key', value'⟩, rest', ⟨hkey', hvalue'⟩, hrest', rfl⟩ := List.forall₂_cons_left_iff.1 hrest
  obtain rfl := List.forall₂_nil_left_iff.1 hrest'
  obtain rfl : key = "name" := hkey
  obtain rfl : key' = "id" := hkey'
  obtain rfl : value' = id := hvalue' hid
  exact ⟨value, rfl⟩

theorem exists_eq_inputAttrs (h : List.Forall₂ KeptAttribute (inputAttrs type name id) attrs) (htype : IsSolid type)
    (hid : IsSolid id) : ∃ name, attrs = inputAttrs type name id := by
  obtain ⟨⟨key, value⟩, rest, ⟨hkey, hvalue⟩, hrest, rfl⟩ := List.forall₂_cons_left_iff.1 h
  obtain ⟨name, rfl⟩ := exists_eq_elementAttrs hrest hid
  obtain rfl : key = "type" := hkey
  obtain rfl : value = type := hvalue htype
  exact ⟨name, rfl⟩

end Attributes

/-! ## What is printed -/

/-- The element of a label for an id. -/
inductive IsLabel (id : Text) : Node → Prop
  | label {children : List Node} (hchildren : ∀ node ∈ children, node.IsText) :
      IsLabel id (.element "label" (labelAttrs id) children)

/-- The element of a field with an id. -/
inductive IsField (id : Text) : Node → Prop
  | input {type : Text} (htype : type ∈ inputHelpers.map Prod.snd) (name : Text) :
      IsField id (.element "input" (inputAttrs type name id) [])
  | element {tag : Text} (htag : tag = "textarea" ∨ tag = "select") (name : Text) {children : List Node}
      (hchildren : ∀ node ∈ children, node.IsText) : IsField id (.element tag (elementAttrs name id) children)

theorem exists_printedAs_label (hname : HoldsNoExpression name) (hpositional : IsPositional name) :
    ∃ node, IsLabel (fieldId name) node ∧ PrintedAs (callWith "label_tag" name) node := by
  have hrender := (Helper.render?_label hname).1 hpositional
  have hkeys : AreReadable ((labelAttrs (fieldId name)).map Prod.fst) :=
    @AreReadable.mk [("for" : Text)] (by decide) (by decide)
  obtain ⟨attrs, children, hkept, hchildren, hprinted⟩ :=
    Template.exists_printedAs_whole (by decide) (by decide) hkeys (by decide) hrender
  obtain rfl := eq_labelAttrs hkept (isSolid_fieldId name)
  exact ⟨_, .label hchildren, hprinted⟩

theorem exists_printedAs_field (hhelper : helper ∈ fieldHelpers) (hname : HoldsNoExpression name)
    (hpositional : IsPositional name) :
    ∃ node, IsField (fieldId name) node ∧ PrintedAs (callWith helper name) node := by
  obtain ⟨rendered, hrender, hfield⟩ := (Helper.exists_render?_field hhelper hname).1 hpositional
  cases hfield with
  | @input type htype =>
    have htypes : ∀ type ∈ inputHelpers.map Prod.snd, IsSolid type := by decide
    have hkeys : AreReadable ((inputAttrs type name (fieldId name)).map Prod.fst) :=
      @AreReadable.mk [("type" : Text), "name", "id"] (by decide) (by decide)
    obtain ⟨attrs, hkept, hprinted⟩ :=
      Template.exists_printedAs_void (by decide) (by decide) hkeys (by decide) hrender
    obtain ⟨name', rfl⟩ := exists_eq_inputAttrs hkept (htypes type htype) (isSolid_fieldId name)
    exact ⟨_, .input htype name', hprinted⟩
  | @element tag htag =>
    have htags : ∀ tag ∈ [("textarea" : Text), "select"], Markup.IsElementName tag ∧ tag ∉ Html.rawElements ∧
        tag ∉ Html.voidElements := by decide
    obtain ⟨hword, hraw, hvoid⟩ := htags tag (by simpa using htag)
    have hkeys : AreReadable ((elementAttrs name (fieldId name)).map Prod.fst) :=
      @AreReadable.mk [("name" : Text), "id"] (by decide) (by decide)
    -- there is no text in it
    obtain ⟨attrs, children, hkept, hchildren, hprinted⟩ :=
      @Template.exists_printedAs_whole _ tag _ hword hraw hkeys hvoid [] hrender
    obtain ⟨name', rfl⟩ := exists_eq_elementAttrs hkept (isSolid_fieldId name)
    exact ⟨_, .element htag name' hchildren, hprinted⟩

/-! ## What is found -/

/-- The only field of a document decides what is found. -/
theorem examine_of_select {document : Html.Document} {origin : Origin} {place : Place} {findings : List Finding}
    (hselect : Css.select fields document = [place]) (h : examineField document origin place = .ok findings) :
    examine document origin = .ok findings := by
  rw [examine, hselect]
  simp [h, Except.map, bind, Except.bind, pure, Except.pure]

/-- Where there are no elements, nothing is found. -/
theorem examine_of_isText {document : Html.Document} (h : ∀ node ∈ document, node.IsText) (origin : Origin) :
    examine document origin = .ok [] := by
  have hselect : Css.select fields document = [] := by
    rw [Css.select, Html.places, Html.placesInAll_eq_nil h]
    rfl
  rw [examine, hselect]
  rfl

/-- The place of a label is no field, and it is what is asked for. -/
theorem IsLabel.exists_place (h : IsLabel id node) (above : List Html.Spot) (before : List Node) :
    ∃ place, Html.placesIn above before node = [place] ∧ Css.Selector.matchesAt fields place = false ∧
      Css.Selector.matchesAt [labelFor id] place = true := by
  cases h with
  | @label children hchildren =>
    refine ⟨⟨⟨"label", labelAttrs id, children, before⟩, above⟩, ?_, rfl, ?_⟩
    · rw [Html.placesIn, Html.placesInAll_eq_nil hchildren]
    · have hlabel : (labelFor id).matchesAt ⟨⟨"label", labelAttrs id, children, before⟩, above⟩ = true :=
        labelFor_matchesAt_iff.2 ⟨rfl, id, rfl, .inl rfl⟩
      rw [Css.Selector.matchesAt, List.any_cons, hlabel]
      rfl

/-- The place of a field has its id and no name of its own, and it is no label. -/
theorem IsField.exists_place (h : IsField id node) (above : List Html.Spot) (before : List Node) :
    ∃ place, Html.placesIn above before node = [place] ∧ Css.Selector.matchesAt fields place = true ∧
      place.attr? "id" = some id ∧ hasOwnName place = false ∧ Css.Selector.matchesAt [labelFor id] place = false := by
  cases h with
  | @input type htype name =>
    have htypes : ∀ type ∈ inputHelpers.map Prod.snd, inputOf type ∈ fields ∧
        Css.Comparison.equals.holds true type type = true := by decide +kernel
    obtain ⟨hmem, hholds⟩ := htypes type htype
    refine ⟨⟨⟨"input", inputAttrs type name id, [], before⟩, above⟩, rfl, List.any_eq_true.2 ⟨_, hmem, ?_⟩,
      rfl, rfl, rfl⟩
    have hmatches : (inputOf type).matchesAt ⟨⟨"input", inputAttrs type name id, [], before⟩, above⟩ =
        (Css.Comparison.equals.holds true type type && true) := rfl
    rw [hmatches, hholds]
    rfl
  | @element tag htag name children hchildren =>
    refine ⟨⟨⟨tag, elementAttrs name id, children, before⟩, above⟩, ?_, ?_, rfl, rfl, ?_⟩
    · rw [Html.placesIn, Html.placesInAll_eq_nil hchildren]
    · rcases htag with rfl | rfl <;> rfl
    · rcases htag with rfl | rfl <;> rfl

/-- A field behind its label is not reported. -/
theorem examine_label_field (hid : id.map Css.readable = id) (hlabel : IsLabel id label) (hfield : IsField id field)
    (origin : Origin) : examine [label, field] origin = .ok [] := by
  obtain ⟨first, hfirst, hnofield, hasked⟩ := hlabel.exists_place [] []
  obtain ⟨place, hplace, hmatches, hattr, -, hnolabel⟩ := hfield.exists_place [] [label]
  have hplaces : Html.places [label, field] = [first, place] := by
    rw [Html.places, Html.placesInAll, Html.placesInAll, Html.placesInAll, hfirst, hplace]
    rfl
  have hselect : Css.select fields [label, field] = [place] := by
    rw [Css.select, hplaces, List.filter_cons_of_neg (by simp [hnofield]), List.filter_cons_of_pos hmatches]
    rfl
  have hlabelled : Css.exists? [labelFor id] [label, field] = true := by
    rw [Css.exists?, Css.select, hplaces, List.filter_cons_of_pos hasked]
    rfl
  refine examine_of_select hselect ?_
  simp only [examineField, hattr, asks_labelSelector, hid, hlabelled, Except.map, Bool.true_or, if_true, ite_self]

/-- A field by itself is reported once, unless its id says nothing. -/
theorem examine_field (hid : id.map Css.readable = id) (hfield : IsField id field) (origin : Origin) :
    ∃ place : Place, place.attr? "id" = some id ∧
      examine [field] origin = .ok (if Text.saysNothing id then [] else [unlabelled place id origin]) := by
  obtain ⟨place, hplace, hmatches, hattr, hown, hnolabel⟩ := hfield.exists_place [] []
  have hplaces : Html.places [field] = [place] := by
    rw [Html.places, Html.placesInAll, Html.placesInAll, hplace]
    rfl
  have hselect : Css.select fields [field] = [place] := by
    rw [Css.select, hplaces, List.filter_cons_of_pos hmatches]
    rfl
  have hlabelled : Css.exists? [labelFor id] [field] = false := by
    rw [Css.exists?, Css.select, hplaces, List.filter_cons_of_neg (by simp [hnolabel])]
    rfl
  refine ⟨place, hattr, examine_of_select hselect ?_⟩
  simp only [examineField, hattr, asks_labelSelector, hid, hlabelled, hown]
  split <;> rfl

/-! ## The pair -/

/-- A template with a label and a field of one name. -/
def labelled (helper name : Text) : Text :=
  outputs [callWith "label_tag" name, callWith helper name]

/-- A template with a field by itself. -/
def alone (helper name : Text) : Text :=
  outputs [callWith helper name]

/-- A label and a field that are printed for one name belong together, whatever the name is, as long as the template
can hold it in double quotes: with the label nothing is found, and without it the field is reported once, when its name
is a value for the helper and leaves something for an id. -/
theorem label_pairs_with_field (hhelper : helper ∈ fieldHelpers) (hend : ¬['%', '>'] <:+: name)
    (hname : HoldsNoExpression name) (origin : Origin) :
    (∃ document, Html.parse (Template.toMarkup (labelled helper name)) = .ok document ∧
      examine document origin = .ok []) ∧
    ∃ document, Html.parse (Template.toMarkup (alone helper name)) = .ok document ∧
      (IsPositional name → Text.saysNothing (fieldId name) = false → ∃ field : Place,
        field.attr? "id" = some (fieldId name) ∧
          examine document origin = .ok [unlabelled field (fieldId name) origin]) ∧
      (¬(IsPositional name ∧ Text.saysNothing (fieldId name) = false) → examine document origin = .ok []) := by
  have hword := Helper.isHelperName_of_mem_fieldHelpers helper hhelper
  have hwritable : ∀ {helper}, Helper.IsHelperName helper → Template.Item.IsWritable ⟨.output, callWith helper name⟩ :=
    fun hword => ⟨Helper.not_infix_callWith hword hend, Helper.isTrimmed_callWith hword name⟩
  have halone : ∀ code ∈ [callWith helper name], Template.Item.IsWritable ⟨.output, code⟩ :=
    List.forall_mem_singleton.2 (hwritable hword)
  have hboth : ∀ code ∈ [callWith "label_tag" name, callWith helper name], Template.Item.IsWritable ⟨.output, code⟩ :=
    List.forall_mem_cons.2 ⟨hwritable (by decide), halone⟩
  by_cases hpositional : IsPositional name
  · obtain ⟨label, hlabel, hprinted⟩ := exists_printedAs_label hname hpositional
    obtain ⟨field, hfield, hprinted'⟩ := exists_printedAs_field hhelper hname hpositional
    obtain ⟨place, hattr, hfound⟩ := examine_field (map_readable_fieldId name) hfield origin
    refine ⟨⟨_, Template.parse_outputs hboth (.cons hprinted (.cons hprinted' .nil)),
      examine_label_field (map_readable_fieldId name) hlabel hfield origin⟩,
      _, Template.parse_outputs halone (.cons hprinted' .nil), fun _ hsays => ⟨place, hattr, ?_⟩, fun hnot => ?_⟩
    · rw [hfound, hsays]
      rfl
    · have hsays := eq_true_of_ne_false fun hsays => hnot ⟨hpositional, hsays⟩
      rw [hfound, if_pos hsays]
  · have hunknown : ∀ {helper}, Helper.render? (callWith helper name) = none →
        WrittenInBody (callWith helper name) Helper.placeholder := fun hnone =>
      Template.writtenInBody_placeholder hnone (Helper.opensBlock_callWith _ name)
    have hfield := hunknown ((Helper.exists_render?_field hhelper hname).2 hpositional)
    have hlabel := hunknown ((Helper.render?_label hname).2 hpositional)
    obtain ⟨document, htexts, hparse⟩ := Template.exists_parse_outputs halone (List.forall_mem_singleton.2 hfield)
    obtain ⟨document', htexts', hparse'⟩ := Template.exists_parse_outputs hboth
      (List.forall_mem_cons.2 ⟨hlabel, List.forall_mem_singleton.2 hfield⟩)
    exact ⟨⟨document', hparse', examine_of_isText htexts' origin⟩, document, hparse,
      fun h => absurd h hpositional, fun _ => examine_of_isText htexts origin⟩

/-- A name with brackets, quotes, a backslash, a tag and the ending of a key. -/
def oddName : Text :=
  "user[na\\me] \"&\" </textarea>'s_id"

/-- It gives the same id twice. -/
theorem label_pairs_with_field_odd :
    (∃ document, Html.parse (Template.toMarkup (labelled "text_area_tag" oddName)) = .ok document ∧
      examine document .unknown = .ok []) ∧
    ∃ document, Html.parse (Template.toMarkup (alone "text_area_tag" oddName)) = .ok document ∧
      ∃ field : Place, field.attr? "id" = some "user_na_me_______textarea__s_id".toList ∧
        examine document .unknown = .ok [unlabelled field "user_na_me_______textarea__s_id" .unknown] := by
  have hend : ¬['%', '>'] <:+: oddName := by decide +kernel
  have hname : HoldsNoExpression oddName := Helper.holdsNoExpression_of_no_beginning (by decide +kernel)
  have hhelper : ("text_area_tag" : Text) ∈ fieldHelpers := by decide
  have hid : fieldId oddName = "user_na_me_______textarea__s_id".toList := by decide +kernel
  obtain ⟨hlabelled, document, hparse, hfound, -⟩ := label_pairs_with_field hhelper hend hname .unknown
  refine ⟨hlabelled, document, hparse, ?_⟩
  rw [hid] at hfound
  exact hfound (by decide +kernel) (by decide)

end FormLabels

end Rule

end TemplateAudit
