import TemplateAudit.Helper.Catalogue
import TemplateAudit.Proofs.Helper.Forms

/-!
# Labels and fields with a name in quotes

A helper that is called with one string and nothing else gets this string as its only value, unless what is written
looks like an option with a key: then it gets no value (`render?_callWith`).  So a label and a field of the same name
are written with the same id (`render?_label`, `exists_render?_field`), or both not known.
-/

namespace TemplateAudit

namespace Helper

variable {helper name : Text}

/-! ## A call with a string -/

/-- The code that calls a helper with one string and nothing else. -/
def callWith (helper name : Text) : Text :=
  helper ++ ' ' :: quote '"' name

/-- Is a string in double quotes read as a value, and not as an option with a key? -/
def IsPositional (name : Text) : Prop :=
  keyed? (quote '"' name) = none

instance (name : Text) : Decidable (IsPositional name) :=
  inferInstanceAs (Decidable (keyed? (quote '"' name) = none))

theorem opensBlock_callWith (helper name : Text) : opensBlock (callWith helper name) = false := by
  rw [callWith, quote, ← List.cons_append, ← List.cons_append, ← List.append_assoc]
  exact opensBlock_concat (by decide) (by decide) (by decide) _

theorem isTrimmed_callWith (hhelper : IsHelperName helper) (name : Text) : Text.IsTrimmed (callWith helper name) := by
  have hne : helper ≠ [] := by
    obtain ⟨c, more, rfl, -⟩ := hhelper.exists_cons
    exact List.cons_ne_nil c more
  exact (Text.IsTrimmed.of_forall hhelper.isBlank).around (IsPiece.quote (by decide) name).trimmed hne
    (List.cons_ne_nil _ _) [' ']

theorem getLast?_quoteChar (mark c : Char) : (quoteChar mark c).getLast? = some c := by
  rw [quoteChar]
  split <;> rfl

/-- Backslashes part no two characters that are to stand apart. -/
theorem not_infix_escape (mark : Char) {a b : Char} (hb : b ≠ '\\') (ha : a ≠ '\\') (h : ¬[a, b] <:+: name) :
    ¬[a, b] <:+: escape mark name := by
  rw [Text.not_infix_pair_iff] at h ⊢
  induction name with
  | nil => exact .nil
  | cons c name ih =>
    obtain ⟨hnext, hrest⟩ := List.isChain_cons.1 h
    rw [escape_cons]
    refine List.isChain_append.2 ⟨?_, ih hrest, ?_⟩
    · rw [quoteChar]
      split
      · exact List.isChain_pair.2 fun hpair => ha hpair.1.symm
      · exact List.isChain_singleton c
    · intro d hd e he
      rw [getLast?_quoteChar, Option.mem_some_iff] at hd
      subst hd
      cases name with
      | nil => cases he
      | cons f name =>
        rw [escape_cons, quoteChar] at he
        split at he
        · obtain rfl := Option.some.inj he
          exact fun hpair => hb hpair.2.symm
        · obtain rfl := Option.some.inj he
          exact hnext f rfl

/-- The end of a tag stands in the code only when it stands in the string. -/
theorem not_infix_callWith (hhelper : IsHelperName helper) (hname : ¬['%', '>'] <:+: name) :
    ¬['%', '>'] <:+: callWith helper name := by
  have hword : '%' ∉ helper := by
    obtain ⟨c, more, rfl, hc, hmore⟩ := hhelper.exists_cons
    refine List.not_mem_cons_of_ne_of_not_mem ?_ fun hmem => absurd (hmore '%' hmem) (by decide)
    rintro rfl
    exact absurd hc (by decide)
  have hescape := Text.not_infix_pair_iff.1 (not_infix_escape '"' (by decide) (by decide) hname)
  have hfront : ∀ {s : Text}, '%' ∉ s → s.IsChain fun c d => ¬(c = '%' ∧ d = '>') := fun h =>
    Text.not_infix_pair_iff.1 fun hin => h (hin.subset List.mem_cons_self)
  have hquote : (escape '"' name ++ ['"']).IsChain fun c d => ¬(c = '%' ∧ d = '>') := by
    refine List.isChain_append.2 ⟨hescape, hfront (by decide), ?_⟩
    rintro c - d ⟨⟩ ⟨-, hd⟩
    exact absurd hd (by decide)
  have hshape : callWith helper name = helper ++ [' ', '"'] ++ (escape '"' name ++ ['"']) := by simp [callWith, quote]
  rw [hshape, Text.not_infix_pair_iff]
  refine List.isChain_append.2 ⟨hfront (by simp [hword]), hquote, fun c hc d _ hpair => ?_⟩
  rw [List.getLast?_append] at hc
  obtain rfl := Option.some.inj hc
  exact absurd hpair.1 (by decide)

theorem read?_callWith (hhelper : IsHelperName helper) (name : Text) : Call.read? (callWith helper name) =
    let found := addArgument ([], []) (quote '"' name)
    some ⟨none, helper, found.1, found.2, false⟩ := by
  have hhead : CallHead.IsWritable ⟨none, helper⟩ := ⟨by simp, .inl hhelper⟩
  have hempty : ∀ c ∈ ([] : Text), Text.isBlank c = true := by simp
  have hpiece : ∀ text ∈ [quote '"' name], IsPiece text := List.forall_mem_singleton.2 (IsPiece.quote (by decide) name)
  have hpieces := pieces_join_of_isPiece hpiece hempty hempty
  rw [List.nil_append, List.append_nil, Text.join] at hpieces
  have hread := CallHead.read?_bare hhead (opensBlock_callWith helper name) (.inl rfl)
  rw [hpieces, List.append_nil] at hread
  exact hread

/-- What a helper that is called on no receiver writes for a name.  Where the name is no value, there is none. -/
theorem render?_callWith {entry : Entry} (hhelper : IsHelperName helper) (hentry : find? helper = some entry)
    (hreceiver : entry.onReceiver = false) (hname : HoldsNoExpression name) :
    (IsPositional name →
      render? (callWith helper name) = (entry.render ⟨none, helper, [.str name], [], false⟩).map (·, false)) ∧
    (¬IsPositional name → ∃ options,
      render? (callWith helper name) = (entry.render ⟨none, helper, [], options, false⟩).map (·, false)) := by
  have hread := read?_callWith hhelper name
  have hrender : ∀ {call : Call}, call.name = helper → call.receiver = none → call.block = false →
      Call.read? (callWith helper name) = some call →
      render? (callWith helper name) = (entry.render call).map (·, false) := by
    rintro call rfl hnone hblock hcall
    simp only [render?, hcall, hentry, hreceiver, hnone, hblock]
    rfl
  constructor
  · intro hpositional
    have hadd : addArgument ([], []) (quote '"' name) = ([.str name], []) := by
      rw [IsPositional] at hpositional
      rw [addArgument, hpositional, read_quote, fillInterpolations_of_holdsNoExpression hname]
      rfl
    rw [hadd] at hread
    exact hrender rfl rfl rfl hread
  · intro hpositional
    obtain ⟨option, hoption⟩ := Option.ne_none_iff_exists'.1 hpositional
    have hadd : addArgument ([], []) (quote '"' name) = ([], [(option.1, Value.read option.2)]) := by
      rw [addArgument, hoption]
      rfl
    rw [hadd] at hread
    exact ⟨_, hrender rfl rfl rfl hread⟩

/-! ## Labels and fields -/

/-- The attributes of a label for an id. -/
def labelAttrs (id : Text) : List (Text × Text) :=
  [("for", id)]

/-- The attributes of a field that is an element of its own. -/
def elementAttrs (name id : Text) : List (Text × Text) :=
  [("name", name), ("id", id)]

/-- The attributes of a field of a type that `input` knows. -/
def inputAttrs (type name id : Text) : List (Text × Text) :=
  ("type", type) :: elementAttrs name id

/-- A label is written with the id of its field, and the name in words. -/
theorem render?_label (hname : HoldsNoExpression name) :
    (IsPositional name → render? (callWith "label_tag" name) =
      some (whole "label" (labelAttrs (fieldId name)) (Markup.escapeValue (humanize name)), false)) ∧
    (¬IsPositional name → render? (callWith "label_tag" name) = none) := by
  have hentry : find? "label_tag" = some ⟨"label_tag", ["label"], false, renderLabel⟩ := rfl
  obtain ⟨hvalue, hoption⟩ := render?_callWith (by decide) hentry rfl hname
  refine ⟨fun hpositional => (hvalue hpositional).trans rfl, fun hpositional => ?_⟩
  obtain ⟨options, hrender⟩ := hoption hpositional
  exact hrender.trans rfl

/-- The helpers that write a field which a user fills in. -/
def fieldHelpers : List Text :=
  inputHelpers.map Prod.fst ++ [("text_area_tag" : Text), "select_tag"]

theorem isHelperName_of_mem_fieldHelpers : ∀ helper ∈ fieldHelpers, IsHelperName helper := by
  decide

/-- The field for a name: an `input` of some type, or an element of its own. -/
inductive WritesField (name : Text) : Rendered → Prop
  | input {type : Text} (htype : type ∈ inputHelpers.map Prod.snd) :
      WritesField name (void "input" (inputAttrs type name (fieldId name)))
  | element {tag : Text} (htag : tag = "textarea" ∨ tag = "select") :
      WritesField name (whole tag (elementAttrs name (fieldId name)) [])

theorem exists_find?_field (hhelper : helper ∈ fieldHelpers) :
    ∃ entry, find? helper = some entry ∧ entry.onReceiver = false ∧
      (∀ options, entry.render ⟨none, helper, [], options, false⟩ = none) ∧
      ∀ name, ∃ rendered, entry.render ⟨none, helper, [.str name], [], false⟩ = some rendered ∧
        WritesField name rendered := by
  rcases List.mem_append.1 hhelper with hinput | hother
  · obtain ⟨⟨helper, type⟩, hmem, rfl⟩ := List.mem_map.1 hinput
    have htype := List.mem_map_of_mem (f := Prod.snd) hmem
    have hfind : find? helper = some ⟨helper, ["input"], false, renderInput type⟩ := by
      simp only [inputHelpers, List.mem_cons, List.not_mem_nil, or_false, Prod.mk.injEq] at hmem
      rcases hmem with h | h | h | h | h | h | h | h | h <;> obtain ⟨rfl, rfl⟩ := h <;> rfl
    exact ⟨_, hfind, rfl, fun _ => rfl, fun name => ⟨_, rfl, .input htype⟩⟩
  · simp only [List.mem_cons, List.not_mem_nil, or_false] at hother
    rcases hother with rfl | rfl
    · exact ⟨_, rfl, rfl, fun _ => rfl, fun name => ⟨_, rfl, .element (.inl rfl)⟩⟩
    · exact ⟨_, rfl, rfl, fun _ => rfl, fun name => ⟨_, rfl, .element (.inr rfl)⟩⟩

/-- A field is written with its name, and with the id that its label has. -/
theorem exists_render?_field (hhelper : helper ∈ fieldHelpers) (hname : HoldsNoExpression name) :
    (IsPositional name → ∃ rendered, render? (callWith helper name) = some (rendered, false) ∧
      WritesField name rendered) ∧
    (¬IsPositional name → render? (callWith helper name) = none) := by
  obtain ⟨entry, hentry, hreceiver, hnone, hsome⟩ := exists_find?_field hhelper
  obtain ⟨hvalue, hoption⟩ := render?_callWith (isHelperName_of_mem_fieldHelpers helper hhelper) hentry hreceiver hname
  constructor
  · intro hpositional
    obtain ⟨rendered, hrendered, hfield⟩ := hsome name
    exact ⟨rendered, by rw [hvalue hpositional, hrendered]; rfl, hfield⟩
  · intro hpositional
    obtain ⟨options, hrender⟩ := hoption hpositional
    rw [hrender, hnone]
    rfl

end Helper

end TemplateAudit
