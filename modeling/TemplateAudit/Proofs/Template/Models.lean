import TemplateAudit.Proofs.Template.Printed
import TemplateAudit.Proofs.Template.Render
import TemplateAudit.Proofs.Text.Inflection
import TemplateAudit.Proofs.Text.Letter
import TemplateAudit.Proofs.Text.Search

/-!
# The partial of a model

`render @word` names the partial of one thing, and so does `render @words` with the name of many of them
(`references_renderModel`).  For a word that does not end in `s` the two name the same partial exactly when the
word is got back from its plural, which fails for the words in `ie` only (`references_model_iff`).
-/

namespace TemplateAudit

namespace Template

open Markup (IsSpace)

variable {word : Text}

/-! ## Calls -/

/-- The code that renders the partial of a model. -/
def renderCode (model : Text) : Text :=
  "render @" ++ model

/-- A template with this code and nothing else. -/
def renderModel (model : Text) : Text :=
  Item.print ⟨.output, renderCode model⟩

/-- A partial with a name stands behind a quote. -/
theorem Quotes.exists_isQuote {name quoted : Text} (h : Quotes name quoted) : ∃ c ∈ quoted, isQuote c = true := by
  obtain ⟨opening, closing, rfl, hopening, -⟩ := h
  exact ⟨opening, List.mem_cons_self, hopening⟩

/-- Where no quote stands, no partial is named, be it by its name or by the key. -/
theorem readAll_eq_nil {form : Form} {code : Text} (hform : form ≠ .model)
    (h : ∀ c ∈ code, isQuote c = false) : Text.readAll form.read code = [] := by
  refine Text.readAllFrom_eq_nil (fun before s hend => ?_) none 0
  refine Option.eq_none_iff_forall_ne_some.2 fun found hfound => ?_
  have hquote : ∃ c ∈ s, isQuote c = true := by
    obtain ⟨-, args, rfl, hargs⟩ := form.read_eq_some_iff.1 hfound
    cases form with
    | name =>
      obtain ⟨opening, quoted, rfl, -, hquoted⟩ := hargs
      obtain ⟨c, hc, hquote⟩ := hquoted.exists_isQuote
      exact ⟨c, by simp [hc], hquote⟩
    | key =>
      obtain ⟨-, between, key, rfl, ⟨space, quoted, -, hquoted, space', -, hkey⟩, -⟩ := hargs
      obtain ⟨c, hc, hquote⟩ := hquoted.exists_isQuote
      refine ⟨c, ?_, hquote⟩
      rcases hkey with ⟨-, rfl⟩ | rfl <;> simp [hc]
    | model => exact absurd rfl hform
  obtain ⟨c, hc, hquote⟩ := hquote
  rw [h c (hend.subset hc)] at hquote
  cases hquote

theorem isWordChar_of_isQuote {c : Char} (h : isQuote c = true) : Text.isWordChar c = false := by
  rcases Bool.or_eq_true_iff.1 h with h | h <;> obtain rfl := eq_of_beq h <;> decide

section Model

variable (hne : word ≠ []) (hword : ∀ c ∈ word, Text.isWordChar c = true)
include hne hword

/-- The code makes one reference. -/
theorem referencesIn_renderCode : referencesIn (renderCode word) = [modelReference word] := by
  have hquote : ∀ c ∈ renderCode word, isQuote c = false := by
    refine List.forall_mem_append.2 ⟨by decide, fun c hc => Bool.eq_false_iff.2 fun hquote => ?_⟩
    have hword := hword c hc
    rw [isWordChar_of_isQuote hquote] at hword
    cases hword
  have hmodel : Text.readAll Form.model.read (renderCode word) = [word] := by
    have hspace : IsSpace [' '] := by decide
    have hopening : OpensCall [' '] := ⟨[' '], [], [], rfl, hspace, .inl rfl, by decide⟩
    have hend : EndsWord none := by simp [EndsWord]
    have hread : Form.model.read none (renderCode word) = some (word, []) :=
      Form.model.read_eq_some_iff.2 ⟨hend, ' ' :: '@' :: word, rfl, [' '], by simp, hopening, hne, hword, hend⟩
    have hcons : renderCode word = 'r' :: ("ender @".toList ++ word) := rfl
    rw [hcons] at hread ⊢
    rw [Text.readAll, Text.readAllFrom, hread]
    exact congrArg (word :: ·) (Text.readAllFrom_length _ _ _)
  have hcalls : referencesIn (renderCode word) =
      (Text.readAll Form.name.read (renderCode word)).map (fun name => [name]) ++
        (Text.readAll Form.key.read (renderCode word)).map (fun name => [name]) ++
        (Text.readAll Form.model.read (renderCode word)).map modelReference := rfl
  rw [hcalls, readAll_eq_nil (by decide) hquote, readAll_eq_nil (by decide) hquote, hmodel]
  rfl

theorem isWritable_renderCode : Item.IsWritable ⟨.output, renderCode word⟩ := by
  have hblank : ∀ c ∈ word, Text.isBlank c = false := fun c hc => Text.isBlank_of_isWordChar (hword c hc)
  refine ⟨fun hends => ?_, ?_⟩
  · have hmem : '%' ∈ "render @".toList ++ word := hends.subset List.mem_cons_self
    have hpercent := hword '%' ((List.mem_append.1 hmem).resolve_left (by decide))
    revert hpercent
    decide
  · exact Text.IsTrimmed.around (s := "render".toList) (by decide) (Text.IsTrimmed.of_forall hblank) (by decide)
      hne " @"

/-- A template that renders the partial of a model refers to that partial. -/
theorem references_renderModel : references (renderModel word) = [modelReference word] := by
  have hcut := Item.cut_print [⟨.output, renderCode word⟩]
    (List.forall_mem_singleton.2 (isWritable_renderCode hne hword)) (List.isChain_singleton _) 1
  have htokens : tokenize (renderModel word) = [⟨.output, renderCode word, 1⟩] := by
    have heq := hcut.tokensFrom_eq
    simp only [List.map_cons, List.map_nil, List.flatten_cons, List.flatten_nil, List.append_nil] at heq
    exact heq
  rw [references, codeFragments, htokens]
  simp only [List.filter_cons, Token.isCode, beq_self_eq_true, Bool.true_or, if_true, List.filter_nil,
    List.flatMap_cons, List.flatMap_nil, List.append_nil, referencesIn_renderCode hne hword]
  rfl

end Model

/-- For a word that does not end in `s`, the model of that name and the model with the name of its plural lead to the
partial of the word, unless the word ends in `ie` behind other letters: then the plural leads to the partial of
another word, that in `y`. -/
theorem references_model_iff (hne : word ≠ []) (hword : ∀ c ∈ word, Text.isWordChar c = true)
    (hs : ¬Text.EndsInS word) :
    Text.singular word = word ∧
      references (renderModel word) = [[Text.plural word ++ '/' :: word, word]] ∧
      (Text.singular (Text.plural word) = word ↔ ¬Text.EndsInIe word) ∧
      (references (renderModel (Text.plural word)) = references (renderModel word) ↔ ¬Text.EndsInIe word) ∧
      ∀ start, start ≠ [] → word = start ++ ['i', 'e'] →
        references (renderModel (Text.plural word)) =
          [[Text.plural (start ++ ['y']) ++ '/' :: (start ++ ['y']), start ++ ['y']]] := by
  have hplural : ∀ c ∈ Text.plural word, Text.isWordChar c = true := Text.forall_mem_plural hword (by decide)
  have hmany := references_renderModel (Text.plural_ne_nil hne) hplural
  have hone := references_renderModel hne hword
  have hsingular := Text.singular_of_not_s hs
  refine ⟨hsingular, ?_, Text.singular_plural_iff hs, ?_, ?_⟩
  · rw [hone, modelReference, hsingular]
  · rw [hmany, hone, modelReference, modelReference, hsingular, ← Text.singular_plural_iff hs]
    constructor
    · intro h
      simp only [List.cons.injEq] at h
      exact h.1.2.1
    · intro h
      rw [h]
  · rintro start hstart rfl
    rw [hmany, modelReference, Text.plural_ie, Text.singular_ies hstart]

/-- The word `lady` is got back from its plural, the word `movie` is not. -/
theorem references_model_iff_movie :
    references (renderModel "ladies") = references (renderModel "lady") ∧
      references (renderModel "movie") = [["movies/movie".toList, "movie".toList]] ∧
      references (renderModel "movies") = [["movies/movy".toList, "movy".toList]] := by
  have hlady : ¬Text.EndsInIe "lady" := by
    rintro ⟨start, -, heq⟩
    have hlast := congrArg List.getLast? heq
    simp at hlast
  refine ⟨(@references_model_iff "lady" (by decide) (by decide) (by decide)).2.2.2.1.2 hlady, ?_⟩
  obtain ⟨-, hone, -, -, hmany⟩ :=
    @references_model_iff "movie" (by decide) (by decide) (by decide)
  exact ⟨hone, hmany "mov" (by decide) (by decide)⟩

end Template

end TemplateAudit
