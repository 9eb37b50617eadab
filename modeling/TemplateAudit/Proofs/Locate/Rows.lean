import TemplateAudit.Helper.Value
import TemplateAudit.Proofs.Html.Element
import TemplateAudit.Proofs.Markup.Spacing
import TemplateAudit.Proofs.Path
import TemplateAudit.Proofs.Template.Placeholder

/-!
# Templates with one element on each line

A template may have an element with an id on each of its lines, and nothing else (`OnePerLine`).  It is its own
markup (`toMarkup_eq_self`), and its document has the elements in their order, with newlines between
them (`exists_document`).
-/

namespace TemplateAudit

namespace Locate

open Html (IsTagName idTag endTag Event Building Node)
open Html.Building (Adds Idle)

/-! ## Rows -/

/-- May the id of a row hold the character? -/
def isRowIdChar (c : Char) : Bool :=
  c.isAlphanum || c == '_' || c == '-'

/-- An element with an id and nothing in it, that is closed by an end tag. -/
structure Row where
  tag : Text
  id : Text
  isTagName : IsTagName tag
  not_void : tag ∉ Html.voidElements
  not_raw : tag ∉ Html.rawElements
  not_page : tag ≠ "page".toList
  id_ne_nil : id ≠ []
  isRowIdChar : ∀ c ∈ id, isRowIdChar c = true
  known : ¬Helper.placeholder <:+: id

namespace Row

/-- The row as it is written. -/
def text (row : Row) : Text :=
  idTag row.tag row.id ++ endTag row.tag

/-- The row as an element of a document. -/
def node (row : Row) : Node :=
  .element row.tag [("id", row.id)] []

end Row

/-- A template that has rows on its lines, one on each.  A newline may end the last line. -/
inductive OnePerLine : List Row → Text → Prop
  | nil : OnePerLine [] []
  | last (row : Row) : OnePerLine [row] row.text
  | line {rows : List Row} {source : Text} (row : Row) (rest : OnePerLine rows source) :
      OnePerLine (row :: rows) (row.text ++ '\n' :: source)

variable {c d : Char} {row : Row} {rows : List Row} {source : Text}

/-! ## Characters -/

theorem isEndNameChar_of_isRowIdChar (h : isRowIdChar c = true) : Html.isEndNameChar c = true := by
  simp only [isRowIdChar, Bool.or_eq_true] at h
  obtain (h | h) | h := h <;> simp [Html.isEndNameChar, h]

namespace Row

theorem not_mem_id (row : Row) (hd : Html.isEndNameChar d = false) : d ∉ row.id := fun hmem => by
  rw [isEndNameChar_of_isRowIdChar (row.isRowIdChar d hmem)] at hd
  cases hd

/-- A character that stands in no name and is no mark of a tag stands in no row. -/
theorem not_mem_text (row : Row) (hd : Html.isEndNameChar d = false)
    (hmarks : d ∉ ("</ id=\">" : Text)) : d ∉ row.text := by
  have htag := row.isTagName.not_mem hd
  have hid := row.not_mem_id hd
  simp [text, idTag, endTag, htag, hid] at hmarks ⊢
  tauto

theorem isSpaced_text (row : Row) : Markup.IsSpaced row.text := by
  have hend : ∀ c ∈ endTag row.tag, Text.isBlank c = false := by
    simp only [endTag, List.forall_mem_cons, List.forall_mem_append]
    exact ⟨rfl, rfl, fun c hc => Html.isBlank_of_isEndNameChar (row.isTagName.all c hc).1, rfl,
      List.forall_mem_nil _⟩
  refine (Html.isSpaced_idTag row.isTagName fun c hc => ?_).append (Markup.isSpaced_of_not_blank hend) ?_
  · exact Html.isBlank_of_isEndNameChar (isEndNameChar_of_isRowIdChar (row.isRowIdChar c hc))
  · exact Text.forall_mem_of_eq_some (Html.getLast?_idTag row.tag row.id) rfl

theorem getLast?_text (row : Row) : row.text.getLast? = some '>' := by
  simp [text, endTag, List.getLast?_cons]

end Row

namespace OnePerLine

variable (h : OnePerLine rows source)
include h

/-! ## The template -/

/-- Every line begins with a tag, or is empty. -/
theorem head?_eq : ∀ c ∈ source.head?, c = '<' := by
  cases h with
  | nil => exact fun c hc => nomatch hc
  | last row => exact fun c hc => (Option.some.inj hc).symm
  | line row rest => exact fun c hc => (Option.some.inj hc).symm

theorem not_mem (hd : Html.isEndNameChar d = false) (hmarks : d ∉ ("</ id=\">\n" : Text)) : d ∉ source := by
  have hrow : d ∉ ("</ id=\">" : Text) ∧ d ≠ '\n' := by
    simp at hmarks ⊢
    tauto
  induction h with
  | nil => exact List.not_mem_nil
  | last row => exact row.not_mem_text hd hrow.1
  | line row rest ih => simp [row.not_mem_text hd hrow.1, hrow.2, ih]

theorem isSpaced : Markup.IsSpaced source := by
  induction h with
  | nil => exact .nil
  | last row => exact row.isSpaced_text
  | line row rest ih =>
    refine row.isSpaced_text.append (List.isChain_cons.2 ⟨fun c hc _ => ?_, ih⟩) ?_
    · rw [rest.head?_eq c hc]
      rfl
    · exact Text.forall_mem_of_eq_some row.getLast?_text rfl

theorem isSpaceOrTab_getLast? : ∀ c ∈ source.getLast?, Markup.isSpaceOrTab c = false := by
  induction h with
  | nil => exact fun c hc => nomatch hc
  | last row => exact Text.forall_mem_of_eq_some row.getLast?_text rfl
  | @line rows source row rest ih =>
    intro c hc
    rw [List.getLast?_append_of_ne_nil _ (List.cons_ne_nil '\n' source), List.getLast?_cons] at hc
    rw [← Option.some.inj hc]
    cases hlast : source.getLast? with
    | none => rfl
    | some d => exact ih d hlast

/-- A template of rows is its own markup. -/
theorem toMarkup_eq_self : Template.toMarkup source = source := by
  have hpercent : '%' ∉ source := h.not_mem (by decide) (by decide)
  have hliteral : Template.Literal source source :=
    Template.literal_self fun hopens => hpercent (hopens.subset (by simp))
  have hmarkup : (Template.markupPieces source).flatten = source := by
    have hwritten := (Template.Extraction.run_tokensFrom_literal hliteral .start 1).closeAll.markup
    refine hwritten.trans ?_
    simp [Template.Extraction.emit, Template.Extraction.closeAll, Template.Extraction.start]
  rw [Template.toMarkup, hmarkup]
  exact Markup.tidy_eq_self h.isSpaced h.isSpaceOrTab_getLast?

/-- The lines of a template of rows; a newline at the end is followed by an empty line. -/
theorem lines_eq : ∃ ending : List Text, (ending = [] ∨ ending = [[]]) ∧
    Text.lines source = rows.map Row.text ++ ending := by
  have hnewline : ∀ row : Row, '\n' ∉ row.text := fun row => row.not_mem_text (by decide) (by decide)
  induction h with
  | nil => exact ⟨[[]], .inr rfl, rfl⟩
  | last row => exact ⟨[], .inl rfl, Text.splitAtChar_of_not_mem (hnewline row)⟩
  | line row rest ih =>
    obtain ⟨ending, hending, hlines⟩ := ih
    refine ⟨ending, hending, ?_⟩
    rw [Text.lines, Text.splitAtChar_append (hnewline row), ← Text.lines, hlines]
    rfl

end OnePerLine

/-! ## Reading -/

/-- The events of a row. -/
def Row.events (row : Row) : List Event :=
  [.startTag row.tag [("id", row.id)] false, .endTag row.tag]

/-- A row is read, and then the rest. -/
theorem readOn_row (row : Row) (rest : Text) :
    Html.readOn false none (row.text ++ rest) =
      (Html.readOn false none rest).map fun found => (row.events ++ found.1, found.2) := by
  have hstart := Html.step_idTag row.isTagName (row.not_mem_id (d := '"') (by decide))
    (row.not_mem_id (d := '&') (by decide)) false (endTag row.tag ++ rest)
  rw [if_neg (by simpa using row.not_raw)] at hstart
  have hend := Html.step_endTag row.isTagName false rest
  rw [Row.text, List.append_assoc, Html.readOn_of_next hstart (by simp [idTag]; omega),
    Html.readOn_of_next hend (by simp [endTag]; omega)]
  cases Html.readOn false none rest <;> rfl

/-- A newline in front of a tag is read as a text of its own. -/
theorem readOn_newline {rest : Text} (h : ∀ c ∈ rest.head?, c = '<') :
    Html.readOn false none ('\n' :: rest) =
      (Html.readOn false none rest).map fun found => (.text ['\n'] :: found.1, found.2) := by
  have hplain : ('\n' :: rest).takeWhile Html.isPlainChar = ['\n'] := by
    refine Text.takeWhile_append_of_stop (s := ['\n']) (List.forall_mem_singleton.2 rfl) fun c hc => ?_
    rw [h c hc]
    rfl
  have hstep : Html.step false none ('\n' :: rest) = .next [.text ['\n']] none rest := by
    simp only [Html.step, hplain]
    rfl
  rw [Html.readOn_of_next hstep (by simp)]
  rfl

/-! ## Building -/

section Idle

variable {work : Building} (h : Idle work)
include h

/-- A row is added to what is built. -/
theorem addRow (row : Row) : Adds row.node work (row.events.foldl Building.step work) := by
  have hvoids := h.not_mem_closedVoids row.not_void
  have hbuilt : row.events.foldl Building.step work = ⟨[], row.node :: work.flush.top, [], work.closedVoids⟩ :=
    (Building.endTag_startTag hvoids row.not_void).trans (h.add_flush row.node)
  rw [hbuilt]
  exact h.adds h.closedVoids row.node

/-- A newline becomes a text. -/
theorem addNewline (hpending : work.pending = []) :
    Idle (work.step (.text ['\n'])) ∧
      (work.step (.text ['\n'])).finish = work.finish ++ [.text .ordinary ['\n']] := by
  have hidle : Idle (work.step (.text ['\n'])) := ⟨h.frames, h.closedVoids⟩
  have hstep : work.step (.text ['\n']) = ⟨[], work.top, [['\n']], work.closedVoids⟩ := by
    rw [Building.step, Building.text, h.frames, hpending]
  have hflush : (⟨[], work.top, [['\n']], work.closedVoids⟩ : Building).flush =
      ⟨[], .text .ordinary ['\n'] :: work.top, [], work.closedVoids⟩ := rfl
  refine ⟨hidle, ?_⟩
  rw [hidle.finish_eq, hstep, hflush, h.finish_eq, Building.flush_of_pending_nil hpending, List.reverse_cons]

end Idle

/-- A document has rows as its elements, with newlines between them. -/
inductive Lists : List Row → List Node → Prop
  | nil : Lists [] []
  | row {rows : List Row} {nodes : List Node} (row : Row) (rest : Lists rows nodes) :
      Lists (row :: rows) (row.node :: nodes)
  | newline {rows : List Row} {nodes : List Node} (rest : Lists rows nodes) :
      Lists rows (.text .ordinary ['\n'] :: nodes)

/-- The events of a template of rows add its elements to what is built, whatever that is. -/
theorem OnePerLine.exists_events (h : OnePerLine rows source) :
    ∃ events, Html.readOn false none source = .ok (events, none, []) ∧
      ∀ work, Idle work → ∃ nodes, (events.foldl Building.step work).finish = work.finish ++ nodes ∧
        Lists rows nodes := by
  induction h with
  | nil => exact ⟨[], Html.readOn_nil false none, fun work _ => ⟨[], by simp, .nil⟩⟩
  | last row =>
    refine ⟨row.events, ?_, fun work hwork => ⟨_, (addRow hwork row).finish, .row row .nil⟩⟩
    have hread := readOn_row row []
    rw [Html.readOn_nil, List.append_nil] at hread
    exact hread
  | @line rows source row rest ih =>
    obtain ⟨events, hread, hbuild⟩ := ih
    refine ⟨row.events ++ .text ['\n'] :: events, ?_, fun work hwork => ?_⟩
    · rw [readOn_row, readOn_newline rest.head?_eq, hread]
      rfl
    · have hrow := addRow hwork row
      obtain ⟨hidle', hnewline⟩ := addNewline hrow.idle hrow.pending
      obtain ⟨nodes, hfinish, hlists⟩ := hbuild _ hidle'
      refine ⟨row.node :: .text .ordinary ['\n'] :: nodes, ?_, .row row (.newline hlists)⟩
      rw [List.foldl_append, List.foldl_cons, hfinish, hnewline, hrow.finish]
      simp

/-- **The document of a template of rows has the rows as its elements, in their order.** -/
theorem OnePerLine.exists_document (h : OnePerLine rows source) :
    ∃ document, Html.parse (Template.toMarkup source) = .ok document ∧ Lists rows document := by
  obtain ⟨events, hread, hbuild⟩ := h.exists_events
  obtain ⟨nodes, hfinish, hlists⟩ := hbuild .start ⟨rfl, by simp [Building.start]⟩
  refine ⟨nodes, ?_, hlists⟩
  rw [h.toMarkup_eq_self, Html.parse_eq_ofMarkup (h.not_mem (by decide) (by decide)), Html.ofMarkup,
    Html.events_of_readOn hread]
  exact congrArg Except.ok hfinish

end Locate

end TemplateAudit
