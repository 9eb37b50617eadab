import Mathlib.Logic.Function.Iterate
import TemplateAudit.Proofs.Template.Blocks

/-!
# Elements of helpers are closed in order

The start tag of a helper with a block is written where the helper stands, and its end tag where the block
ends, or at the end of the template when the block never does.  `Extraction.notes` says of each piece of
markup whether it is the one or the other, and `Nested` what it means that start tags and end tags stand
like brackets.  They do in every template, whether its blocks are balanced or not
(`elements_are_closed_in_order`).

The blocks that are open say which end tags are still to come.  So what is noted from a token on ends these
elements, the innermost first, besides those that it opens itself: `Ends` is kept by every step, read from
the last token backwards (`ends_stepNotes`).
-/

namespace TemplateAudit

namespace Template

open Helper (placeholder)

/-! ## Start tags and end tags as brackets -/

/-- A piece of markup, noted with what it does. -/
inductive Note where
  /-- It neither opens nor closes an element around a block. -/
  | plain (piece : Text)
  /-- It is the start tag of a helper with a block, and `closing` is the end tag. -/
  | opening (piece closing : Text)
  /-- It is the end tag of a helper with a block. -/
  | closing (piece : Text)
  deriving DecidableEq, Repr

/-- The piece itself. -/
def Note.piece : Note → Text
  | plain piece | opening piece _ | closing piece => piece

/-- Every start tag has its end tag, and what stands between the two has all of its own there. -/
inductive Nested : List Note → Prop
  | nil : Nested []
  | plain {piece : Text} {notes : List Note} (rest : Nested notes) : Nested (.plain piece :: notes)
  | element {piece closing : Text} {inner notes : List Note} (hinner : Nested inner)
      (rest : Nested notes) : Nested (.opening piece closing :: (inner ++ .closing closing :: notes))

namespace Nested

variable {inner inner' before after : List Note}

/-- A start tag has an end tag, and what stands between the two is nested. -/
theorem exists_closing {piece closing : Text}
    (h : Nested (before ++ .opening piece closing :: after)) :
    ∃ inner rest, after = inner ++ .closing closing :: rest ∧ Nested inner := by
  generalize hnotes : before ++ .opening piece closing :: after = notes at h
  induction h generalizing before after with
  | nil => simp at hnotes
  | plain _ ih =>
    cases before with
    | nil => cases (List.cons.inj hnotes).1
    | cons first before => exact ih (List.cons.inj hnotes).2
  | @element piece' closing' inner notes hinner _ ihinner ihrest =>
    cases before with
    | nil =>
      obtain ⟨heq, rfl⟩ := List.cons.inj hnotes
      obtain ⟨-, rfl⟩ := Note.opening.inj heq
      exact ⟨inner, notes, rfl, hinner⟩
    | cons first before =>
      -- the start tag stands between the two tags of the first element, or after them
      rcases List.append_eq_append_iff.1 (List.cons.inj hnotes).2 with
        ⟨middle, rfl, hmiddle⟩ | ⟨middle, rfl, hmiddle⟩
      · cases middle with
        | nil => cases (List.cons.inj hmiddle).1
        | cons next middle =>
          obtain ⟨rfl, rfl⟩ := List.cons.inj hmiddle
          obtain ⟨inner', rest, rfl, hinner'⟩ := ihinner rfl
          exact ⟨inner', rest ++ .closing closing' :: notes, by simp, hinner'⟩
      · cases middle with
        | nil => cases (List.cons.inj hmiddle).1
        | cons next middle =>
          obtain ⟨rfl, rfl⟩ := List.cons.inj hmiddle
          exact ihrest rfl

/-- There is only one end tag with nested notes in front of it. -/
theorem eq_of_closing {closing closing' : Text} {rest rest' : List Note} (h : Nested inner)
    (h' : Nested inner')
    (heq : inner ++ .closing closing :: rest = inner' ++ .closing closing' :: rest') :
    inner = inner' := by
  induction h generalizing inner' closing closing' rest rest' with
  | nil =>
    cases h' with
    | nil => rfl
    | plain | element => cases (List.cons.inj heq).1
  | plain _ ih =>
    cases h' with
    | nil | element => cases (List.cons.inj heq).1
    | plain hrest =>
      obtain ⟨hpiece, heq⟩ := List.cons.inj heq
      rw [hpiece, ih hrest heq]
  | element _ _ ihinner ihrest =>
    cases h' with
    | nil | plain => cases (List.cons.inj heq).1
    | element hinner hrest =>
      simp only [List.append_assoc, List.cons_append] at heq
      obtain ⟨hpiece, heq⟩ := List.cons.inj heq
      obtain rfl := ihinner hinner heq
      obtain ⟨hend, heq⟩ := List.cons.inj (List.append_cancel_left heq)
      rw [hpiece, hend, ihrest hrest heq]

end Nested

/-- The elements with some end tags, the innermost first, are ended by the notes, and what stands in front of,
between and behind these end tags is nested. -/
def Ends : List Text → List Note → Prop
  | [], notes => Nested notes
  | closing :: closings, notes =>
    ∃ inner rest, notes = inner ++ .closing closing :: rest ∧ Nested inner ∧ Ends closings rest

namespace Ends

variable {closings : List Text} {notes : List Note}

/-- The end tags by themselves. -/
theorem map_closing (closings : List Text) : Ends closings (closings.map .closing) := by
  induction closings with
  | nil => exact .nil
  | cons closing closings ih => exact ⟨[], _, rfl, .nil, ih⟩

theorem plain (piece : Text) (h : Ends closings notes) : Ends closings (.plain piece :: notes) := by
  cases closings with
  | nil => exact Nested.plain h
  | cons closing closings =>
    obtain ⟨inner, rest, rfl, hinner, hrest⟩ := h
    exact ⟨.plain piece :: inner, rest, rfl, .plain hinner, hrest⟩

/-- With a start tag in front there is one element less to be ended. -/
theorem opening (piece : Text) {closing : Text} (h : Ends (closing :: closings) notes) :
    Ends closings (.opening piece closing :: notes) := by
  obtain ⟨inner, rest, rfl, hinner, hrest⟩ := h
  cases closings with
  | nil => exact Nested.element hinner hrest
  | cons outer closings =>
    obtain ⟨inner', rest', rfl, hinner', hrest'⟩ := hrest
    exact ⟨.opening piece closing :: (inner ++ .closing closing :: inner'), rest', by simp,
      .element hinner hinner', hrest'⟩

/-- With an end tag in front there is one more. -/
theorem closing (closing : Text) (h : Ends closings notes) :
    Ends (closing :: closings) (.closing closing :: notes) :=
  ⟨[], notes, rfl, .nil, h⟩

end Ends

namespace Extraction

/-! ## Notes -/

/-- The end tags that are to come when all blocks that are open end, the innermost first. -/
def closings (work : Extraction) : List Text :=
  work.blocks.filterMap id

/-- What is noted for the markup of a helper. -/
def noteOf (rendered : Helper.Rendered) : Note :=
  match rendered.closing with
  | some closing => .opening rendered.markup closing
  | none => .plain rendered.markup

/-- What is noted when a value is printed. -/
def outputNotes (work : Extraction) (code : Text) : List Note :=
  if work.context.inAttributeValue || work.context.inRawText then [.plain placeholder]
  else if work.context.inTag then []
  else
    match Helper.render? code with
    | some (rendered, _) => [noteOf rendered]
    | none => if Helper.opensBlock code then [] else [.plain placeholder]

/-- What is noted when the innermost block is closed. -/
def closingNotes (work : Extraction) : List Note :=
  match work.blocks with
  | some closing :: _ => [.closing closing]
  | _ => []

/-- What is noted for a token. -/
def stepNotes (work : Extraction) (token : Token) : List Note :=
  match token.kind with
  | .text => [.plain token.value]
  | .output => work.outputNotes token.value
  | .statement => if closesBlock token.value then work.closingNotes else []
  | .comment => []

/-- What is noted for some tokens, and for the blocks that are open after them. -/
def notes : Extraction → List Token → List Note
  | work, [] => work.closings.map .closing
  | work, token :: tokens => work.stepNotes token ++ notes (work.step token) tokens

variable {work : Extraction} {tokens : List Token}

/-! ### Notes are taken of every piece -/

theorem pieces_emitClosing (work : Extraction) (closing : Option Text) :
    (work.emitClosing closing).pieces = work.pieces ++ closing.toList := by
  cases closing with
  | none => exact (List.append_nil _).symm
  | some closing => rfl

theorem pieces_openBlockIf (work : Extraction) (opens : Bool) (closing : Option Text) :
    (work.openBlockIf opens closing).pieces = work.pieces := by
  cases opens <;> rfl

theorem pieces_closeBlock (work : Extraction) :
    work.closeBlock.pieces = work.pieces ++ work.closingNotes.map Note.piece := by
  rw [closeBlock, closingNotes]
  cases work.blocks with
  | nil => exact (List.append_nil _).symm
  | cons closing blocks =>
    rw [pieces_emitClosing]
    cases closing <;> rfl

theorem piece_noteOf (rendered : Helper.Rendered) : (noteOf rendered).piece = rendered.markup := by
  rw [noteOf]
  cases rendered.closing <;> rfl

theorem pieces_output (work : Extraction) (code : Text) :
    (work.output code).pieces = work.pieces ++ (work.outputNotes code).map Note.piece := by
  rw [output, outputNotes]
  split
  · rfl
  · split
    · rw [pieces_openBlockIf]
      exact (List.append_nil _).symm
    · cases Helper.render? code with
      | some call =>
        simp only [pieces_openBlockIf, List.map_singleton, piece_noteOf]
        rfl
      | none =>
        cases Helper.opensBlock code with
        | true => exact (List.append_nil _).symm
        | false => rfl

theorem pieces_step (work : Extraction) (token : Token) :
    (work.step token).pieces = work.pieces ++ (work.stepNotes token).map Note.piece := by
  obtain ⟨kind, value, line⟩ := token
  cases kind with
  | text => rfl
  | output => exact pieces_output work value
  | statement =>
    simp only [step, statement, stepNotes]
    split
    · exact pieces_closeBlock work
    · rw [pieces_openBlockIf]
      exact (List.append_nil _).symm
  | comment => exact (List.append_nil _).symm

theorem pieces_closeAll (work : Extraction) : work.closeAll.pieces = work.pieces ++ work.closings := by
  have hfoldl : ∀ (blocks : List (Option Text)) (work : Extraction),
      (blocks.foldl emitClosing work).pieces = work.pieces ++ blocks.filterMap id := by
    intro blocks
    induction blocks with
    | nil => exact fun work => (List.append_nil _).symm
    | cons closing blocks ih =>
      intro work
      rw [List.foldl_cons, ih, pieces_emitClosing]
      cases closing <;> simp
  exact hfoldl work.blocks work

/-- The pieces that are noted are those that are written. -/
theorem pieces_notes (work : Extraction) (tokens : List Token) :
    (work.run tokens).closeAll.pieces = work.pieces ++ (work.notes tokens).map Note.piece := by
  induction tokens generalizing work with
  | nil =>
    have hpiece : Note.piece ∘ Note.closing = id := rfl
    rw [run_nil, pieces_closeAll, notes, List.map_map, hpiece, List.map_id]
  | cons token tokens ih =>
    rw [run_cons, ih, pieces_step, notes, List.map_append, List.append_assoc]

/-! ### Notes are nested -/

theorem closings_openBlockIf_none (work : Extraction) (opens : Bool) :
    (work.openBlockIf opens none).closings = work.closings := by
  cases opens <;> rfl

/-- An output opens an element just when it is noted as a start tag. -/
theorem ends_outputNotes {code : Text} {notes : List Note} (h : Ends (work.output code).closings notes) :
    Ends work.closings (work.outputNotes code ++ notes) := by
  rw [output] at h
  rw [outputNotes]
  by_cases hvalue : (work.context.inAttributeValue || work.context.inRawText) = true
  · rw [if_pos hvalue] at h ⊢
    exact h.plain placeholder
  rw [if_neg hvalue] at h ⊢
  by_cases htag : work.context.inTag = true
  · rw [if_pos htag] at h ⊢
    rwa [closings_openBlockIf_none] at h
  rw [if_neg htag] at h ⊢
  cases hrender : Helper.render? code with
  | some call =>
    obtain ⟨⟨markup, closing⟩, block⟩ := call
    simp only [hrender] at h
    cases closing with
    | none =>
      rw [closings_openBlockIf_none] at h
      exact h.plain markup
    | some closing =>
      -- an end tag is written apart for calls with a block only
      obtain rfl : block = true := (Helper.block_of_render? hrender).2 rfl
      exact h.opening markup
  | none =>
    simp only [hrender] at h
    cases hopens : Helper.opensBlock code with
    | true =>
      rw [hopens] at h
      exact h
    | false =>
      rw [hopens] at h
      exact h.plain placeholder

/-- A closer ends the element of the innermost block, if that has one. -/
theorem ends_closingNotes {notes : List Note} (h : Ends work.closeBlock.closings notes) :
    Ends work.closings (work.closingNotes ++ notes) := by
  rw [closings, blocks_closeBlock] at h
  rw [closings, closingNotes]
  cases hblocks : work.blocks with
  | nil => rwa [hblocks] at h
  | cons closing blocks =>
    rw [hblocks] at h
    cases closing with
    | none => exact h
    | some closing => exact h.closing closing

theorem ends_stepNotes {token : Token} {notes : List Note} (h : Ends (work.step token).closings notes) :
    Ends work.closings (work.stepNotes token ++ notes) := by
  obtain ⟨kind, value, line⟩ := token
  cases kind with
  | text => exact h.plain value
  | output => exact ends_outputNotes h
  | statement =>
    simp only [step, statement] at h
    simp only [stepNotes]
    split at h
    · rename_i hcloses
      rw [if_pos hcloses]
      exact ends_closingNotes h
    · rename_i hcloses
      rw [if_neg hcloses]
      rwa [closings_openBlockIf_none] at h
  | comment => exact h

/-- What is noted from some tokens on ends the elements that are open. -/
theorem ends_notes (work : Extraction) (tokens : List Token) : Ends work.closings (work.notes tokens) := by
  induction tokens generalizing work with
  | nil => exact Ends.map_closing work.closings
  | cons token tokens ih => exact ends_stepNotes (ih (work.step token))

/-! ### Helpers with a block -/

/-- What is noted for the tokens in front of others. -/
theorem exists_notes_append (work : Extraction) (before tokens : List Token) :
    ∃ earlier, work.notes (before ++ tokens) = earlier ++ (work.run before).notes tokens ∧
      (work.run before).pieces = work.pieces ++ earlier.map Note.piece := by
  induction before generalizing work with
  | nil => exact ⟨[], rfl, (List.append_nil _).symm⟩
  | cons token before ih =>
    obtain ⟨earlier, hnotes, hpieces⟩ := ih (work.step token)
    refine ⟨work.stepNotes token ++ earlier, ?_, ?_⟩
    · rw [List.cons_append, notes, hnotes, run_cons, List.append_assoc]
    · rw [run_cons, hpieces, pieces_step, List.map_append, List.append_assoc]

theorem Wraps.stepNotes_eq {token : Token} {closing : Text} (h : work.Wraps token closing) :
    ∃ piece block, Helper.render? token.value = some (⟨piece, some closing⟩, block) ∧
      work.stepNotes token = [.opening piece closing] := by
  obtain ⟨hkind, hvalue, hraw, htag, piece, block, hrender⟩ := h
  refine ⟨piece, block, hrender, ?_⟩
  simp [stepNotes, hkind, outputNotes, hvalue, hraw, htag, hrender, noteOf]

/-! ## The end of the template -/

/-- Which blocks are open does not matter for what is written. -/
theorem emitClosing_withBlocks (work : Extraction) (blocks : List (Option Text))
    (closing : Option Text) :
    emitClosing { work with blocks } closing = { work.emitClosing closing with blocks } := by
  cases closing <;> rfl

theorem foldl_emitClosing_withBlocks (closings blocks : List (Option Text)) (work : Extraction) :
    closings.foldl emitClosing { work with blocks } =
      { closings.foldl emitClosing work with blocks } := by
  induction closings generalizing work with
  | nil => rfl
  | cons closing closings ih =>
    rw [List.foldl_cons, List.foldl_cons, emitClosing_withBlocks, ih]

/-- At the end the blocks that are open are closed one after the other. -/
theorem iterate_closeBlock (work : Extraction) :
    closeBlock^[work.blocks.length] work = work.closeAll := by
  generalize hblocks : work.blocks = blocks
  induction blocks generalizing work with
  | nil =>
    rw [closeAll, hblocks]
    exact congrArg (Extraction.mk work.pieces work.context) hblocks
  | cons closing blocks ih =>
    have hfirst : work.closeBlock = { work with blocks }.emitClosing closing := by
      rw [closeBlock, hblocks]
    have hrest : work.closeBlock.blocks = blocks := by
      rw [blocks_closeBlock, hblocks, List.tail_cons]
    rw [List.length_cons, Function.iterate_succ_apply, ih _ hrest, closeAll, closeAll, hrest, hblocks,
      hfirst, List.foldl_cons, emitClosing_withBlocks, foldl_emitClosing_withBlocks]

/-- A closer does nothing when no block is open. -/
theorem step_of_closes_nil {token : Token} (hcloses : token.closes = true) (hblocks : work.blocks = []) :
    work.step token = work ∧ work.stepNotes token = [] := by
  obtain ⟨hkind, hvalue⟩ := Bool.and_eq_true_iff.1 hcloses
  rw [step, stepNotes, eq_of_beq hkind]
  simp only [statement]
  rw [if_pos hvalue, if_pos hvalue, closeBlock, closingNotes, hblocks]
  exact ⟨rfl, rfl⟩

end Extraction

open Extraction (start closeBlock)

/-- What is noted for the markup of a template. -/
def markupNotes (source : Text) : List Note :=
  start.notes (tokenize source)

/-- **The elements of helpers are closed in order.**  The pieces of the markup of a template are noted as
start tags and end tags of helpers with a block, and as other pieces.  Every helper that wraps its block in
an element has its start tag noted where it is met; every start tag is followed by one end tag of its own,
and between the two stand whole elements only.  A closer without an open block writes nothing, and at the
end the open blocks are closed one by one until none is left. -/
theorem elements_are_closed_in_order (source : Text) :
    (markupNotes source).map Note.piece = markupPieces source ∧ Nested (markupNotes source) ∧
      (∀ before token rest closing, tokenize source = before ++ token :: rest →
        (start.run before).Wraps token closing →
          ∃ earlier piece block later, markupNotes source = earlier ++ .opening piece closing :: later ∧
            earlier.map Note.piece = (start.run before).pieces ∧
            Helper.render? token.value = some (⟨piece, some closing⟩, block)) ∧
      (∀ earlier piece closing later, markupNotes source = earlier ++ .opening piece closing :: later →
        ∃! inner, Nested inner ∧ ∃ rest, later = inner ++ .closing closing :: rest) ∧
      (∀ (work : Extraction) (token : Token), token.closes = true → work.blocks = [] →
        work.step token = work ∧ work.stepNotes token = []) ∧
      let work := start.run (tokenize source)
      closeBlock^[work.blocks.length] work = work.closeAll ∧ work.closeAll.blocks = [] := by
  have hnested : Nested (markupNotes source) := Extraction.ends_notes start (tokenize source)
  refine ⟨(Extraction.pieces_notes start (tokenize source)).symm, hnested, ?_, ?_, ?_,
    Extraction.iterate_closeBlock _, rfl⟩
  · intro before token rest closing htokens hwraps
    obtain ⟨earlier, hnotes, hpieces⟩ := start.exists_notes_append before (token :: rest)
    obtain ⟨piece, block, hrender, hstep⟩ := hwraps.stepNotes_eq
    refine ⟨earlier, piece, block, ((start.run before).step token).notes rest, ?_, hpieces.symm, hrender⟩
    rw [markupNotes, htokens, hnotes, Extraction.notes, hstep]
    rfl
  · intro earlier piece closing later hnotes
    obtain ⟨inner, rest, hlater, hinner⟩ := (hnotes ▸ hnested).exists_closing
    refine ⟨inner, ⟨hinner, rest, hlater⟩, ?_⟩
    rintro other ⟨hother, rest', hlater'⟩
    exact hother.eq_of_closing hinner (hlater'.symm.trans hlater)
  · exact fun work token hcloses hblocks => Extraction.step_of_closes_nil hcloses hblocks

/-- A form and a link in it, of which only the link is closed, and an end that closes nothing. -/
example :
    markupNotes "<% end %><%= form_tag '/f' do %><%= link_to '/x' do %>a<% end %>" =
      [.opening "<form>" "</form>", .opening "<a href=\"/x\">" "</a>", .plain "a",
        .closing "</a>", .closing "</form>"] := by
  decide +kernel

end Template

end TemplateAudit
