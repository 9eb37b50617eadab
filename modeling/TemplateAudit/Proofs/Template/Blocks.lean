import Mathlib.Data.List.Basic
import TemplateAudit.Proofs.Helper.Rendered
import TemplateAudit.Proofs.Template.Segments
import TemplateAudit.Proofs.Text.Trim
import TemplateAudit.Template.Markup

/-!
# Blocks and their ends

Tokens that open blocks and tokens that close them are brackets, and the extraction follows them on a
stack: a closer takes the innermost block off (`Extraction.blocks_step_of_closes`), an opener puts one
on (`Extraction.blocks_step_of_opens`), anything else leaves the stack alone.  There is one exception.
An output that lands in an attribute value or in the text of a script or style element is nothing but
a placeholder and opens no block (`Extraction.skips`), although the end of its block still comes.

So the element that a helper writes around its block is closed at the bracket of the helper just when
there is no such output between the two: `closes_at_bracket_iff`.
-/

namespace TemplateAudit

namespace Template

/-! ## Brackets -/

namespace Token

/-- Does a token close a block? -/
def closes (token : Token) : Bool :=
  token.kind == .statement && closesBlock token.value

/-- Does a token open a block?  A statement that closes one does not. -/
def opens (token : Token) : Bool :=
  match token.kind with
  | .output => Helper.opensBlock token.value
  | .statement => !closesBlock token.value && opensStatement token.value
  | .text | .comment => false

end Token

/-- Openers and closers are balanced like brackets. -/
inductive Balanced : List Token → Prop
  | nil : Balanced []
  | plain {token : Token} {tokens : List Token} (hopens : token.opens = false)
      (hcloses : token.closes = false) (rest : Balanced tokens) : Balanced (token :: tokens)
  | block {opener closer : Token} {inner tokens : List Token} (hopens : opener.opens = true)
      (hcloses : closer.closes = true) (hinner : Balanced inner) (rest : Balanced tokens) :
      Balanced (opener :: (inner ++ closer :: tokens))

theorem Token.opens_eq_false_of_closes {token : Token} (h : token.closes = true) :
    token.opens = false := by
  obtain ⟨hkind, hcloses⟩ := Bool.and_eq_true_iff.1 h
  rw [opens, eq_of_beq hkind, hcloses]
  rfl

/-- Between balanced brackets every opener has its closer. -/
theorem Balanced.exists_closer {before rest : List Token} {opener : Token}
    (h : Balanced (before ++ opener :: rest)) (hopener : opener.opens = true) :
    ∃ inner closer after, rest = inner ++ closer :: after ∧ Balanced inner ∧
      closer.closes = true := by
  generalize htokens : before ++ opener :: rest = tokens at h
  induction h generalizing before rest with
  | nil => simp at htokens
  | @plain token tokens hopens _ _ ih =>
    cases before with
    | nil =>
      obtain ⟨rfl, -⟩ := List.cons.inj htokens
      rw [hopens] at hopener
      cases hopener
    | cons first before => exact ih (List.cons.inj htokens).2
  | @block opener' closer inner tokens _ hcloses hinner _ ihinner ihrest =>
    cases before with
    | nil =>
      obtain ⟨-, rfl⟩ := List.cons.inj htokens
      exact ⟨inner, closer, tokens, rfl, hinner, hcloses⟩
    | cons first before =>
      have hclosed : opener ≠ closer := by
        rintro rfl
        rw [Token.opens_eq_false_of_closes hcloses] at hopener
        cases hopener
      rcases List.append_eq_append_iff.1 (List.cons.inj htokens).2 with
        ⟨middle, rfl, hmiddle⟩ | ⟨middle, rfl, hmiddle⟩
      · cases middle with
        | nil => exact absurd (List.cons.inj hmiddle).1 hclosed
        | cons next middle =>
          obtain ⟨rfl, rfl⟩ := List.cons.inj hmiddle
          obtain ⟨inner', closer', after, rfl, hbalanced, hcloses'⟩ := ihinner rfl
          exact ⟨inner', closer', after ++ closer :: tokens, by simp, hbalanced, hcloses'⟩
      · cases middle with
        | nil => exact absurd (List.cons.inj hmiddle).1.symm hclosed
        | cons next middle =>
          obtain ⟨rfl, rfl⟩ := List.cons.inj hmiddle
          exact ihrest rfl

/-! ## One token -/

/-- The code of every tag is trimmed. -/
def Token.Trimmed (token : Token) : Prop :=
  token.kind ≠ .text → Text.trim token.value = token.value

theorem Cut.trimmed {line : Nat} {tokens : List Token} {segments : List Text}
    (h : Cut line tokens segments) : ∀ token ∈ tokens, token.Trimmed := by
  induction h with
  | nil => simp
  | text _ _ _ _ ih => exact List.forall_mem_cons.2 ⟨fun hkind => absurd rfl hkind, ih⟩
  | tag _ _ _ ih => exact List.forall_mem_cons.2 ⟨fun _ => (Text.isTrimmed_trim _).trim_eq, ih⟩
  | unclosed => exact List.forall_mem_singleton.2 fun _ => (Text.isTrimmed_trim _).trim_eq

theorem trimmed_tokenize (source : Text) : ∀ token ∈ tokenize source, token.Trimmed := by
  obtain ⟨segments, -, hcut⟩ := exists_cut 1 source
  exact hcut.trimmed

namespace Extraction

/-- Does a token open a block that is not followed?  In an attribute value and in the text of a script
or style element an output is nothing but a placeholder. -/
def skips (work : Extraction) (token : Token) : Bool :=
  token.kind == .output && token.opens &&
    (work.context.inAttributeValue || work.context.inRawText)

@[simp]
theorem blocks_emit (work : Extraction) (piece : Text) : (work.emit piece).blocks = work.blocks := rfl

theorem blocks_openBlockIf (work : Extraction) (opens : Bool) (closing : Option Text) :
    (work.openBlockIf opens closing).blocks =
      if opens then closing :: work.blocks else work.blocks := by
  cases opens <;> rfl

theorem blocks_closeBlock (work : Extraction) : work.closeBlock.blocks = work.blocks.tail := by
  unfold closeBlock
  cases hblocks : work.blocks with
  | nil => exact hblocks
  | cons closing blocks => cases closing <;> rfl

/-- In an attribute value and in the text of a script or style element no output opens a block. -/
theorem blocks_output_of_placeholder (work : Extraction) (code : Text)
    (h : (work.context.inAttributeValue || work.context.inRawText) = true) :
    (work.output code).blocks = work.blocks := by
  rw [output, if_pos h, blocks_emit]

/-- Anywhere else an output opens a block when its code does. -/
theorem blocks_output (work : Extraction) {code : Text} (htrimmed : Text.trim code = code)
    (h : (work.context.inAttributeValue || work.context.inRawText) = false) :
    ∃ closing, (work.output code).blocks =
      if Helper.opensBlock code then closing :: work.blocks else work.blocks := by
  simp only [output, h, Bool.false_eq_true, if_false]
  by_cases htag : work.context.inTag = true
  · exact ⟨none, by rw [if_pos htag, blocks_openBlockIf]⟩
  · rw [if_neg htag]
    cases hrender : Helper.render? code with
    | none => exact ⟨none, by cases Helper.opensBlock code <;> rfl⟩
    | some call =>
      obtain ⟨rendered, block⟩ := call
      have hblock := (Helper.block_of_render? hrender).1
      rw [htrimmed] at hblock
      exact ⟨rendered.closing, by rw [hblock, blocks_openBlockIf, blocks_emit]⟩

/-- A closer takes the innermost block off. -/
theorem blocks_step_of_closes (work : Extraction) {token : Token} (hcloses : token.closes = true) :
    (work.step token).blocks = work.blocks.tail := by
  obtain ⟨hkind, hvalue⟩ := Bool.and_eq_true_iff.1 hcloses
  rw [step, eq_of_beq hkind]
  simp only [statement]
  rw [if_pos hvalue, blocks_closeBlock]

/-- An opener that is followed puts a block on. -/
theorem blocks_step_of_opens (work : Extraction) {token : Token} (htrimmed : token.Trimmed)
    (hopens : token.opens = true) (hskips : work.skips token = false) :
    ∃ closing, (work.step token).blocks = closing :: work.blocks := by
  obtain ⟨kind, code, line⟩ := token
  cases kind with
  | text | comment => cases hopens
  | output =>
    have hcode : Helper.opensBlock code = true := hopens
    have hvalue : (work.context.inAttributeValue || work.context.inRawText) = false := by
      simpa [skips, hopens] using hskips
    obtain ⟨closing, hblocks⟩ := blocks_output work (htrimmed (by simp)) hvalue
    rw [if_pos hcode] at hblocks
    exact ⟨closing, hblocks⟩
  | statement =>
    obtain ⟨hend, hcode⟩ : closesBlock code = false ∧ opensStatement code = true := by
      simpa [Token.opens] using hopens
    exact ⟨none, by simp [step, statement, blocks_openBlockIf, hend, hcode]⟩

/-- An opener that is not followed leaves the stack alone. -/
theorem blocks_step_of_skips (work : Extraction) {token : Token} (hskips : work.skips token = true) :
    (work.step token).blocks = work.blocks := by
  obtain ⟨⟨hkind, -⟩, hvalue⟩ := by simpa only [skips, Bool.and_eq_true] using hskips
  rw [step, eq_of_beq hkind]
  exact blocks_output_of_placeholder work token.value hvalue

/-- So does a token that is no bracket. -/
theorem blocks_step_of_plain (work : Extraction) {token : Token} (htrimmed : token.Trimmed)
    (hopens : token.opens = false) (hcloses : token.closes = false) :
    (work.step token).blocks = work.blocks := by
  obtain ⟨kind, code, line⟩ := token
  cases kind with
  | text | comment => rfl
  | output =>
    have hcode : ¬Helper.opensBlock code = true := Bool.eq_false_iff.1 hopens
    by_cases hvalue : (work.context.inAttributeValue || work.context.inRawText) = true
    · exact blocks_output_of_placeholder work code hvalue
    · obtain ⟨closing, hblocks⟩ :=
        blocks_output work (htrimmed (by simp)) (Bool.eq_false_iff.2 hvalue)
      rwa [if_neg hcode] at hblocks
  | statement =>
    have hend : closesBlock code = false := hcloses
    have hcode : opensStatement code = false := by
      simpa [Token.opens, hend] using hopens
    simp [step, statement, hend, hcode, blocks_openBlockIf]

/-! ## A run of tokens -/

variable {base : List (Option Text)} {work : Extraction} {tokens : List Token}

@[simp]
theorem run_nil (work : Extraction) : work.run [] = work := rfl

@[simp]
theorem run_cons (work : Extraction) (token : Token) (tokens : List Token) :
    work.run (token :: tokens) = (work.step token).run tokens := rfl

@[simp]
theorem run_append (work : Extraction) (first second : List Token) :
    work.run (first ++ second) = (work.run first).run second :=
  List.foldl_append

/-- The blocks in `base` are open all along. -/
def Keeps (base : List (Option Text)) : Extraction → List Token → Prop
  | work, [] => base <:+ work.blocks
  | work, token :: tokens => base <:+ work.blocks ∧ Keeps base (work.step token) tokens

/-- Every block that is opened on the way is followed. -/
def FollowsAll : Extraction → List Token → Prop
  | _, [] => True
  | work, token :: tokens => work.skips token = false ∧ FollowsAll (work.step token) tokens

theorem keeps_append {first second : List Token} :
    Keeps base work (first ++ second) ↔ Keeps base work first ∧ Keeps base (work.run first) second := by
  induction first generalizing work with
  | nil => cases second <;> simp [Keeps]
  | cons token first ih => simp [Keeps, ih, and_assoc]

theorem followsAll_append {first second : List Token} :
    FollowsAll work (first ++ second) ↔ FollowsAll work first ∧ FollowsAll (work.run first) second := by
  induction first generalizing work with
  | nil => simp [FollowsAll]
  | cons token first ih => simp [FollowsAll, ih, and_assoc]

theorem Keeps.mono {fewer : List (Option Text)} (hfewer : fewer <:+ base) (h : Keeps base work tokens) :
    Keeps fewer work tokens := by
  induction tokens generalizing work with
  | nil => exact hfewer.trans h
  | cons token tokens ih => exact ⟨hfewer.trans h.1, ih h.2⟩

theorem Keeps.blocks_run (h : Keeps base work tokens) : base <:+ (work.run tokens).blocks := by
  induction tokens generalizing work with
  | nil => exact h
  | cons token tokens ih => exact ih h.2

/-- When every block is followed, balanced tokens leave the stack as they found it, and never reach
below. -/
theorem keeps_of_followsAll (hbalanced : Balanced tokens)
    (htrimmed : ∀ token ∈ tokens, token.Trimmed) (hfollows : FollowsAll work tokens) :
    Keeps work.blocks work tokens ∧ (work.run tokens).blocks = work.blocks := by
  induction hbalanced generalizing work with
  | nil => exact ⟨List.suffix_rfl, rfl⟩
  | @plain token tokens hopens hcloses _ ih =>
    rw [List.forall_mem_cons] at htrimmed
    have hstep := blocks_step_of_plain work htrimmed.1 hopens hcloses
    obtain ⟨hkeeps, hrun⟩ := ih htrimmed.2 hfollows.2
    rw [hstep] at hkeeps hrun
    exact ⟨⟨List.suffix_rfl, hkeeps⟩, hrun⟩
  | @block opener closer inner tokens hopens hcloses _ _ ihinner ihrest =>
    simp only [List.forall_mem_cons, List.forall_mem_append] at htrimmed
    obtain ⟨hskips, hfollows⟩ := hfollows
    obtain ⟨hfollowsInner, -, hfollowsRest⟩ := followsAll_append.1 hfollows
    obtain ⟨closing, hopened⟩ := blocks_step_of_opens work htrimmed.1 hopens hskips
    obtain ⟨hinner, hrun⟩ := ihinner htrimmed.2.1 hfollowsInner
    rw [hopened] at hinner hrun
    have hbelow : work.blocks <:+ closing :: work.blocks := List.suffix_cons closing work.blocks
    have hclosed : (((work.step opener).run inner).step closer).blocks = work.blocks := by
      rw [blocks_step_of_closes _ hcloses, hrun, List.tail_cons]
    obtain ⟨hrest, hrun'⟩ := ihrest htrimmed.2.2.2 hfollowsRest
    rw [hclosed] at hrest hrun'
    refine ⟨⟨List.suffix_rfl, keeps_append.2 ⟨hinner.mono hbelow, hrun ▸ hbelow, hrest⟩⟩, ?_⟩
    simpa using hrun'

/-- While some block stays open, balanced tokens close no less than they open, and more than that when
a block is not followed. -/
theorem length_blocks_run_le (hbalanced : Balanced tokens)
    (htrimmed : ∀ token ∈ tokens, token.Trimmed) (hbase : base ≠ []) (hkeeps : Keeps base work tokens) :
    (work.run tokens).blocks.length ≤ work.blocks.length ∧
      ((work.run tokens).blocks.length = work.blocks.length → FollowsAll work tokens) := by
  induction hbalanced generalizing work with
  | nil => exact ⟨Nat.le_refl _, fun _ => trivial⟩
  | @plain token tokens hopens hcloses _ ih =>
    rw [List.forall_mem_cons] at htrimmed
    have hstep := blocks_step_of_plain work htrimmed.1 hopens hcloses
    have hskips : work.skips token = false := by simp [skips, hopens]
    obtain ⟨hle, hfollows⟩ := ih htrimmed.2 hkeeps.2
    rw [hstep] at hle hfollows
    exact ⟨hle, fun hlength => ⟨hskips, hfollows hlength⟩⟩
  | @block opener closer inner tokens hopens hcloses _ _ ihinner ihrest =>
    simp only [List.forall_mem_cons, List.forall_mem_append] at htrimmed
    obtain ⟨hkeepsInner, -, hkeepsRest⟩ := keeps_append.1 hkeeps.2
    obtain ⟨hleInner, hfollowsInner⟩ := ihinner htrimmed.2.1 hkeepsInner
    obtain ⟨hleRest, hfollowsRest⟩ := ihrest htrimmed.2.2.2 hkeepsRest
    -- the closer takes a block off, since one is open
    have hopen : 0 < ((work.step opener).run inner).blocks.length :=
      Nat.lt_of_lt_of_le (List.length_pos_of_ne_nil hbase) hkeepsInner.blocks_run.length_le
    rw [blocks_step_of_closes _ hcloses, List.length_tail] at hleRest hfollowsRest
    simp only [run_cons, run_append]
    by_cases hskips : work.skips opener = true
    · rw [blocks_step_of_skips work hskips] at hleInner
      exact ⟨by omega, fun hlength => by omega⟩
    · obtain ⟨closing, hopened⟩ :=
        blocks_step_of_opens work htrimmed.1 hopens (Bool.eq_false_iff.2 hskips)
      rw [hopened, List.length_cons] at hleInner hfollowsInner
      refine ⟨by omega, fun hlength => ⟨Bool.eq_false_iff.2 hskips, followsAll_append.2 ⟨?_, ?_, ?_⟩⟩⟩
      · exact hfollowsInner (by omega)
      · simp [skips, Token.opens_eq_false_of_closes hcloses]
      · exact hfollowsRest (by omega)

/-! ## The block of a helper -/

/-- The token is replaced by a start tag, and `closing` is to be written where its block ends. -/
def Wraps (work : Extraction) (token : Token) (closing : Text) : Prop :=
  token.kind = .output ∧ work.context.inAttributeValue = false ∧ work.context.inRawText = false ∧
    work.context.inTag = false ∧
      ∃ markup block, Helper.render? token.value = some (⟨markup, some closing⟩, block)

/-- The block opened last stays open throughout `inner`, and `closer` ends it and writes `closing`. -/
def ClosesAt (work : Extraction) (closing : Text) (inner : List Token) (closer : Token) : Prop :=
  Keeps work.blocks work inner ∧
    (work.run inner).step closer =
      { (work.run inner).emit closing with blocks := work.blocks.tail }

theorem Wraps.opens_and_blocks {token : Token} {closing : Text} (h : work.Wraps token closing)
    (htrimmed : token.Trimmed) :
    token.opens = true ∧ (work.step token).blocks = some closing :: work.blocks := by
  obtain ⟨hkind, hvalue, hraw, htag, markup, block, hrender⟩ := h
  obtain ⟨hblock, hclosing⟩ := Helper.block_of_render? hrender
  rw [htrimmed (by rw [hkind]; simp)] at hblock
  obtain rfl := hclosing rfl
  refine ⟨by rw [Token.opens, hkind]; exact hblock.symm, ?_⟩
  simp [step, output, hkind, hvalue, hraw, htag, hrender, blocks_openBlockIf]

theorem step_of_closes {closing : Text} {blocks : List (Option Text)} {closer : Token}
    (hcloses : closer.closes = true) (hblocks : work.blocks = some closing :: blocks) :
    work.step closer = { work.emit closing with blocks } := by
  obtain ⟨hkind, hvalue⟩ := Bool.and_eq_true_iff.1 hcloses
  rw [step, eq_of_beq hkind]
  simp only [statement]
  rw [if_pos hvalue, closeBlock, hblocks]
  rfl

end Extraction

/-- The closer that brackets an opener with `rest` behind it, and the tokens before the closer. -/
def ClosedBy (rest inner : List Token) (closer : Token) : Prop :=
  Balanced inner ∧ closer.closes = true ∧ ∃ after, rest = inner ++ closer :: after

open Extraction (start Wraps ClosesAt FollowsAll)

/-- In a template with balanced blocks every helper that wraps its block in an element has a closer,
and the element is closed there just when every block between the two is followed: none of them is
opened by an output in an attribute value or in the text of a script or style element. -/
theorem closes_at_bracket_iff (source : Text) {before rest : List Token} {opener : Token}
    {closing : Text} (hbalanced : Balanced (tokenize source))
    (htokens : tokenize source = before ++ opener :: rest)
    (hwraps : (start.run before).Wraps opener closing) :
    (∃ inner closer, ClosedBy rest inner closer) ∧
      ∀ inner closer, ClosedBy rest inner closer →
        (((start.run before).step opener).ClosesAt closing inner closer ↔
          ((start.run before).step opener).FollowsAll inner) := by
  have htrimmed := trimmed_tokenize source
  rw [htokens] at hbalanced htrimmed
  simp only [List.forall_mem_append, List.forall_mem_cons] at htrimmed
  obtain ⟨-, hopener, hrest⟩ := htrimmed
  obtain ⟨hopens, hopened⟩ := hwraps.opens_and_blocks hopener
  refine ⟨?_, ?_⟩
  · obtain ⟨inner, closer, after, hsplit, hinner, hcloses⟩ := hbalanced.exists_closer hopens
    exact ⟨inner, closer, hinner, hcloses, after, hsplit⟩
  · rintro inner closer ⟨hinner, hcloses, after, rfl⟩
    have htrimmedInner : ∀ token ∈ inner, token.Trimmed := fun token htoken =>
      hrest token (List.mem_append_left _ htoken)
    constructor
    · rintro ⟨hkeeps, -⟩
      have hne : ((start.run before).step opener).blocks ≠ [] := by simp [hopened]
      obtain ⟨hle, hfollows⟩ := Extraction.length_blocks_run_le hinner htrimmedInner hne hkeeps
      exact hfollows (Nat.le_antisymm hle hkeeps.blocks_run.length_le)
    · intro hfollows
      obtain ⟨hkeeps, hrun⟩ := Extraction.keeps_of_followsAll hinner htrimmedInner hfollows
      refine ⟨hkeeps, ?_⟩
      rw [hopened] at hrun ⊢
      exact Extraction.step_of_closes hcloses hrun

/-- A link around a script in which an output opens a block. -/
def scriptInLink : Text :=
  "<%= link_to \"/x\" do %><script><%= capture do %>a<% end %></script>b<% end %>"

/-- The output that writes the link. -/
def linkOpener : Token :=
  ⟨.output, "link_to \"/x\" do", 1⟩

/-- What stands in the link. -/
def linkBody : List Token :=
  [⟨.text, "<script>", 1⟩, ⟨.output, "capture do", 1⟩, ⟨.text, "a", 1⟩, ⟨.statement, "end", 1⟩,
    ⟨.text, "</script>b", 1⟩]

/-- The end of the link. -/
def linkCloser : Token :=
  ⟨.statement, "end", 1⟩

theorem closes_at_bracket_iff_scriptInLink :
    Balanced (tokenize scriptInLink) ∧
      tokenize scriptInLink = [] ++ linkOpener :: (linkBody ++ [linkCloser]) ∧
      (start.run []).Wraps linkOpener "</a>" ∧ ClosedBy (linkBody ++ [linkCloser]) linkBody linkCloser ∧
      ¬((start.run []).step linkOpener).ClosesAt "</a>" linkBody linkCloser ∧
      toMarkup scriptInLink = "<a href=\"/x\"><script>ERB_OUTPUTa</a></script>b" := by
  have htokens : tokenize scriptInLink = [] ++ linkOpener :: (linkBody ++ [linkCloser]) := by
    decide +kernel
  have hcaptured : Balanced [⟨.text, "a", 1⟩] := .plain rfl rfl .nil
  have hinner : Balanced linkBody :=
    .plain rfl rfl (.block (by decide +kernel) rfl hcaptured (.plain rfl rfl .nil))
  have hbalanced : Balanced (tokenize scriptInLink) :=
    htokens ▸ .block (by decide +kernel) rfl hinner .nil
  have hwraps : (start.run []).Wraps linkOpener "</a>" :=
    ⟨rfl, rfl, rfl, rfl, "<a href=\"/x\">", true, by decide +kernel⟩
  have hclosed : ClosedBy (linkBody ++ [linkCloser]) linkBody linkCloser := ⟨hinner, rfl, [], rfl⟩
  refine ⟨hbalanced, htokens, hwraps, hclosed, fun hcloses => ?_, by decide +kernel⟩
  have hfollows :=
    ((closes_at_bracket_iff scriptInLink hbalanced htokens hwraps).2 _ _ hclosed).1 hcloses
  have hskips :
      ((start.step linkOpener).step ⟨.text, "<script>", 1⟩).skips ⟨.output, "capture do", 1⟩ =
        true := by
    decide +kernel
  exact Bool.false_ne_true (hfollows.2.1.symm.trans hskips)

end Template

end TemplateAudit
