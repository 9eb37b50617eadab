import TemplateAudit.Proofs.Template.Blocks

/-!
# Values in attributes and scripts

A value that is printed in an attribute value, or in the text of a script or style element, leaves the
placeholder behind and nothing else: the template reads as if the placeholder stood there as literal text
(`toMarkup_output_eq_placeholder`).

A tag cuts the text around it into tokens of their own, where the placeholder would be part of one token.
This does not matter, because the extraction takes the parts of a template one after the other
(`run_tokensFrom_append`), as long as the first part leaves no tag open and no tag opens where the two meet.
How the text is cut into pieces then differs, and `Extraction.Agrees` says what does not.
-/

namespace TemplateAudit

namespace Template

open Helper (placeholder)

/-! ## Templates that leave no tag open -/

/-- Every tag of a template is closed: literal text, and in front of it tags with their `%>`. -/
inductive Complete : Text → Prop
  | literal {segment : Text} (h : HasNoTag segment) : Complete segment
  | tag {segment mark body rest : Text} {kind : Kind} (hsegment : HasNoTag segment)
      (hmark : Marks kind mark (body ++ '%' :: '>' :: rest)) (hbody : ¬['%', '>'] <:+: body)
      (hrest : Complete rest) :
      Complete (segment ++ '<' :: '%' :: (mark ++ (body ++ '%' :: '>' :: rest)))

/-- Any other template goes on with a tag that is never closed. -/
theorem complete_or_unclosed (s : Text) :
    Complete s ∨ ∃ p kind mark body, s = p ++ '<' :: '%' :: (mark ++ body) ∧ Complete p ∧
      Marks kind mark body ∧ ¬['%', '>'] <:+: body := by
  induction hlength : s.length using Nat.strongRecOn generalizing s with
  | ind n ih =>
    subst hlength
    obtain ⟨segment, hliteral, ⟨-, hs⟩ | ⟨tag, -, htag, hs⟩⟩ := exists_literal s
    · exact .inl (.literal (hs ▸ hliteral.hasNoTag))
    have hsegment := hliteral.hasNoTag
    obtain ⟨mark, heq, hmark⟩ := exists_marks htag
    have hbody := not_infix_untilClose (purpose tag).2
    rcases untilClose_cases (purpose tag).2 with hclosed | ⟨hopen, -⟩
    · generalize (untilClose (purpose tag).2).1 = body at hbody hclosed
      generalize (untilClose (purpose tag).2).2 = rest at hclosed
      rw [hclosed, List.append_assoc] at hmark heq
      subst heq hs
      rcases ih rest.length (by simp only [List.length_append, List.length_cons]; omega) rest rfl with
        hrest | ⟨p, kind, mark', body', rfl, hp, hmark', hbody'⟩
      · exact .inl (.tag hsegment hmark hbody hrest)
      · have hmark'' : Marks _ mark (body ++ '%' :: '>' :: p) := hmark.congr (by cases body <;> rfl)
        exact .inr ⟨_, kind, mark', body', by simp, .tag hsegment hmark'' hbody hp, hmark', hbody'⟩
    · rw [hopen] at hmark heq
      subst hs
      exact .inr ⟨segment, _, mark, _, by rw [← heq], .literal hsegment, hmark, hbody⟩

/-- Literal text goes on with literal text, if no tag opens where the two meet. -/
theorem Literal.append {segment segment' value value' : Text} (h : Literal segment value)
    (h' : Literal segment' value')
    (hjoin : segment.getLast? = some '<' → segment'.head? ≠ some '%') :
    Literal (segment ++ segment') (value ++ value') := by
  induction h with
  | nil => exact h'
  | @escape segment value rest ih =>
    refine .escape (ih fun hlast => hjoin ?_)
    rw [List.getLast?_cons, List.getLast?_cons, List.getLast?_cons, hlast]
    rfl
  | @char c segment value hc rest ih =>
    refine .char (fun hopens => ?_) (ih fun hlast => hjoin ?_)
    · obtain ⟨rfl, hsecond⟩ := List.cons_prefix_cons.1 hopens
      cases segment with
      | nil => exact hjoin rfl (by simpa [List.head?_eq_some_iff, List.cons_prefix_iff] using hsecond)
      | cons d segment =>
        obtain ⟨rfl, -⟩ := List.cons_prefix_cons.1 hsecond
        exact hc (List.prefix_append ['<', '%'] segment)
    · rw [List.getLast?_cons, hlast]
      rfl

/-- A text without `<%` says itself. -/
theorem literal_self {segment : Text} (h : ¬['<', '%'] <:+: segment) :
    Literal segment segment := by
  induction segment with
  | nil => exact .nil
  | cons c segment ih =>
    exact .char (fun hopens => h hopens.isInfix) (ih fun hopens => h (List.infix_cons hopens))

/-- A text begins with literal text, and then comes a tag or nothing. -/
theorem exists_literal_append (s : Text) :
    ∃ segment value rest, s = segment ++ rest ∧ Literal segment value ∧ (literal rest).1 = [] ∧
      rest.head? ≠ some '%' := by
  obtain ⟨segment, hsegment, ⟨-, hs⟩ | ⟨tag, -, htag, hs⟩⟩ := exists_literal s
  · exact ⟨segment, _, [], by rw [List.append_nil]; exact hs, hsegment, rfl, by simp⟩
  · exact ⟨segment, _, _, hs, hsegment, by rw [literal_tag htag], by simp⟩

namespace Extraction

/-! ## Pieces that are cut differently -/

/-- Two extractions have written the same, and will go on in the same way; only the pieces may be cut
differently. -/
structure Agrees (work work' : Extraction) : Prop where
  markup : work.pieces.flatten = work'.pieces.flatten
  context : work.context = work'.context
  blocks : work.blocks = work'.blocks

theorem agrees_emit_nil (work : Extraction) : Agrees work (work.emit []) :=
  ⟨by simp [emit], rfl, rfl⟩

theorem agrees_emit_append (work : Extraction) (first second : Text) :
    Agrees ((work.emit first).emit second) (work.emit (first ++ second)) :=
  ⟨by simp [emit], (Markup.Context.feed_append _ _ _).symm, rfl⟩

namespace Agrees

variable {work work' work'' : Extraction}

theorem refl (work : Extraction) : Agrees work work :=
  ⟨rfl, rfl, rfl⟩

theorem symm (h : Agrees work work') : Agrees work' work :=
  ⟨h.markup.symm, h.context.symm, h.blocks.symm⟩

theorem trans (h : Agrees work work') (h' : Agrees work' work'') : Agrees work work'' :=
  ⟨h.markup.trans h'.markup, h.context.trans h'.context, h.blocks.trans h'.blocks⟩

theorem emit (h : Agrees work work') (piece : Text) : Agrees (work.emit piece) (work'.emit piece) :=
  ⟨by simp [Extraction.emit, h.markup], congrArg (·.feed piece) h.context, h.blocks⟩

theorem emitClosing (h : Agrees work work') (closing : Option Text) :
    Agrees (work.emitClosing closing) (work'.emitClosing closing) := by
  cases closing with
  | none => exact h
  | some closing => exact h.emit closing

theorem withBlocks (h : Agrees work work') (blocks : List (Option Text)) :
    Agrees { work with blocks } { work' with blocks } :=
  ⟨h.markup, h.context, rfl⟩

theorem openBlockIf (h : Agrees work work') (opens : Bool) (closing : Option Text) :
    Agrees (work.openBlockIf opens closing) (work'.openBlockIf opens closing) := by
  cases opens with
  | false => exact h
  | true => exact ⟨h.markup, h.context, congrArg (closing :: ·) h.blocks⟩

theorem closeBlock (h : Agrees work work') : Agrees work.closeBlock work'.closeBlock := by
  rw [Extraction.closeBlock, Extraction.closeBlock, ← h.blocks]
  cases work.blocks with
  | nil => exact h
  | cons closing blocks => exact (h.withBlocks blocks).emitClosing closing

theorem output (h : Agrees work work') (code : Text) : Agrees (work.output code) (work'.output code) := by
  rw [Extraction.output, Extraction.output, ← h.context]
  split
  · exact h.emit placeholder
  · split
    · exact h.openBlockIf _ none
    · split
      · exact (h.emit _).openBlockIf _ _
      · split
        · exact h.openBlockIf true none
        · exact h.emit placeholder

theorem step (h : Agrees work work') (token : Token) : Agrees (work.step token) (work'.step token) := by
  obtain ⟨kind, value, line⟩ := token
  cases kind with
  | text => exact h.emit value
  | output => exact h.output value
  | statement =>
    simp only [Extraction.step, statement]
    split
    · exact h.closeBlock
    · exact h.openBlockIf _ none
  | comment => exact h

theorem run (h : Agrees work work') (tokens : List Token) :
    Agrees (work.run tokens) (work'.run tokens) := by
  induction tokens generalizing work work' with
  | nil => exact h
  | cons token tokens ih => exact ih (h.step token)

theorem closeAll (h : Agrees work work') : Agrees work.closeAll work'.closeAll := by
  have hfoldl : ∀ (blocks : List (Option Text)) {work work' : Extraction}, Agrees work work' →
      Agrees (blocks.foldl Extraction.emitClosing work) (blocks.foldl Extraction.emitClosing work') := by
    intro blocks
    induction blocks with
    | nil => exact fun h => h
    | cons closing blocks ih => exact fun h => ih (h.emitClosing closing)
  rw [Extraction.closeAll, Extraction.closeAll, ← h.blocks]
  exact (hfoldl work.blocks h).withBlocks []

end Agrees

/-! ## A template in parts -/

/-- On which line the tokens start does not matter. -/
theorem run_tokensFrom_line (work : Extraction) (line line' : Nat) (s : Text) :
    work.run (tokensFrom line s) = work.run (tokensFrom line' s) := by
  rw [tokensFrom_eq line, tokensFrom_eq line', run_append, run_append]
  have htext : work.run (if (literal s).1.isEmpty then [] else [⟨.text, (literal s).1, line⟩]) =
      work.run (if (literal s).1.isEmpty then [] else [⟨.text, (literal s).1, line'⟩]) := by
    split <;> rfl
  rw [htext]
  match htag : (literal s).2 with
  | none => rfl
  | some tag =>
    have hshorter : (untilClose (purpose tag).2).2.length < s.length :=
      Nat.lt_of_le_of_lt (length_untilClose_le _)
        (Nat.lt_of_le_of_lt (length_purpose_le _) (length_literal_lt htag))
    exact run_tokensFrom_line _ _ _ _
termination_by s.length

/-- Literal text is written first, and then the rest is read. -/
theorem run_tokensFrom_text {segment value rest : Text} (hliteral : Literal segment value)
    (hrest : (literal rest).1 = []) (hhead : rest.head? ≠ some '%') (work : Extraction)
    (line line' : Nat) :
    Agrees (work.run (tokensFrom line (segment ++ rest)))
      ((work.emit value).run (tokensFrom line' rest)) := by
  by_cases hvalue : value = []
  · subst hvalue
    cases hliteral
    rw [List.nil_append, run_tokensFrom_line work line line']
    exact (agrees_emit_nil work).run _
  · rw [tokensFrom_text line hliteral hvalue hrest hhead, run_cons,
      run_tokensFrom_line _ (line + Text.newlines segment) line']
    exact .refl _

theorem run_tokensFrom_literal {segment value : Text} (hliteral : Literal segment value)
    (work : Extraction) (line : Nat) :
    Agrees (work.run (tokensFrom line segment)) (work.emit value) := by
  have hnil : ([] : Text).head? ≠ some '%' := by simp
  have htext := run_tokensFrom_text hliteral rfl hnil work line line
  rwa [List.append_nil, tokensFrom_nil, run_nil] at htext

/-- Literal text and a tag are taken first, and then the rest is read. -/
theorem run_tokensFrom_tag {segment value mark body rest : Text} {kind : Kind}
    (hliteral : Literal segment value) (hmark : Marks kind mark (body ++ '%' :: '>' :: rest))
    (hbody : ¬['%', '>'] <:+: body) (work : Extraction) (line line' : Nat) :
    Agrees (work.run (tokensFrom line (segment ++ '<' :: '%' :: (mark ++ (body ++ '%' :: '>' :: rest)))))
      (((work.emit value).step ⟨kind, codeOf body, line⟩).run (tokensFrom line' rest)) := by
  have hread : (literal ('<' :: '%' :: (mark ++ (body ++ '%' :: '>' :: rest)))).1 = [] := by
    rw [literal_tag hmark.head?_ne]
  have htext := run_tokensFrom_text hliteral hread (by simp) work line line
  rw [tokensFrom_tag line hmark hbody rfl (by simp), run_cons, untilClose] at htext
  rwa [run_tokensFrom_line _ (line + Text.newlines body) line'] at htext

/-- A template is read in two parts, if the first one leaves no tag open and no tag opens where the two
meet. -/
theorem run_tokensFrom_append {p rest : Text} (hp : Complete p)
    (hjoin : p.getLast? = some '<' → rest.head? ≠ some '%') (work : Extraction) (line : Nat) :
    Agrees (work.run (tokensFrom line (p ++ rest)))
      ((work.run (tokensFrom line p)).run (tokensFrom line rest)) := by
  induction hp generalizing work with
  | @literal p h =>
    obtain ⟨value, hliteral⟩ := h.literal
    obtain ⟨segment, value', rest', rfl, hliteral', hread, hhead⟩ := exists_literal_append rest
    have hjoined : Literal (p ++ segment) (value ++ value') := by
      refine hliteral.append hliteral' fun hlast hopens => hjoin hlast ?_
      rw [List.head?_append, hopens]
      rfl
    have hfirst := run_tokensFrom_literal hliteral work line
    have hsecond := run_tokensFrom_text hliteral' hread hhead (work.run (tokensFrom line p)) line line
    have hwhole := run_tokensFrom_text hjoined hread hhead work line line
    rw [List.append_assoc] at hwhole
    refine hwhole.trans (.trans ?_ hsecond.symm)
    exact ((agrees_emit_append work value value').symm.trans (hfirst.symm.emit value')).run _
  | @tag segment mark body p kind hsegment hmark hbody hrest ih =>
    obtain ⟨value, hliteral⟩ := hsegment.literal
    have hmark' : Marks kind mark (body ++ '%' :: '>' :: (p ++ rest)) :=
      hmark.congr (by cases body <;> rfl)
    have hlast : p.getLast? = some '<' → rest.head? ≠ some '%' := fun hlast =>
      hjoin (by simp [List.getLast?_append, List.getLast?_cons, hlast])
    have hwhole := run_tokensFrom_tag hliteral hmark' hbody work line line
    have hfirst := run_tokensFrom_tag hliteral hmark hbody work line line
    simp only [List.append_assoc, List.cons_append]
    exact hwhole.trans ((ih hlast _).trans (hfirst.symm.run _))

end Extraction

open Extraction (start)

/-! ## A value in the place of literal text -/

/-- An output is read up to its `%>`; a second `=` belongs to the mark. -/
theorem tokensFrom_output {code : Text} (hcode : ¬['%', '>'] <:+: code) (line : Nat) (s : Text) :
    ∃ value line', tokensFrom line ("<%=" ++ code ++ "%>" ++ s) =
      ⟨.output, value, line⟩ :: tokensFrom line' s := by
  by_cases hhead : code.head? = some '='
  · obtain ⟨body, rfl⟩ := List.head?_eq_some_iff.1 hhead
    have hbody : ¬['%', '>'] <:+: body := fun hinfix => hcode (List.infix_cons hinfix)
    have htokens := tokensFrom_tag line (.double (body ++ '%' :: '>' :: s)) hbody rfl (by simp)
    exact ⟨_, _, by simpa [untilClose] using htokens⟩
  · have hmark : Marks .output ['='] (code ++ '%' :: '>' :: s) := .single fun hequals => by
      cases code with
      | nil => cases hequals
      | cons c code => exact hhead hequals
    have htokens := tokensFrom_tag line hmark hcode rfl (by simp)
    exact ⟨_, _, by simpa [untilClose] using htokens⟩

/-- What a template with an output in the place of literal text comes to. -/
theorem agrees_output {p code : Text} (hp : Complete p)
    (hplace : ((start.run (tokenize p)).context.inAttributeValue ||
      (start.run (tokenize p)).context.inRawText) = true)
    (hcode : ¬['%', '>'] <:+: code) (s : Text) :
    (start.run (tokenize (p ++ ("<%=" ++ code ++ "%>" ++ s)))).Agrees
      (((start.run (tokenize p)).emit placeholder).run (tokensFrom 1 s)) := by
  have hhead : ("<%=" ++ code ++ "%>" ++ s : Text).head? ≠ some '%' := by simp
  have hparts := Extraction.run_tokensFrom_append hp (fun _ => hhead) start 1
  obtain ⟨value, line, htokens⟩ := tokensFrom_output hcode 1 s
  have hstep : (start.run (tokensFrom 1 p)).step ⟨.output, value, 1⟩ =
      (start.run (tokensFrom 1 p)).emit placeholder := if_pos hplace
  rwa [htokens, Extraction.run_cons, hstep, Extraction.run_tokensFrom_line _ line 1] at hparts

/-- What a template with the placeholder as literal text comes to. -/
theorem agrees_placeholder {p : Text} (hp : Complete p) (s : Text) :
    (start.run (tokenize (p ++ (placeholder ++ s)))).Agrees
      (((start.run (tokenize p)).emit placeholder).run (tokensFrom 1 s)) := by
  have hliteral : Literal placeholder placeholder := literal_self (by decide +kernel)
  have hhead : (placeholder ++ s).head? ≠ some '%' := by
    have hfirst : placeholder.head? = some 'E' := by decide
    simp [List.head?_append, hfirst]
  have hparts := Extraction.run_tokensFrom_append hp (fun _ => hhead) start 1
  have hlast : placeholder.getLast? ≠ some '<' := by decide
  have hjoin : placeholder.getLast? = some '<' → s.head? ≠ some '%' := fun h => absurd h hlast
  have hrest := Extraction.run_tokensFrom_append (.literal hliteral.hasNoTag) hjoin
    (start.run (tokenize p)) 1
  have hwritten := (Extraction.run_tokensFrom_literal hliteral (start.run (tokenize p)) 1).run
    (tokensFrom 1 s)
  exact hparts.trans (hrest.trans hwritten)

/-- **A value in an attribute or script is exactly its placeholder.**  After a part of a template that
leaves no tag open, in an attribute value or in the text of a script or style element, a tag that prints a
value can be replaced by the placeholder, whatever its code is and whatever follows. -/
theorem toMarkup_output_eq_placeholder (p code s : Text) (hp : Complete p)
    (hplace : ((start.run (tokenize p)).context.inAttributeValue ||
      (start.run (tokenize p)).context.inRawText) = true)
    (hcode : ¬['%', '>'] <:+: code) :
    toMarkup (p ++ "<%=" ++ code ++ "%>" ++ s) = toMarkup (p ++ placeholder ++ s) := by
  have hagrees := (agrees_output hp hplace hcode s).trans (agrees_placeholder hp s).symm
  have hmarkup := congrArg Markup.tidy hagrees.closeAll.markup
  simpa only [toMarkup, markupPieces, List.append_assoc] using hmarkup

/-- A comment, and an attribute value that begins with a `<`. -/
def titleStart : Text :=
  "<%# x %><a title=\"<"

/-- A code with a second `=` in front, and a hyphen and a `%` at its end. -/
def oddCode : Text :=
  "=x -%"

/-- The value with a `<` before it and a `%` behind it. -/
theorem toMarkup_output_eq_placeholder_titleStart :
    Complete titleStart ∧ (start.run (tokenize titleStart)).context.inAttributeValue = true ∧
      ¬['%', '>'] <:+: oddCode ∧
      toMarkup (titleStart ++ "<%=" ++ oddCode ++ "%>" ++ "%\">b</a>") =
        toMarkup (titleStart ++ placeholder ++ "%\">b</a>") ∧
      toMarkup (titleStart ++ placeholder ++ "%\">b</a>") = "<a title=\"<ERB_OUTPUT%\">b</a>" := by
  have hcomplete : Complete titleStart := by
    have hparts : titleStart = [] ++ '<' :: '%' :: (['#'] ++ (" x ".toList ++ '%' :: '>' ::
        "<a title=\"<".toList)) := by
      decide +kernel
    have hbody : ¬['%', '>'] <:+: " x ".toList := by decide +kernel
    have hrest : ¬['<', '%'] <:+: "<a title=\"<".toList := by decide +kernel
    rw [hparts]
    exact .tag Literal.nil.hasNoTag (.hash _) hbody (.literal (literal_self hrest).hasNoTag)
  have hplace : (start.run (tokenize titleStart)).context.inAttributeValue = true := by
    decide +kernel
  have hcode : ¬['%', '>'] <:+: oddCode := by decide +kernel
  exact ⟨hcomplete, hplace, hcode,
    toMarkup_output_eq_placeholder titleStart oddCode "%\">b</a>" hcomplete (by rw [hplace]; rfl) hcode,
    by decide +kernel⟩

end Template

end TemplateAudit
