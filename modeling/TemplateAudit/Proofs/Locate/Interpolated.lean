import TemplateAudit.Proofs.Html.Element
import TemplateAudit.Proofs.Locate.Signs
import TemplateAudit.Proofs.Markup.Context
import TemplateAudit.Proofs.Markup.Spacing
import TemplateAudit.Proofs.Path
import TemplateAudit.Proofs.Template.Placeholder

/-!
# Ids with code in them

An id may be written with code between its literal parts.  The markup of the template has a placeholder for each
piece of code (`toMarkup_idTag`), the placeholders show where the literal parts end (`Text.splitOn_join`), and
what is written in the source follows the pattern that they make (`follows_written`).  So a line with the
start tag always shows the id, whatever the code is (`findLine?_interpolated`).
-/

namespace TemplateAudit

namespace Locate

open Helper (placeholder)
open Html (IsTagName idTag)
open Markup (Context)
open Template (Extraction)

/-! ## Values with code -/

/-- The value of an attribute as a template has it: literal text, with code that prints a value at any number
of places. -/
inductive Interpolated where
  /-- Literal text up to the end. -/
  | literal (text : Text)
  /-- Literal text, and then code in front of the rest. -/
  | printing (text code : Text) (rest : Interpolated)

/-- May a literal part of an id hold the character? -/
def isIdChar (c : Char) : Bool :=
  c.isAlphanum || c == '-' || c == '_' || c == '.' || c == ':' || c == '/' || c == '[' || c == ']'

namespace Interpolated

/-- The value as it stands in the template. -/
def written : Interpolated → Text
  | literal text => text
  | printing text code rest => text ++ ("<%=" ++ code ++ "%>" ++ rest.written)

/-- The literal parts, in order. -/
def literals : Interpolated → List Text
  | literal text => [text]
  | printing text _ rest => text :: rest.literals

/-- The pieces of code, in order. -/
def codes : Interpolated → List Text
  | literal _ => []
  | printing _ code rest => code :: rest.codes

/-- The value in the markup of the template. -/
def extracted (value : Interpolated) : Text :=
  Text.join placeholder value.literals

/-- The value of an id: something is written, its literal parts are made of letters, digits and some marks and
do not look like the placeholder, and each piece of code is closed on its line. -/
structure IsId (value : Interpolated) : Prop where
  ne_nil : value.written ≠ []
  literals : ∀ text ∈ value.literals, (∀ c ∈ text, isIdChar c = true) ∧ ¬placeholder <:+: text
  codes : ∀ code ∈ value.codes, '\n' ∉ code ∧ ¬['%', '>'] <:+: code

variable {text code : Text} {rest value : Interpolated} {c d : Char}

theorem literals_ne_nil (value : Interpolated) : value.literals ≠ [] := by
  cases value <;> exact List.cons_ne_nil _ _

@[simp]
theorem extracted_literal (text : Text) : (literal text).extracted = text := rfl

@[simp]
theorem extracted_printing (text code : Text) (rest : Interpolated) :
    (printing text code rest).extracted = text ++ (placeholder ++ rest.extracted) := by
  rw [extracted, literals, Text.join, List.append_assoc, extracted]
  exact literals_ne_nil rest

/-! ## Characters -/

theorem isIdChar_toNat (h : isIdChar c = true) : 45 ≤ c.toNat ∧ c.toNat ≤ 122 := by
  simp only [isIdChar, Bool.or_eq_true, beq_iff_eq] at h
  obtain ((((((h | rfl) | rfl) | rfl) | rfl) | rfl) | rfl) | rfl := h
  · have := Text.toNat_of_isAlphanum h
    omega
  all_goals decide

theorem isBlank_of_isIdChar (h : isIdChar c = true) : Text.isBlank c = false := by
  have := isIdChar_toNat h
  simp only [Text.isBlank, Bool.or_eq_false_iff, Bool.and_eq_false_iff, decide_eq_false_iff_not]
  omega

theorem not_mem_of_isIdChar {s : Text} (h : ∀ c ∈ s, isIdChar c = true) (hd : isIdChar d = false) : d ∉ s :=
  fun hmem => by
    rw [h d hmem] at hd
    cases hd

theorem placeholder_isIdChar : ∀ c ∈ placeholder, isIdChar c = true :=
  List.all_eq_true.1 (by decide +kernel)

/-- The markup of an id holds no other characters than the id and the placeholder. -/
theorem extracted_isIdChar (h : ∀ text ∈ value.literals, ∀ c ∈ text, isIdChar c = true) :
    ∀ c ∈ value.extracted, isIdChar c = true := by
  induction value with
  | literal text => exact h text (List.mem_singleton_self text)
  | printing text code rest ih =>
    obtain ⟨htext, hrest⟩ := List.forall_mem_cons.1 h
    rw [extracted_printing]
    exact List.forall_mem_append.2 ⟨htext, List.forall_mem_append.2 ⟨placeholder_isIdChar, ih hrest⟩⟩

namespace IsId

variable (h : value.IsId)
include h

theorem extracted_ne_nil : value.extracted ≠ [] := by
  cases value with
  | literal text =>
    rw [extracted_literal]
    exact h.ne_nil
  | printing text code rest =>
    have hplaceholder : placeholder ≠ [] := by decide
    simp [hplaceholder]

/-- An id is written on one line. -/
theorem newline_not_mem_written : '\n' ∉ value.written := by
  have hliterals : ∀ text ∈ value.literals, '\n' ∉ text := fun text htext =>
    not_mem_of_isIdChar (h.literals text htext).1 (by decide)
  have hcodes : ∀ code ∈ value.codes, '\n' ∉ code := fun code hcode => (h.codes code hcode).1
  clear h
  induction value with
  | literal text => exact hliterals text (List.mem_singleton_self text)
  | printing text code rest ih =>
    obtain ⟨htext, hrest⟩ := List.forall_mem_cons.1 hliterals
    obtain ⟨hcode, hcodes'⟩ := List.forall_mem_cons.1 hcodes
    simp [written, htext, hcode, ih hrest hcodes']

end IsId

/-! ## The markup -/

theorem not_infix_of_not_mem {s : Text} (h : '%' ∉ s) : ¬['<', '%'] <:+: s := fun hopens =>
  h (hopens.subset (by simp))

/-- Where a value lands in double quotes, each piece of code leaves a placeholder behind. -/
theorem agrees_written {name segment ending : Text} {work : Extraction}
    (hcontext : work.context.feed segment = .doubleQuoted name)
    (hsegment : '%' ∉ segment) (hending : '%' ∉ ending)
    (hliterals : ∀ text ∈ value.literals, ∀ c ∈ text, isIdChar c = true)
    (hcodes : ∀ code ∈ value.codes, ¬['%', '>'] <:+: code) (line : Nat) :
    (work.run (Template.tokensFrom line (segment ++ (value.written ++ ending)))).Agrees
      (work.emit (segment ++ (value.extracted ++ ending))) := by
  induction value generalizing work segment line with
  | literal text =>
    have htext : '%' ∉ text :=
      not_mem_of_isIdChar (hliterals text (List.mem_singleton_self text)) (by decide)
    refine Extraction.run_tokensFrom_literal (Template.literal_self (not_infix_of_not_mem ?_)) work line
    simp [written, hsegment, htext, hending]
  | printing text code rest ih =>
    obtain ⟨htext, hrest⟩ := List.forall_mem_cons.1 hliterals
    obtain ⟨hcode, hcodes'⟩ := List.forall_mem_cons.1 hcodes
    have hquoted : ∀ {s : Text}, (∀ c ∈ s, isIdChar c = true) →
        (Context.doubleQuoted name).feed s = .doubleQuoted name := fun h =>
      Context.feed_doubleQuoted (not_mem_of_isIdChar h (by decide))
    have hbefore : (work.emit (segment ++ text)).context = .doubleQuoted name := by
      rw [Extraction.emit, Context.feed_append, hcontext, hquoted htext]
    -- the literal text in front, and then the code
    have hliteral : Template.Literal (segment ++ text) (segment ++ text) :=
      Template.literal_self (not_infix_of_not_mem (by
        simp [hsegment, not_mem_of_isIdChar htext (d := '%') (by decide)]))
    obtain ⟨token, line', htokens⟩ := Template.tokensFrom_output hcode 1 (rest.written ++ ending)
    have hfront := Extraction.run_tokensFrom_text hliteral
      (rfl : (Template.literal ("<%=" ++ code ++ "%>" ++ (rest.written ++ ending))).1 = []) (by simp) work line 1
    have hstep : (work.emit (segment ++ text)).step ⟨.output, token, 1⟩ =
        (work.emit (segment ++ text)).emit placeholder := if_pos (by rw [hbefore]; rfl)
    rw [htokens, Extraction.run_cons, hstep] at hfront
    -- the rest of the value behind the placeholder
    have hafter : ((work.emit (segment ++ text)).emit placeholder).context.feed [] = .doubleQuoted name := by
      rw [Extraction.emit, hbefore, hquoted placeholder_isIdChar]
      rfl
    have hbehind := ih hafter (List.not_mem_nil : '%' ∉ ([] : Text)) hrest hcodes' line'
    have hjoined := ((Extraction.agrees_emit_append work (segment ++ text) placeholder).emit
      (rest.extracted ++ ending)).trans (Extraction.agrees_emit_append work _ _)
    simp only [written, extracted_printing, List.append_assoc, List.nil_append] at hfront hbehind hjoined ⊢
    exact hfront.trans (hbehind.trans hjoined)

end Interpolated

/-- A start tag leads into the value of its id. -/
theorem exists_feed_idTag {name : Text} (hname : IsTagName name) :
    ∃ tag, Context.data.feed ('<' :: (name ++ " id=\"")) = .doubleQuoted tag := by
  obtain ⟨c, more, rfl, hc⟩ := hname.exists_cons
  have hletter : Text.isLetter c = true := by
    have := Text.toNat_of_isAlpha hc
    rw [Text.isLetter, if_pos (by omega), hc]
  have hstep : Context.lt.step c = .tag [c] true := by
    rw [Context.step, hletter]
    rfl
  have hmore : Markup.IsAttributeName (more ++ " id") := by
    refine List.forall_mem_append.2 ⟨fun d hd => ?_, by simp⟩
    have hchar := (hname.all d (List.mem_cons_of_mem c hd)).1
    exact ⟨Html.ne_of_isEndNameChar hchar (by decide), Html.ne_of_isEndNameChar hchar (by decide)⟩
  obtain ⟨tag, naming, hfeed⟩ := Context.exists_feed_tag hmore [c] true
  have hlt : Context.data.step '<' = .lt := rfl
  have hsplit : (more ++ " id=\"" : Text) = (more ++ " id") ++ "=\"" := by simp
  refine ⟨tag, ?_⟩
  rw [List.cons_append, Context.feed_cons, hlt, Context.feed_cons, hstep, hsplit, Context.feed_append, hfeed]
  cases naming <;> rfl

open Interpolated in
/-- **The markup of a start tag whose id has code in it has a placeholder for each piece of code.** -/
theorem toMarkup_idTag {name : Text} {value : Interpolated} (hname : IsTagName name) (hvalue : value.IsId) :
    Template.toMarkup (idTag name value.written) = idTag name value.extracted := by
  have hliterals : ∀ text ∈ value.literals, ∀ c ∈ text, isIdChar c = true := fun text htext =>
    (hvalue.literals text htext).1
  obtain ⟨tag, htag⟩ := exists_feed_idTag hname
  have hstart : Extraction.start.context.feed ('<' :: (name ++ " id=\"")) = .doubleQuoted tag := htag
  have hagrees := agrees_written hstart (by simp [hname.not_mem (d := '%') (by decide)])
    (by decide : '%' ∉ ("\">" : Text)) hliterals
    (fun code hcode => (hvalue.codes code hcode).2) 1
  have hmarkup : (Template.markupPieces (idTag name value.written)).flatten = idTag name value.extracted := by
    have hwritten := hagrees.closeAll.markup
    simp only [List.cons_append, List.append_assoc] at hwritten
    exact hwritten.trans (by simp [Extraction.emit, Extraction.closeAll, Extraction.start, idTag])
  rw [Template.toMarkup, hmarkup]
  refine Markup.tidy_eq_self (Html.isSpaced_idTag hname fun c hc => isBlank_of_isIdChar ?_) ?_
  · exact extracted_isIdChar hliterals c hc
  · exact Text.forall_mem_of_eq_some (Html.getLast?_idTag name value.extracted) rfl

/-! ## The pattern -/

theorem Follows.append {pieces more : List Piece} {s t : Text} (hs : Follows pieces s) (ht : Follows more t) :
    Follows (pieces ++ more) (s ++ t) := by
  induction hs with
  | nil => exact ht
  | literal h _ ih => exact .literal h ih
  | runtime h _ ih =>
    rw [List.append_assoc]
    exact .runtime h ih

/-- A text follows the pattern of its characters. -/
theorem follows_self (s : Text) : Follows (s.map .literal) s := by
  induction s with
  | nil => exact .nil
  | cons c s ih => exact .literal (Text.sameButCase_self c) ih

/-- What is written follows the pattern of its literal parts. -/
theorem follows_patternOfParts (value : Interpolated) :
    Follows (patternOfParts value.literals) value.written := by
  induction value with
  | literal text => exact follows_self text
  | printing text code rest ih =>
    obtain ⟨part, parts, hparts⟩ := List.exists_cons_of_ne_nil rest.literals_ne_nil
    have hpattern : patternOfParts (Interpolated.printing text code rest).literals =
        text.map .literal ++ .runtime :: patternOfParts rest.literals := by
      rw [Interpolated.literals, hparts, patternOfParts]
      exact List.cons_ne_nil part parts
    have hcode : RuntimeCode ("<%=" ++ code ++ "%>") := by
      simpa using RuntimeCode.tag ('=' :: code)
    rw [hpattern, Interpolated.written]
    exact (follows_self text).append (.runtime hcode ih)

/-- **What is written follows the pattern of its markup**: the placeholders in the markup show where the literal
parts end. -/
theorem follows_written {value : Interpolated} (h : ∀ text ∈ value.literals, ¬placeholder <:+: text) :
    Follows (pattern value.extracted) value.written := by
  obtain ⟨part, parts, hparts⟩ := List.exists_cons_of_ne_nil value.literals_ne_nil
  have hplaceholder : placeholder = 'E' :: "RB_OUTPUT" := by decide
  have hsplit : literalParts value.extracted = value.literals := by
    rw [hparts, hplaceholder] at h
    rw [literalParts, Interpolated.extracted, hparts, hplaceholder]
    exact Text.splitOn_join (by decide) h
  rw [pattern, hsplit]
  exact follows_patternOfParts value

/-! ## The line -/

/-- The first line begins with what has no newline in it. -/
theorem exists_lines_append {part : Text} (hpart : '\n' ∉ part) (after : Text) :
    ∃ rest lines, Text.lines (part ++ after) = (part ++ rest) :: lines := by
  induction part with
  | nil => exact List.exists_cons_of_ne_nil (Text.splitAtChar_ne_nil '\n' after)
  | cons c part ih =>
    obtain ⟨hc, hrest⟩ := List.ne_and_not_mem_of_not_mem_cons hpart
    obtain ⟨rest, lines, hlines⟩ := ih hrest
    obtain ⟨piece, pieces, hpieces, hcons⟩ := Text.splitAtChar_cons_of_ne (Ne.symm hc) (part ++ after)
    obtain ⟨rfl, rfl⟩ := List.cons.inj (hpieces.symm.trans hlines)
    exact ⟨rest, pieces, hcons⟩

/-- What has no newline in it stands on the line behind the newlines in front of it. -/
theorem exists_getElem?_lines {part : Text} (hpart : '\n' ∉ part) (before after : Text) :
    ∃ front rest, (Text.lines (before ++ (part ++ after)))[Text.newlines before]? =
      some (front ++ (part ++ rest)) := by
  induction before with
  | nil =>
    obtain ⟨rest, lines, hlines⟩ := exists_lines_append hpart after
    exact ⟨[], rest, by rw [List.nil_append, hlines]; rfl⟩
  | cons c before ih =>
    obtain ⟨front, rest, hline⟩ := ih
    by_cases hc : c = '\n'
    · subst hc
      refine ⟨front, rest, ?_⟩
      rw [List.cons_append, Text.lines, Text.splitAtChar, if_pos rfl, Text.newlines, List.count_cons_self,
        List.getElem?_cons_succ]
      exact hline
    · obtain ⟨piece, pieces, hpieces, hcons⟩ := Text.splitAtChar_cons_of_ne hc (before ++ (part ++ after))
      have hcount : Text.newlines (c :: before) = Text.newlines before := List.count_cons_of_ne hc
      rw [Text.lines, hpieces] at hline
      rw [List.cons_append, Text.lines, hcons, hcount]
      -- the character stands on the first line
      cases hnewlines : Text.newlines before with
      | zero =>
        rw [hnewlines, List.getElem?_cons_zero, Option.some_inj] at hline
        exact ⟨c :: front, rest, by rw [List.getElem?_cons_zero, hline]; rfl⟩
      | succ n =>
        rw [hnewlines, List.getElem?_cons_succ] at hline
        exact ⟨front, rest, by rw [List.getElem?_cons_succ, hline]⟩

theorem exists_isLine_append {part : Text} (hpart : '\n' ∉ part) (before after : Text) :
    ∃ front rest, IsLine (before ++ (part ++ after)) (Text.newlines before + 1) (front ++ (part ++ rest)) := by
  obtain ⟨front, rest, hline⟩ := exists_getElem?_lines hpart before after
  exact ⟨front, rest, Nat.le_add_left 1 _, by rwa [Nat.add_sub_cancel]⟩

/-- A line that holds a start tag shows the tag. -/
theorem tagOpens_idTag (name value front rest : Text) : TagOpens name (front ++ (idTag name value ++ rest)) :=
  ⟨front, name, " id=\"" ++ (value ++ ("\">" ++ rest)), by simp [idTag], .refl _,
    Text.forall_mem_of_eq_some rfl (.inr (.inr (by decide)))⟩

/-- A line that holds a start tag with an id shows every id of whose pattern the written one is. -/
theorem attributeStands_idTag {value written : Text} (h : Follows (pattern value) written)
    (name front rest : Text) : AttributeStands "id" value (front ++ (idTag name written ++ rest)) := by
  refine ⟨front ++ '<' :: (name ++ [' ']), "id", [], ['"'], written, "\">" ++ rest, by simp [idTag], ?_, .refl _,
    List.forall_mem_nil _, ⟨[], ['"'], rfl, List.forall_mem_nil _, .inr (.inl rfl)⟩, h, ?_⟩
  · have hlast : (front ++ '<' :: (name ++ [' '])).getLast? = some ' ' := by
      simp [List.getLast?_append, List.getLast?_cons]
    exact Text.forall_mem_of_eq_some hlast (by decide)
  · exact fun c hc => .inl (Option.some.inj hc).symm

theorem shows_id {value : Interpolated} {element : ElementInfo} (hvalue : value.IsId)
    (hid : element.id = some value.extracted) (front rest : Text) :
    Sign.id.Shows element (front ++ (idTag element.tag value.written ++ rest)) :=
  ⟨tagOpens_idTag _ _ _ _, value.extracted, hid, hvalue.extracted_ne_nil,
    attributeStands_idTag (follows_written fun text htext => (hvalue.literals text htext).2) _ _ _⟩

open Interpolated in
/-- **An id with code in it is found again.**  The markup of the start tag is read as an element whose id has the
placeholder for each piece of code.  Wherever the start tag stands in a source, its line shows this id; so the
element is given a line that shows it, and the first occurrence none behind that of the tag. -/
theorem findLine?_interpolated {value : Interpolated} {element : ElementInfo}
    (hname : IsTagName element.tag) (hpage : element.tag ≠ "page".toList) (hvalue : value.IsId)
    (hid : element.id = some (Text.join placeholder value.literals)) :
    Html.parse (Template.toMarkup (idTag element.tag value.written)) =
        .ok [.element element.tag [("id".toList, Text.join placeholder value.literals)] []] ∧
      ∀ before after : Text,
        let source := before ++ (idTag element.tag value.written ++ after)
        let number := Text.newlines before + 1
        (∃ line, IsLine source number line ∧ idTag element.tag value.written <:+: line ∧
          Sign.id.Shows element line) ∧
        (∀ n : Int, ∃ k line, findLine? source element n = some k ∧ IsLine source k line ∧
          Sign.id.Shows element line) ∧
        ∃ k, findLine? source element 0 = some k ∧ k ≤ number := by
  have hliterals : ∀ text ∈ value.literals, ∀ c ∈ text, isIdChar c = true := fun text htext =>
    (hvalue.literals text htext).1
  have hextracted : ∀ {d : Char}, isIdChar d = false → d ∉ value.extracted :=
    not_mem_of_isIdChar (extracted_isIdChar hliterals)
  refine ⟨?_, fun before after => ?_⟩
  · rw [toMarkup_idTag hname hvalue]
    exact Html.parse_idTag hname (hextracted (by decide)) (hextracted (by decide)) (hextracted (by decide))
  · have honeLine : '\n' ∉ idTag element.tag value.written := by
      simp [idTag, hname.not_mem (d := '\n') (by decide), hvalue.newline_not_mem_written]
    obtain ⟨front, rest, hline⟩ := exists_isLine_append honeLine before after
    have hshows := shows_id hvalue hid front rest
    have htag : element.tag ≠ [] := by
      obtain ⟨c, more, hcons, -⟩ := hname.exists_cons
      rw [hcons]
      exact List.cons_ne_nil c more
    have hbest : Sign.id.IsBest element (Text.lines (before ++ (idTag element.tag value.written ++ after))) :=
      ⟨⟨_, hline.mem, hshows⟩, [], _, rfl, List.forall_mem_nil _⟩
    refine ⟨⟨_, hline, ⟨front, rest, by rw [List.append_assoc]⟩, hshows⟩,
      exists_findLine?_of_isBest htag hpage hbest, ?_⟩
    exact findLine?_zero_le (mem_candidateLines.2 ⟨htag, hpage, .id, hbest, _, hline, hshows⟩)

/-- An id with two pieces of code, which hold quotes, brackets, an equals sign and a per cent sign. -/
def rowId : Interpolated :=
  .printing "row_" " h['<b>\"'] %" (.printing "-" "=raw(y)" (.literal "[0]"))

/-- A list item with this id. -/
def rowItem : ElementInfo :=
  ⟨"li", some "row_ERB_OUTPUT-ERB_OUTPUT[0]", none, none, none, none, [], none, []⟩

/-- The list item on the second line of a list. -/
theorem findLine?_interpolated_rowItem :
    IsTagName rowItem.tag ∧ rowItem.tag ≠ "page".toList ∧ rowId.IsId ∧
      rowItem.id = some (Text.join placeholder rowId.literals) ∧
      rowId.written = "row_<%= h['<b>\"'] %%>-<%==raw(y)%>[0]".toList ∧
      ∃ k, findLine? ("<ul>\n" ++ (idTag "li" rowId.written ++ "</li>\n</ul>")) rowItem 0 = some k ∧ k ≤ 2 := by
  have hname : IsTagName rowItem.tag := by decide
  have hpage : rowItem.tag ≠ "page".toList := by decide
  have hid : rowItem.id = some (Text.join placeholder rowId.literals) := by decide
  have hvalue : rowId.IsId := by
    have hliteral : ∀ {text : Text}, text.all isIdChar = true → ¬placeholder <:+: text →
        (∀ c ∈ text, isIdChar c = true) ∧ ¬placeholder <:+: text := fun hall hnot =>
      ⟨List.all_eq_true.1 hall, hnot⟩
    refine ⟨by decide, ?_, ?_⟩
    · simp only [rowId, Interpolated.literals, List.forall_mem_cons]
      exact ⟨hliteral (by decide +kernel) (by decide +kernel), hliteral (by decide +kernel) (by decide +kernel),
        hliteral (by decide +kernel) (by decide +kernel), List.forall_mem_nil _⟩
    · simp only [rowId, Interpolated.codes, List.forall_mem_cons]
      exact ⟨⟨by decide +kernel, by decide +kernel⟩, ⟨by decide +kernel, by decide +kernel⟩,
        List.forall_mem_nil _⟩
  obtain ⟨-, hfound⟩ := findLine?_interpolated hname hpage hvalue hid
  exact ⟨hname, hpage, hvalue, hid, by decide, (hfound "<ul>\n" "</li>\n</ul>").2.2⟩

end Locate

end TemplateAudit
