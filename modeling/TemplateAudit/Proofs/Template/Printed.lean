import Mathlib.Data.List.Chain
import TemplateAudit.Proofs.Template.Segments
import TemplateAudit.Proofs.Text.Trim
import TemplateAudit.Template.Printer

/-!
# Reading what was written

A template that was written from items is read as these items (`tokenize_print`).  Whatever stands
next to each other where two items meet, no tag opens or closes there that was not written: the
written items are segments of their own tokens (`cut_print`), and a template has only one list of
tokens with segments.
-/

namespace TemplateAudit

namespace Template

namespace Item

/-- No two literal texts stand side by side. -/
def Apart (items : List Item) : Prop :=
  items.IsChain fun item next => item.kind = .text → next.kind ≠ .text

instance (items : List Item) : Decidable (Apart items) :=
  inferInstanceAs (Decidable (items.IsChain fun item next => item.kind = .text → next.kind ≠ .text))

/-! ## Written text -/

/-- A text and its written form begin alike. -/
theorem head?_replace (s : Text) :
    (Text.replace ['<', '%'] ['<', '%', '%'] s).head? = s.head? := by
  by_cases h : ['<', '%'] <+: s
  · obtain ⟨rest, rfl⟩ := h
    rw [Text.replace_append (by simp)]
    rfl
  · cases s with
    | nil => rfl
    | cons c s => rw [Text.replace_cons h]; rfl

/-- Written text is literal and says what was written. -/
theorem literal_replace (s : Text) : Literal (Text.replace ['<', '%'] ['<', '%', '%'] s) s := by
  match s with
  | [] => exact .nil
  | c :: s =>
    by_cases h : ['<', '%'] <+: c :: s
    · obtain ⟨rest, heq⟩ := h
      rw [← heq, Text.replace_append (by simp)]
      have hlength : rest.length < (c :: s).length := by
        simp only [← heq, List.cons_append, List.nil_append, List.length_cons]
        omega
      exact .escape (literal_replace rest)
    · rw [Text.replace_cons h]
      refine .char (fun hopens => h ?_) (literal_replace s)
      -- the character after the first one is the same
      obtain ⟨rfl, htail⟩ := List.cons_prefix_cons.1 hopens
      refine List.cons_prefix_cons.2 ⟨rfl, ?_⟩
      obtain ⟨t, ht⟩ := htail
      have hhead : s.head? = some '%' := by rw [← head?_replace, ← ht]; rfl
      obtain ⟨rest, rfl⟩ := List.head?_eq_some_iff.1 hhead
      exact List.prefix_append ['%'] rest
termination_by s.length
decreasing_by
  · exact hlength
  · exact Nat.lt_succ_self _

/-! ## Written code -/

theorem getLast?_spaced (s : Text) : (' ' :: s ++ [' ']).getLast? = some ' ' :=
  List.getLast?_concat

/-- Spaces around code put no end of a tag into it. -/
theorem not_infix_spaced {s : Text} (h : ¬['%', '>'] <:+: s) : ¬['%', '>'] <:+: ' ' :: s ++ [' '] := by
  rintro ⟨before, after, heq⟩
  rcases List.eq_nil_or_concat after with rfl | ⟨after, c, rfl⟩
  · have hlast := getLast?_spaced s
    rw [← heq] at hlast
    simp at hlast
  · cases before with
    | nil => simp at heq
    | cons d before =>
      refine h ⟨before, after, ?_⟩
      simp only [List.concat_eq_append, List.cons_append, ← List.append_assoc] at heq
      exact (List.append_inj' (List.cons.inj heq).2 rfl).1

theorem codeOf_spaced {s : Text} (h : Text.IsTrimmed s) :
    Text.trim (Text.dropFinal '-' (' ' :: s ++ [' '])) = s := by
  have hspace : Text.isBlank ' ' = true := by decide
  rw [Text.dropFinal, getLast?_spaced, if_neg (by decide), Text.trim_concat hspace,
    Text.trim_cons hspace, h.trim_eq]

/-! ## Written templates -/

/-- The token that an item is read as when it starts on a line. -/
def token (item : Item) (line : Nat) : Token :=
  ⟨item.kind, item.value, line⟩

/-- A tag is a segment of its own. -/
theorem cut_tag {kind : Kind} {value : Text} {line : Nat} {tokens : List Token}
    {segments : List Text} (hkind : kind ≠ .text) (hvalue : ¬['%', '>'] <:+: value)
    (htrimmed : Text.IsTrimmed value)
    (rest : Cut (line + Text.newlines (print ⟨kind, value⟩)) tokens segments) :
    Cut line (⟨kind, value, line⟩ :: tokens) (print ⟨kind, value⟩ :: segments) := by
  have hmark : Marks kind (mark kind) (' ' :: value ++ [' '] ++ ['%', '>']) := by
    cases kind with
    | text => exact absurd rfl hkind
    | output => exact .single (by simp)
    | statement => exact .none (by simp)
    | comment => exact .hash _
  have hprint : print ⟨kind, value⟩ =
      '<' :: '%' :: mark kind ++ (' ' :: value ++ [' ']) ++ ['%', '>'] := by
    cases kind with
    | text => exact absurd rfl hkind
    | output | statement | comment => simp [print]
  rw [hprint] at rest ⊢
  have hcut := Cut.tag hmark (not_infix_spaced hvalue) rest
  rwa [codeOf_spaced htrimmed] at hcut

/-- Written items are the segments of their tokens. -/
theorem cut_print (items : List Item) (hwritable : ∀ item ∈ items, item.IsWritable)
    (hapart : Apart items) (line : Nat) :
    Cut line (items.mapIdx fun i item =>
        item.token (line + Text.newlines ((items.take i).flatMap print))) (items.map print) := by
  induction items generalizing line with
  | nil => exact .nil line
  | cons item items ih =>
    obtain ⟨hitem, hitems⟩ := List.forall_mem_cons.1 hwritable
    obtain ⟨hnext, hapart⟩ := List.isChain_cons.1 hapart
    have htail := ih hitems hapart (line + Text.newlines item.print)
    have htokens : ((item :: items).mapIdx fun i next =>
        next.token (line + Text.newlines (((item :: items).take i).flatMap print))) =
        item.token line :: items.mapIdx fun i next =>
          next.token (line + Text.newlines item.print +
            Text.newlines ((items.take i).flatMap print)) := by
      rw [List.mapIdx_cons]
      simp only [List.take_succ_cons, List.flatMap_cons, Text.newlines_append, Nat.add_assoc]
      rfl
    rw [htokens, List.map_cons]
    obtain ⟨kind, value⟩ := item
    by_cases hkind : kind = .text
    · subst hkind
      refine .of_literal (literal_replace value) hitem (fun token htoken => ?_) htail
      cases items with
      | nil => cases htoken
      | cons next items =>
        rw [List.mapIdx_cons] at htoken
        obtain rfl := Option.some.inj htoken
        exact hnext next rfl rfl
    · have hcode : ¬['%', '>'] <:+: value ∧ Text.IsTrimmed value := by
        cases kind with
        | text => exact absurd rfl hkind
        | output | statement | comment => exact hitem
      exact cut_tag hkind hcode.1 hcode.2 htail

end Item

/-- **Reading undoes writing.**  A template written from items is read as these items, in order and with
the same kinds and values, and each starts on the line that what was written before leads to. -/
theorem tokenize_print (items : List Item) (hwritable : ∀ item ∈ items, item.IsWritable)
    (hapart : Item.Apart items) :
    tokenize (items.flatMap Item.print) = items.mapIdx fun i item =>
      ⟨item.kind, item.value, 1 + Text.newlines ((items.take i).flatMap Item.print)⟩ := by
  rw [List.flatMap_def]
  exact (Item.cut_print items hwritable hapart 1).tokensFrom_eq

/-- Items that look like marks and ends of tags to each other: text that ends in `<` or begins with
`%>`, code that ends in a hyphen or a `%` or begins with `=` or `#`, and no code at all. -/
def confusable : List Item :=
  [⟨.text, ['<']⟩, ⟨.output, ['=', 'a', '%']⟩, ⟨.text, ['%', '>', '<', '%', '%', '\n', '<', '%']⟩,
    ⟨.statement, ['#', '-']⟩, ⟨.comment, []⟩, ⟨.statement, ['-', '\n', '<', '%', '-']⟩]

theorem tokenize_print_confusable :
    (∀ item ∈ confusable, item.IsWritable) ∧ Item.Apart confusable ∧
      tokenize (confusable.flatMap Item.print) =
      [⟨.text, ['<'], 1⟩, ⟨.output, ['=', 'a', '%'], 1⟩,
        ⟨.text, ['%', '>', '<', '%', '%', '\n', '<', '%'], 1⟩, ⟨.statement, ['#', '-'], 2⟩,
        ⟨.comment, [], 2⟩, ⟨.statement, ['-', '\n', '<', '%', '-'], 2⟩] := by
  have hwritable : ∀ item ∈ confusable, item.IsWritable := by decide +kernel
  have hapart : Item.Apart confusable := by decide +kernel
  refine ⟨hwritable, hapart, ?_⟩
  rw [tokenize_print confusable hwritable hapart]
  decide +kernel

end Template

end TemplateAudit
