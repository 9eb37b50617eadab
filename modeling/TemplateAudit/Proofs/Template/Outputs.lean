import TemplateAudit.Proofs.Helper.Markup
import TemplateAudit.Proofs.Html.Escaped
import TemplateAudit.Proofs.Template.Printed
import TemplateAudit.Template.Markup

/-!
# Templates of printed values

A template that does nothing but print values has the markup of these values, one after the other
(`markupPieces_outputs`).  When each value is written as an element, the document of the template is these elements
(`parse_outputs`).
-/

namespace TemplateAudit

namespace Template

open Helper (placeholder)
open Html (Node ReadsAs)
open Markup (CleansTo Context KeptAttribute withoutMarks)

variable {code piece : Text} {codes pieces : List Text}

/-! ## Writing -/

/-- A template that prints the values of some code. -/
def outputs (codes : List Text) : Text :=
  codes.flatMap fun code => Item.print ⟨.output, code⟩

/-- In body text, code is written as a piece of markup, behind which body text goes on. -/
structure WrittenInBody (code piece : Text) : Prop where
  output : ∀ work : Extraction, work.context = .data → work.output code = work.emit piece
  feed : Context.data.feed piece = .data

/-- A call of a known helper is written as its markup. -/
theorem writtenInBody_of_render? {rendered : Helper.Rendered} (h : Helper.render? code = some (rendered, false))
    (hfeed : Context.data.feed rendered.markup = .data) : WrittenInBody code rendered.markup := by
  refine ⟨fun work hwork => ?_, hfeed⟩
  rw [Extraction.output, hwork, h]
  rfl

/-- Any other value is written as the placeholder. -/
theorem writtenInBody_placeholder (h : Helper.render? code = none) (hopens : Helper.opensBlock code = false) :
    WrittenInBody code placeholder := by
  refine ⟨fun work hwork => ?_, by decide⟩
  rw [Extraction.output, hwork, h, hopens]
  rfl

/-- The pieces of printed values are written in their order. -/
theorem run_outputs (h : List.Forall₂ WrittenInBody codes pieces) {tokens : List Token}
    (htokens : tokens.map (fun token => (token.kind, token.value)) = codes.map (Kind.output, ·))
    {work : Extraction} (hcontext : work.context = .data) :
    work.run tokens = ⟨work.pieces ++ pieces, .data, work.blocks⟩ := by
  induction h generalizing tokens work with
  | nil =>
    obtain rfl := List.map_eq_nil_iff.1 htokens
    rw [List.append_nil, ← hcontext]
    rfl
  | @cons code piece codes pieces hcode _ ih =>
    obtain ⟨token, tokens, rfl, htoken, hrest⟩ := List.map_eq_cons_iff.1 htokens
    obtain ⟨hkind, hvalue⟩ := Prod.mk.inj htoken
    have hstep : work.step token = work.emit piece := by
      rw [Extraction.step, hkind, hvalue]
      exact hcode.output work hcontext
    have hdata : (work.emit piece).context = .data := by
      rw [Extraction.emit, hcontext]
      exact hcode.feed
    rw [Extraction.run, List.foldl_cons, hstep]
    have hrun := ih hrest hdata
    rw [Extraction.run] at hrun
    rw [hrun, Extraction.emit, List.append_assoc]
    rfl

/-- A template that prints values is written value by value. -/
theorem markupPieces_outputs (hwritable : ∀ code ∈ codes, Item.IsWritable ⟨.output, code⟩)
    (h : List.Forall₂ WrittenInBody codes pieces) : markupPieces (outputs codes) = pieces := by
  have hitems : ∀ item ∈ codes.map (Item.mk .output), item.IsWritable := fun item hitem => by
    obtain ⟨code, hcode, rfl⟩ := List.mem_map.1 hitem
    exact hwritable code hcode
  have hapart : Item.Apart (codes.map (Item.mk .output)) :=
    (List.isChain_map _).2 (List.pairwise_of_forall fun _ _ => nofun).isChain
  have htokens := (Item.cut_print _ hitems hapart 1).tokensFrom_eq
  have hsource : ((codes.map (Item.mk .output)).map Item.print).flatten = outputs codes := by
    rw [List.map_map, outputs, List.flatMap_def]
    rfl
  rw [hsource] at htokens
  have hkinds : (tokenize (outputs codes)).map (fun token => (token.kind, token.value)) =
      codes.map (Kind.output, ·) := by
    rw [tokenize, htokens]
    refine List.ext_getElem (by simp) fun i hi hi' => ?_
    simp [Item.token]
  rw [markupPieces, run_outputs h hkinds rfl]
  rfl

/-! ## Reading -/

/-- Code is written as a piece of markup that is read as a node. -/
def PrintedAs (code : Text) (node : Node) : Prop :=
  ∃ piece cleaned, WrittenInBody code piece ∧ CleansTo piece cleaned ∧ ReadsAs cleaned node

/-- Names of attributes that are read as they are written, each of its own. -/
structure AreReadable (keys : List Text) : Prop where
  names : ∀ key ∈ keys, Html.IsTagName key
  distinct : keys.Nodup

section Elements

variable {tag : Text} {attrs : List (Text × Text)} (htag : Markup.IsElementName tag)
  (hraw : tag ∉ Html.rawElements) (hkeys : AreReadable (attrs.map Prod.fst))
include htag hraw hkeys

/-- An element that is written by a start tag is printed with attributes of the same names. -/
theorem exists_printedAs_void (hvoid : tag ∈ Html.voidElements)
    (hrender : Helper.render? code = some (Helper.void tag attrs, false)) :
    ∃ attrs', List.Forall₂ KeptAttribute attrs attrs' ∧ PrintedAs code (.element tag attrs' []) := by
  have htag' := Html.isTagName_of_isElementName htag
  have hattrs := List.forall_mem_map.1 hkeys.names
  have hfeed : Context.data.feed (Helper.void tag attrs).markup = .data :=
    Helper.feed_void (Helper.isTagOf_self htag) hraw fun attr hattr => (hattrs attr hattr).isAttributeName
  obtain ⟨attrs', hkept, hcleans⟩ :=
    Markup.exists_startTag_cleansTo htag'.isSolid fun attr hattr => (hattrs attr hattr).isSolid
  rw [← Markup.map_fst_of_keptAttribute hkept] at hkeys
  exact ⟨attrs', hkept, _, _, writtenInBody_of_render? hrender hfeed, hcleans,
    Html.readsAs_void htag' hraw (List.forall_mem_map.1 hkeys.names) hkeys.distinct hvoid⟩

/-- An element with escaped text is printed with attributes of the same names, and texts in it. -/
theorem exists_printedAs_whole (hvoid : tag ∉ Html.voidElements) {body : Text}
    (hrender : Helper.render? code = some (Helper.whole tag attrs (Markup.escapeValue body), false)) :
    ∃ attrs' children, List.Forall₂ KeptAttribute attrs attrs' ∧ (∀ node ∈ children, Node.IsText node) ∧
      PrintedAs code (.element tag attrs' children) := by
  have htag' := Html.isTagName_of_isElementName htag
  have hattrs := List.forall_mem_map.1 hkeys.names
  have hfeed : Context.data.feed (Helper.whole tag attrs (Markup.escapeValue body)).markup = .data :=
    Helper.feed_whole (Helper.isTagOf_self htag) (fun attr hattr => (hattrs attr hattr).isAttributeName)
      (Markup.not_mem_escapeValue body).1
  obtain ⟨attrs', body', hkept, hcleans⟩ :=
    Markup.exists_element_cleansTo htag'.isSolid (fun attr hattr => (hattrs attr hattr).isSolid) body
  rw [← Markup.map_fst_of_keptAttribute hkept] at hkeys
  obtain ⟨children, hchildren, hreads⟩ :=
    Html.exists_readsAs_element htag' hraw (List.forall_mem_map.1 hkeys.names) hkeys.distinct hvoid body'
  exact ⟨attrs', children, hkept, hchildren, _, _, writtenInBody_of_render? hrender hfeed, hcleans, hreads⟩

end Elements

/-- Markup is cleaned up before it is read, and byte order marks are taken out of it. -/
theorem parse_toMarkup (source : Text) :
    Html.parse (toMarkup source) = Html.ofMarkup (withoutMarks (Markup.tidy (markupPieces source).flatten)) := rfl

/-- **The document of a template that prints elements is these elements.** -/
theorem parse_outputs {nodes : List Node} (hwritable : ∀ code ∈ codes, Item.IsWritable ⟨.output, code⟩)
    (h : List.Forall₂ PrintedAs codes nodes) : Html.parse (toMarkup (outputs codes)) = .ok nodes := by
  obtain ⟨pieces, cleaned, hwritten, hcleans, hreads⟩ : ∃ pieces cleaned, List.Forall₂ WrittenInBody codes pieces ∧
      CleansTo pieces.flatten cleaned.flatten ∧ List.Forall₂ ReadsAs cleaned nodes := by
    clear hwritable
    induction h with
    | nil => exact ⟨[], [], .nil, fun _ => rfl, .nil⟩
    | cons hcode _ ih =>
      obtain ⟨piece, cleaned, hwritten, hcleans, hreads⟩ := hcode
      obtain ⟨pieces, parts, hpieces, hparts, hnodes⟩ := ih
      exact ⟨piece :: pieces, cleaned :: parts, .cons hwritten hpieces, hcleans.append hparts, .cons hreads hnodes⟩
  rw [parse_toMarkup, markupPieces_outputs hwritable hwritten, hcleans.eq]
  exact Html.ofMarkup_flatten hreads

/-- A template in which nothing that is printed is known has no elements. -/
theorem exists_parse_outputs (hwritable : ∀ code ∈ codes, Item.IsWritable ⟨.output, code⟩)
    (h : ∀ code ∈ codes, WrittenInBody code placeholder) :
    ∃ nodes : List Node, (∀ node ∈ nodes, node.IsText) ∧ Html.parse (toMarkup (outputs codes)) = .ok nodes := by
  have hwritten : List.Forall₂ WrittenInBody codes (codes.map fun _ => placeholder) :=
    List.forall₂_map_right_iff.2 (List.forall₂_same.2 h)
  have hchars : ∀ c ∈ (codes.map fun _ => placeholder).flatten, c ∈ placeholder := fun c hc => by
    obtain ⟨piece, hpiece, hc⟩ := List.mem_flatten.1 hc
    obtain ⟨code, -, rfl⟩ := List.mem_map.1 hpiece
    exact hc
  have hsolid : Markup.IsSolid placeholder := by decide
  have hplain : placeholder.all (fun c => decide (c ∉ Markup.escapedChars)) = true := by decide
  have hcleans := Markup.IsSolid.cleansTo fun c hc => hsolid c (hchars c hc)
  have hescaped := Markup.escapeValue_eq_self fun c hc =>
    of_decide_eq_true (List.all_eq_true.1 hplain c (hchars c hc))
  obtain ⟨nodes, hnodes, hread⟩ := Html.exists_ofMarkup_escapeValue (codes.map fun _ => placeholder).flatten
  refine ⟨nodes, hnodes, ?_⟩
  rw [parse_toMarkup, markupPieces_outputs hwritable hwritten, hcleans.eq, ← hread, hescaped]

end Template

end TemplateAudit
