import TemplateAudit.Template.Token
import TemplateAudit.Text.Replace

/-!
# The tokens of a template and its segments

Each token stands for a segment of the template, and the segments in order make up the whole
template: nothing is lost and nothing is read twice.  `Cut` says what a segment looks like for each
kind of token, without the functions that read templates.  `exists_cut` finds the segments of the
tokens, and `Cut.tokensFrom_eq` is the other direction: no other tokens have such segments.
-/

namespace TemplateAudit

theorem Text.newlines_append (s t : Text) : newlines (s ++ t) = newlines s + newlines t :=
  List.count_append

namespace Template

/-! ## Segments -/

/-- No tag opens in a text: each `<%` in it is the beginning of a `<%%`. -/
def HasNoTag (segment : Text) : Prop :=
  ∀ before after, segment = before ++ '<' :: '%' :: after → after.head? = some '%'

/-- The mark after the `<%` of a tag, with the kind of tag it stands for and the text after it.  A
tag with neither `=` nor `#` nor `-` has no mark, and what begins with `<%%` is no tag. -/
inductive Marks : Kind → Text → Text → Prop
  | double (rest : Text) : Marks .output ['=', '='] rest
  | single {rest : Text} (h : rest.head? ≠ some '=') : Marks .output ['='] rest
  | hash (rest : Text) : Marks .comment ['#'] rest
  | hyphen (rest : Text) : Marks .statement ['-'] rest
  | none {rest : Text} (h : ∀ c ∈ rest.head?, c ∉ ['=', '#', '-', '%']) : Marks .statement [] rest

/-- `Cut line tokens segments`: the tokens stand for the segments, one for each, when the first segment
starts on the given line. -/
inductive Cut : Nat → List Token → List Text → Prop
  | nil (line : Nat) : Cut line [] []
  /-- Literal text, with `<%` for each `<%%`, and no more of it behind. -/
  | text {line : Nat} {segment : Text} {tokens : List Token} {segments : List Text}
      (hne : Text.replace ['<', '%', '%'] ['<', '%'] segment ≠ []) (hsegment : HasNoTag segment)
      (hnext : ∀ token ∈ tokens.head?, token.kind ≠ .text)
      (rest : Cut (line + Text.newlines segment) tokens segments) :
      Cut line (⟨.text, Text.replace ['<', '%', '%'] ['<', '%'] segment, line⟩ :: tokens)
        (segment :: segments)
  /-- A tag that ends in `%>`, with no other `%>` after its mark. -/
  | tag {line : Nat} {kind : Kind} {mark body : Text} {tokens : List Token} {segments : List Text}
      (hmark : Marks kind mark (body ++ ['%', '>'])) (hbody : ¬['%', '>'] <:+: body)
      (rest : Cut (line + Text.newlines ('<' :: '%' :: mark ++ body ++ ['%', '>'])) tokens segments) :
      Cut line (⟨kind, Text.trim (Text.dropFinal '-' body), line⟩ :: tokens)
        (('<' :: '%' :: mark ++ body ++ ['%', '>']) :: segments)
  /-- A tag without a `%>` is the last one. -/
  | unclosed {line : Nat} {kind : Kind} {mark body : Text} (hmark : Marks kind mark body)
      (hbody : ¬['%', '>'] <:+: body) :
      Cut line [⟨kind, Text.trim (Text.dropFinal '-' body), line⟩] ['<' :: '%' :: mark ++ body]

/-! ## Literal text -/

theorem HasNoTag.tail {c : Char} {segment : Text} (h : HasNoTag (c :: segment)) : HasNoTag segment :=
  fun before after heq => h (c :: before) after (by rw [heq, List.cons_append])

theorem HasNoTag.cons {c : Char} {segment : Text} (h : HasNoTag segment)
    (hc : ¬['<', '%'] <+: c :: segment) : HasNoTag (c :: segment) := by
  intro before after heq
  cases before with
  | nil => exact absurd (heq ▸ List.prefix_append ['<', '%'] after) hc
  | cons d before => exact h before after (List.cons.inj heq).2

/-- A segment of literal text and what it says, one character or one `<%%` after the other. -/
inductive Literal : Text → Text → Prop
  | nil : Literal [] []
  | escape {segment value : Text} (rest : Literal segment value) :
      Literal ('<' :: '%' :: '%' :: segment) ('<' :: '%' :: value)
  | char {c : Char} {segment value : Text} (h : ¬['<', '%'] <+: c :: segment)
      (rest : Literal segment value) : Literal (c :: segment) (c :: value)

namespace Literal

variable {segment value : Text}

theorem eq_replace (h : Literal segment value) :
    value = Text.replace ['<', '%', '%'] ['<', '%'] segment := by
  induction h with
  | nil => rfl
  | escape rest ih => exact ih ▸ (Text.replace_append (by simp) ['<', '%'] _).symm
  | char hc rest ih =>
    have hescape : ['<', '%'] <+: ['<', '%', '%'] := List.prefix_append _ ['%']
    rw [Text.replace_cons fun hpre => hc (hescape.trans hpre), ← ih]

theorem newlines_eq (h : Literal segment value) : Text.newlines value = Text.newlines segment := by
  induction h with
  | nil => rfl
  | escape rest ih => simpa [Text.newlines] using ih
  | char hc rest ih =>
    rw [Text.newlines] at ih ⊢
    rw [List.count_cons, ih, Text.newlines, Text.newlines, List.count_cons]

theorem hasNoTag (h : Literal segment value) : HasNoTag segment := by
  induction h with
  | nil => exact fun before after heq => by simp at heq
  | escape rest ih =>
    intro before after heq
    cases before with
    | nil =>
      obtain rfl : '%' :: _ = after := by simpa using heq
      rfl
    | cons c before =>
      exact ((ih.cons (by simp)).cons (by simp)) before after (List.cons.inj heq).2
  | char hc rest ih => exact ih.cons hc

end Literal

/-- A text in which no tag opens is literal. -/
theorem HasNoTag.literal {segment : Text} (h : HasNoTag segment) : ∃ value, Literal segment value := by
  match segment, h with
  | [], _ => exact ⟨[], .nil⟩
  | c :: segment, h =>
    by_cases hopens : ['<', '%'] <+: c :: segment
    · obtain ⟨after, heq⟩ := hopens
      -- the text goes on with the second `%` of an escape
      have hhead := h [] after heq.symm
      cases after with
      | nil => cases hhead
      | cons d after =>
        obtain rfl := Option.some.inj hhead
        obtain ⟨rfl, rfl⟩ := List.cons.inj heq
        have hafter : HasNoTag after := h.tail.tail.tail
        obtain ⟨value, hvalue⟩ := hafter.literal
        exact ⟨_, .escape hvalue⟩
    · obtain ⟨value, hvalue⟩ := h.tail.literal
      exact ⟨_, .char hopens hvalue⟩
termination_by segment.length

theorem exists_literal (s : Text) : ∃ segment, Literal segment (literal s).1 ∧
    ((literal s).2 = none ∧ s = segment ∨
      ∃ tag, (literal s).2 = some tag ∧ tag.head? ≠ some '%' ∧ s = segment ++ '<' :: '%' :: tag) := by
  fun_induction literal s with
  | case1 s found ih =>
    obtain ⟨segment, hsegment, hrest⟩ := ih
    refine ⟨_, .escape hsegment, ?_⟩
    rcases hrest with ⟨hnone, hs⟩ | ⟨tag, hsome, htag, hs⟩
    · exact .inl ⟨hnone, by rw [← hs]⟩
    · exact .inr ⟨tag, hsome, htag, by rw [List.cons_append, List.cons_append, List.cons_append, ← hs]⟩
  | case2 s hnot =>
    refine ⟨[], .nil, .inr ⟨s, rfl, ?_, rfl⟩⟩
    intro hhead
    cases s with
    | nil => cases hhead
    | cons c s => exact hnot s (by rw [Option.some.inj hhead])
  | case3 c s hnot hnot' found ih =>
    obtain ⟨segment, hsegment, hrest⟩ := ih
    refine ⟨c :: segment, .char ?_ hsegment, ?_⟩
    · rintro ⟨after, heq⟩
      obtain ⟨rfl, rfl⟩ := List.cons.inj heq
      rcases hrest with ⟨-, hs⟩ | ⟨tag, -, -, hs⟩ <;> exact hnot' _ rfl hs
    · rcases hrest with ⟨hnone, hs⟩ | ⟨tag, hsome, htag, hs⟩
      · exact .inl ⟨hnone, by rw [← hs]⟩
      · exact .inr ⟨tag, hsome, htag, by rw [List.cons_append, ← hs]⟩
  | case4 => exact ⟨[], .nil, .inl ⟨rfl, rfl⟩⟩

/-- Literal text is read up to where it ends. -/
theorem Literal.literal_append {segment value rest : Text} (h : Literal segment value)
    (hrest : (literal rest).1 = []) (hhead : rest.head? ≠ some '%') :
    literal (segment ++ rest) = (value, (literal rest).2) := by
  induction h with
  | nil => exact Prod.ext hrest rfl
  | escape _ ih =>
    simp only [List.cons_append, literal]
    rw [ih]
  | @char c segment value hc _ ih =>
    have hnot : ∀ t, c = '<' → segment ++ rest = '%' :: t → False := by
      rintro t rfl heq
      cases segment with
      | nil => exact hhead (by rw [List.nil_append] at heq; rw [heq]; rfl)
      | cons d segment => exact hc (by simpa using (List.cons.inj heq).1.symm)
    rw [List.cons_append, literal, ih]
    · exact fun t hlt heq => hnot _ hlt heq
    · exact fun t hlt heq => hnot _ hlt heq

/-! ## Tags -/

theorem exists_marks {tag : Text} (h : tag.head? ≠ some '%') :
    ∃ mark, tag = mark ++ (purpose tag).2 ∧ Marks (purpose tag).1 mark (purpose tag).2 := by
  fun_cases purpose tag with
  | case1 s => exact ⟨_, rfl, .double s⟩
  | case2 s hnot =>
    refine ⟨['='], rfl, .single fun hhead => ?_⟩
    cases s with
    | nil => cases hhead
    | cons c s => exact hnot s (by rw [Option.some.inj hhead])
  | case3 s => exact ⟨_, rfl, .hash s⟩
  | case4 s => exact ⟨_, rfl, .hyphen s⟩
  | case5 s hdouble hequals hhash hhyphen =>
    refine ⟨[], rfl, .none fun c hc hmem => ?_⟩
    obtain ⟨s, rfl⟩ := List.head?_eq_some_iff.1 hc
    simp only [List.mem_cons, List.not_mem_nil, or_false] at hmem
    rcases hmem with rfl | rfl | rfl | rfl
    · exact hequals s rfl
    · exact hhash s rfl
    · exact hhyphen s rfl
    · exact h rfl

namespace Marks

variable {kind : Kind} {mark rest : Text}

theorem purpose_eq (h : Marks kind mark rest) : purpose (mark ++ rest) = (kind, rest) := by
  cases h with
  | double | hash | hyphen => rfl
  | single h =>
    rw [List.singleton_append, purpose]
    rintro s rfl
    exact h rfl
  | none h =>
    unfold purpose
    split <;> simp_all

theorem head?_ne (h : Marks kind mark rest) : (mark ++ rest).head? ≠ some '%' := by
  cases h with
  | double | single | hash | hyphen => simp
  | none h => exact fun hhead => by simpa using h '%' hhead

theorem newlines_eq (h : Marks kind mark rest) : Text.newlines mark = 0 := by
  cases h <;> rfl

/-- What mark it is depends on the next character only. -/
theorem congr {rest' : Text} (h : Marks kind mark rest) (hhead : rest.head? = rest'.head?) :
    Marks kind mark rest' := by
  cases h with
  | double => exact .double rest'
  | single h => exact .single (hhead ▸ h)
  | hash => exact .hash rest'
  | hyphen => exact .hyphen rest'
  | none h => exact .none (hhead ▸ h)

theorem kind_ne_text (h : Marks kind mark rest) : kind ≠ .text := by
  cases h <;> simp

end Marks

/-- A tag is read up to its `%>`, or to the end of the template. -/
theorem untilClose_cases (s : Text) :
    s = (untilClose s).1 ++ ['%', '>'] ++ (untilClose s).2 ∨
      s = (untilClose s).1 ∧ (untilClose s).2 = [] := by
  fun_induction untilClose s with
  | case1 s => exact .inl rfl
  | case2 c s hnot found ih =>
    refine ih.imp (fun hs => ?_) (fun hs => ⟨?_, hs.2⟩)
    · rw [List.cons_append, List.cons_append, ← hs]
    · rw [← hs.1]
  | case3 => exact .inr ⟨rfl, rfl⟩

theorem not_infix_untilClose (s : Text) : ¬['%', '>'] <:+: (untilClose s).1 := by
  fun_induction untilClose s with
  | case1 s => simp
  | case2 c s hnot found ih =>
    intro hinfix
    rcases List.infix_cons_iff.1 hinfix with ⟨after, heq⟩ | hinfix
    · -- the text begins with what was read of it
      obtain ⟨rfl, hfound⟩ := List.cons.inj heq
      rcases untilClose_cases s with hs | ⟨hs, -⟩ <;>
        exact hnot _ rfl (by rw [hs, ← hfound]; rfl)
    · exact ih hinfix
  | case3 => simp

/-- What holds no `%>` is read further, whatever stands behind it. -/
theorem untilClose_cons {c : Char} {body rest : Text} (h : ¬['%', '>'] <:+: c :: body)
    (hrest : rest.head? ≠ some '>') :
    untilClose (c :: (body ++ rest)) =
      (c :: (untilClose (body ++ rest)).1, (untilClose (body ++ rest)).2) := by
  rw [untilClose]
  rintro s rfl heq
  cases body with
  | nil => exact hrest (by rw [List.nil_append] at heq; rw [heq]; rfl)
  | cons d body =>
    obtain ⟨rfl, -⟩ := List.cons.inj heq
    exact h (List.prefix_append ['%', '>'] body).isInfix

theorem untilClose_append {body rest : Text} (h : ¬['%', '>'] <:+: body)
    (hrest : (untilClose rest).1 = []) (hhead : rest.head? ≠ some '>') :
    untilClose (body ++ rest) = (body, (untilClose rest).2) := by
  induction body with
  | nil => exact Prod.ext hrest rfl
  | cons c body ih =>
    rw [List.cons_append, untilClose_cons h hhead, ih fun hinfix => h (List.infix_cons hinfix)]

/-! ## The tokens -/

theorem tokensFrom_eq (line : Nat) (s : Text) : tokensFrom line s =
    (if (literal s).1.isEmpty then [] else [⟨.text, (literal s).1, line⟩]) ++
      (literal s).2.elim [] fun tag =>
        let line' := line + Text.newlines (literal s).1
        let body := untilClose (purpose tag).2
        ⟨(purpose tag).1, codeOf body.1, line'⟩ ::
          tokensFrom (line' + Text.newlines body.1) body.2 := by
  rw [tokensFrom]
  split <;> simp_all

theorem tokensFrom_nil (line : Nat) : tokensFrom line [] = [] :=
  tokensFrom_eq line []

theorem literal_tag {tag : Text} (h : tag.head? ≠ some '%') :
    literal ('<' :: '%' :: tag) = ([], some tag) := by
  rw [literal]
  rintro s rfl
  exact h rfl

/-- The text in front of a tag or of the end is the first token. -/
theorem tokensFrom_text {segment value rest : Text} (line : Nat) (hliteral : Literal segment value)
    (hne : value ≠ []) (hrest : (literal rest).1 = []) (hhead : rest.head? ≠ some '%') :
    tokensFrom line (segment ++ rest) =
      ⟨.text, value, line⟩ :: tokensFrom (line + Text.newlines segment) rest := by
  have hempty : value.isEmpty = false := List.isEmpty_eq_false_iff.2 hne
  rw [tokensFrom_eq, tokensFrom_eq _ rest, hliteral.literal_append hrest hhead, hrest]
  simp only [hliteral.newlines_eq]
  simp [hempty, Text.newlines]

/-- A tag in front is the first token; its body ends in `%>` or where the template ends. -/
theorem tokensFrom_tag {kind : Kind} {mark body rest : Text} (line : Nat)
    (hmark : Marks kind mark (body ++ rest)) (hbody : ¬['%', '>'] <:+: body)
    (hrest : (untilClose rest).1 = []) (hhead : rest.head? ≠ some '>') :
    tokensFrom line ('<' :: '%' :: (mark ++ (body ++ rest))) =
      ⟨kind, codeOf body, line⟩ :: tokensFrom (line + Text.newlines body) (untilClose rest).2 := by
  rw [tokensFrom_eq, literal_tag hmark.head?_ne]
  simp [hmark.purpose_eq, untilClose_append hbody hrest hhead, Text.newlines]

/-! ## The segments of the tokens -/

/-- Literal text is a segment of its own. -/
theorem Cut.of_literal {line : Nat} {segment value : Text} {tokens : List Token} {segments : List Text}
    (h : Literal segment value) (hne : value ≠ [])
    (hnext : ∀ token ∈ tokens.head?, token.kind ≠ .text)
    (rest : Cut (line + Text.newlines segment) tokens segments) :
    Cut line (⟨.text, value, line⟩ :: tokens) (segment :: segments) := by
  obtain rfl := h.eq_replace
  exact .text hne h.hasNoTag hnext rest

theorem newlines_tag {kind : Kind} {mark rest : Text} (hmark : Marks kind mark rest) (body : Text) :
    Text.newlines ('<' :: '%' :: mark ++ body ++ ['%', '>']) = Text.newlines body := by
  have hzero := hmark.newlines_eq
  simp only [Text.newlines] at hzero ⊢
  simp [hzero]

/-- The tokens of what begins with a tag have segments when those of all shorter templates do. -/
theorem exists_cut_tag {tag : Text} (htag : tag.head? ≠ some '%') (line : Nat)
    (hshorter : ∀ line s, s.length < tag.length →
      ∃ segments, segments.flatten = s ∧ Cut line (tokensFrom line s) segments) :
    ∃ segments, segments.flatten = '<' :: '%' :: tag ∧
      Cut line (tokensFrom line ('<' :: '%' :: tag)) segments ∧
      ∀ token ∈ (tokensFrom line ('<' :: '%' :: tag)).head?, token.kind ≠ .text := by
  obtain ⟨mark, heq, hmark⟩ := exists_marks htag
  have hbody := not_infix_untilClose (purpose tag).2
  rcases untilClose_cases (purpose tag).2 with hclosed | ⟨hopen, -⟩
  · generalize (untilClose (purpose tag).2).1 = body at hbody hclosed
    generalize (untilClose (purpose tag).2).2 = after at hclosed
    generalize (purpose tag).1 = kind at hmark
    rw [hclosed, List.append_assoc] at hmark heq
    subst heq
    obtain ⟨segments, hflatten, hcut⟩ := hshorter (line + Text.newlines body) after
      (by simp only [List.length_append, List.length_cons]; omega)
    rw [tokensFrom_tag line hmark hbody rfl (by simp)]
    refine ⟨('<' :: '%' :: mark ++ body ++ ['%', '>']) :: segments, by simp [hflatten], ?_, ?_⟩
    · refine .tag (hmark.congr (by cases body <;> rfl)) hbody ?_
      rwa [newlines_tag hmark]
    · rintro _ ⟨⟩
      exact hmark.kind_ne_text
  · generalize (untilClose (purpose tag).2).1 = body at hbody hopen
    generalize (purpose tag).1 = kind at hmark
    rw [hopen, ← List.append_nil body] at hmark heq
    subst heq
    rw [tokensFrom_tag line hmark hbody rfl (by simp), untilClose, tokensFrom_nil]
    rw [List.append_nil] at hmark ⊢
    refine ⟨['<' :: '%' :: mark ++ body], by simp, .unclosed hmark hbody, ?_⟩
    rintro _ ⟨⟩
    exact hmark.kind_ne_text

/-- The tokens of a template have segments. -/
theorem exists_cut (line : Nat) (s : Text) :
    ∃ segments, segments.flatten = s ∧ Cut line (tokensFrom line s) segments := by
  induction hlength : s.length using Nat.strongRecOn generalizing line s with
  | ind n ih =>
    subst hlength
    obtain ⟨segment, hliteral, hs⟩ := exists_literal s
    -- the rest of the template after its literal text
    have hrest : ∃ rest, s = segment ++ rest ∧ (literal rest).1 = [] ∧ rest.head? ≠ some '%' ∧
        ∀ line, ∃ segments, segments.flatten = rest ∧ Cut line (tokensFrom line rest) segments ∧
          ∀ token ∈ (tokensFrom line rest).head?, token.kind ≠ .text := by
      rcases hs with ⟨-, rfl⟩ | ⟨tag, -, htag, rfl⟩
      · refine ⟨[], by simp, rfl, by simp, fun line => ⟨[], rfl, ?_⟩⟩
        rw [tokensFrom_nil]
        exact ⟨.nil line, by simp⟩
      · refine ⟨_, rfl, by rw [literal_tag htag], by simp, fun line => ?_⟩
        exact exists_cut_tag htag line fun line t ht =>
          ih t.length (by simp only [List.length_append, List.length_cons]; omega) line t rfl
    obtain ⟨rest, rfl, hread, hhead, hcut⟩ := hrest
    by_cases hne : (literal (segment ++ rest)).1 = []
    · rw [hne] at hliteral
      cases hliteral
      obtain ⟨segments, hflatten, hcut, -⟩ := hcut line
      exact ⟨segments, hflatten, hcut⟩
    · obtain ⟨segments, hflatten, hcut, hnext⟩ := hcut (line + Text.newlines segment)
      refine ⟨segment :: segments, by simp [hflatten], ?_⟩
      rw [tokensFrom_text line hliteral hne hread hhead]
      exact .of_literal hliteral hne hnext hcut

/-! ## The tokens of the segments -/

namespace Cut

variable {line : Nat} {tokens : List Token} {segments : List Text}

/-- Where no literal text comes first, a tag opens or the template ends. -/
theorem opens (h : Cut line tokens segments) (hnext : ∀ token ∈ tokens.head?, token.kind ≠ .text) :
    (literal segments.flatten).1 = [] ∧ segments.flatten.head? ≠ some '%' := by
  cases h with
  | nil => exact ⟨rfl, by simp⟩
  | text => exact absurd rfl (hnext _ rfl)
  | tag hmark =>
    refine ⟨?_, by simp⟩
    rw [List.flatten_cons, List.append_assoc, List.append_assoc, List.cons_append, List.cons_append,
      literal_tag]
    exact (hmark.congr (by simp)).head?_ne
  | unclosed hmark =>
    refine ⟨?_, by simp⟩
    rw [List.flatten_cons, List.flatten_nil, List.append_nil, List.cons_append, List.cons_append,
      literal_tag hmark.head?_ne]

/-- The tokens that the segments stand for are those that are read. -/
theorem tokensFrom_eq (h : Cut line tokens segments) : tokensFrom line segments.flatten = tokens := by
  induction h with
  | nil line => exact tokensFrom_nil line
  | text hne hsegment hnext rest ih =>
    obtain ⟨value, hliteral⟩ := hsegment.literal
    obtain ⟨hread, hhead⟩ := rest.opens hnext
    rw [← hliteral.eq_replace] at hne ⊢
    rw [List.flatten_cons, tokensFrom_text _ hliteral hne hread hhead, ih]
  | @tag line kind mark body tokens segments hmark hbody rest ih =>
    have hsegment : (('<' :: '%' :: mark ++ body ++ ['%', '>']) :: segments).flatten =
        '<' :: '%' :: (mark ++ (body ++ ('%' :: '>' :: segments.flatten))) := by
      simp
    rw [newlines_tag hmark] at ih
    rw [hsegment, tokensFrom_tag line (hmark.congr (by cases body <;> rfl)) hbody rfl (by simp)]
    exact congrArg _ ih
  | @unclosed line kind mark body hmark hbody =>
    have hsegment : ['<' :: '%' :: mark ++ body].flatten = '<' :: '%' :: (mark ++ (body ++ [])) := by
      simp
    rw [hsegment, tokensFrom_tag line (hmark.congr (by rw [List.append_nil])) hbody rfl (by simp),
      untilClose, tokensFrom_nil]
    rfl

/-- A token starts on the line that the segments in front of it lead to. -/
theorem line_eq (h : Cut line tokens segments) (i : Nat) {token : Token}
    (htoken : tokens[i]? = some token) :
    token.line = line + Text.newlines (segments.take i).flatten := by
  induction h generalizing i with
  | nil => cases htoken
  | text _ _ _ _ ih | tag _ _ _ ih =>
    cases i with
    | zero =>
      obtain rfl := Option.some.inj htoken
      rfl
    | succ i =>
      rw [ih i htoken, List.take_succ_cons, List.flatten_cons, Nat.add_assoc, ← Text.newlines_append]
  | unclosed =>
    cases i with
    | zero =>
      obtain rfl := Option.some.inj htoken
      rfl
    | succ i => cases htoken

end Cut

/-- **The tokens of a template partition it.**  Each token stands for a segment of the form that its
kind asks for, the segments make up the template, and a token starts on the line that the segments in
front of it lead to.  No other tokens have such segments. -/
theorem exists_segments_tokenize (source : Text) :
    ∃ segments, segments.flatten = source ∧ Cut 1 (tokenize source) segments ∧
      (∀ i token, (tokenize source)[i]? = some token →
        token.line = 1 + Text.newlines (segments.take i).flatten) ∧
      ∀ tokens segments', segments'.flatten = source → Cut 1 tokens segments' →
        tokens = tokenize source := by
  obtain ⟨segments, hflatten, hcut⟩ := exists_cut 1 source
  refine ⟨segments, hflatten, hcut, fun i token htoken => hcut.line_eq i htoken, ?_⟩
  rintro tokens segments' rfl hcut'
  exact hcut'.tokensFrom_eq.symm

end Template

end TemplateAudit
