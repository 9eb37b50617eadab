import TemplateAudit.Proofs.Helper.Literals

/-!
# Strings are read back exactly

The backslashes in front of the marks and the backslashes of a string come off again, whatever else it holds, so a
string in single quotes is read as it was meant.  In double quotes its expressions `#{…}` are filled in.  Which
these are is said here without a scan (`Filled`): nothing in front of the first one begins an expression, and it
goes up to the first closing brace.  There is one text that is filled in like this, and it is the one that is read
(`read_quote_exact`).
-/

namespace TemplateAudit

namespace Helper

variable {c : Char} {s t inner before : Text}

/-! ## Expressions -/

/-- A text with the placeholder for its expressions: nothing in front of the first one begins an expression, it goes
up to the first closing brace behind its beginning, and what follows is filled in likewise. -/
inductive Filled : Text → Text → Prop
  | none {s : Text} (h : HoldsNoExpression s) : Filled s s
  | first {before inner after filled : Text} (hbefore : ¬['#', '\x7b'] <:+: before) (hinner : '\x7d' ∉ inner)
      (hafter : Filled after filled) :
      Filled (before ++ '#' :: '\x7b' :: (inner ++ '\x7d' :: after)) (before ++ (placeholder ++ filled))

/-- The text begins with an expression. -/
def BeginsExpression (s : Text) : Prop :=
  ∃ inner after, s = '#' :: '\x7b' :: (inner ++ '\x7d' :: after) ∧ '\x7d' ∉ inner

theorem beginsExpression_of_mem (h : '\x7d' ∈ s) : BeginsExpression ('#' :: '\x7b' :: s) := by
  obtain ⟨inner, after, rfl, hinner⟩ := List.eq_append_cons_of_mem h
  exact ⟨inner, after, rfl, hinner⟩

theorem HoldsNoExpression.cons (hc : ¬BeginsExpression (c :: s)) (hs : HoldsNoExpression s) :
    HoldsNoExpression (c :: s) := by
  intro before after heq hend
  cases before with
  | nil =>
    rw [List.nil_append] at heq
    exact hc (heq ▸ beginsExpression_of_mem hend)
  | cons d before => exact hs before after (List.cons.inj heq).2 hend

/-- A character at which no expression begins goes in front of what is filled in. -/
theorem Filled.cons (hc : ¬BeginsExpression (c :: s)) (hs : Filled s t) : ∃ filled, Filled (c :: s) filled := by
  cases hs with
  | none h => exact ⟨c :: s, .none (h.cons hc)⟩
  | @first before inner after filled hbefore hinner hafter =>
    refine ⟨c :: before ++ (placeholder ++ filled), @Filled.first (c :: before) inner after filled (fun hin => ?_)
      hinner hafter⟩
    rcases List.infix_cons_iff.1 hin with ⟨rest, hprefix⟩ | hin
    · obtain ⟨rfl, rfl⟩ := List.cons.inj hprefix
      exact hc (beginsExpression_of_mem (by simp))
    · exact hbefore hin

/-- The expressions of every text can be filled in. -/
theorem exists_filled (s : Text) : ∃ t, Filled s t := by
  -- on the length: behind an expression the text goes on at no tail of it but a shorter one
  induction hlength : s.length using Nat.strongRecOn generalizing s with
  | ind n ih =>
    subst hlength
    cases s with
    | nil => exact ⟨[], .none fun _ _ heq => by simp at heq⟩
    | cons c s =>
      by_cases hc : BeginsExpression (c :: s)
      · obtain ⟨inner, after, heq, hinner⟩ := hc
        have hshorter : after.length < (c :: s).length := by
          rw [heq]
          simp only [List.length_cons, List.length_append]
          omega
        obtain ⟨filled, hafter⟩ := ih after.length hshorter after rfl
        rw [heq]
        exact ⟨placeholder ++ filled, @Filled.first [] inner after filled (by decide) hinner hafter⟩
      · obtain ⟨t, ht⟩ := ih s.length (Nat.lt_succ_self _) s rfl
        exact ht.cons hc

/-! ## The reader -/

/-- What is passed over leaves nothing behind. -/
theorem fillFrom_length (filler s t : Text) : fillFrom filler s.length (s ++ t) = fillFrom filler 0 t := by
  induction s with
  | nil => rfl
  | cons c s ih => exact ih

/-- The placeholder stands for the expression that a text begins with. -/
theorem fillInterpolations_expression (hinner : '\x7d' ∉ inner) (after : Text) :
    fillInterpolations ('#' :: '\x7b' :: (inner ++ '\x7d' :: after)) = placeholder ++ fillInterpolations after := by
  have hpassed : '\x7b' :: (inner ++ '\x7d' :: after) = '\x7b' :: (inner ++ ['\x7d']) ++ after := by simp
  have hlength : inner.length + 2 = ('\x7b' :: (inner ++ ['\x7d'])).length := by simp
  rw [fillInterpolations, fillFrom, Text.cutAtChar_append hinner]
  simp only [hlength]
  rw [hpassed, fillFrom_length, fillInterpolations]

/-- What stands in front of the first expression is kept. -/
theorem fillInterpolations_append (hbefore : ¬['#', '\x7b'] <:+: before) (rest : Text) :
    fillInterpolations (before ++ '#' :: rest) = before ++ fillInterpolations ('#' :: rest) := by
  induction before with
  | nil => rfl
  | cons c before ih =>
    rw [List.cons_append, List.cons_append, ← ih fun hin => hbefore (List.infix_cons hin), fillInterpolations,
      fillFrom.eq_4, fillInterpolations]
    -- the next character is no brace: it stands in front as well, or it is the `#` of the expression
    rintro next rfl hnext
    cases before with
    | nil => exact absurd (List.cons.inj hnext).1 (by decide)
    | cons d before =>
      obtain rfl := (List.cons.inj hnext).1
      exact hbefore ⟨[], before, rfl⟩

/-- The reader fills in what is said to be filled in. -/
theorem Filled.eq_fillInterpolations (h : Filled s t) : t = fillInterpolations s := by
  induction h with
  | none h => exact (fillInterpolations_of_holdsNoExpression h).symm
  | first hbefore hinner _ ih => rw [fillInterpolations_append hbefore, fillInterpolations_expression hinner, ← ih]

theorem filled_iff : Filled s t ↔ t = fillInterpolations s := by
  refine ⟨Filled.eq_fillInterpolations, ?_⟩
  rintro rfl
  obtain ⟨t, ht⟩ := exists_filled s
  rwa [← ht.eq_fillInterpolations]

/-! ## Strings -/

/-- A string in single quotes is what it says. -/
theorem read_quote_single (s : Text) : Value.read (quote '\'' s) = .str s := by
  have hpiece : IsPiece (quote '\'' s) := IsPiece.quote (by decide) s
  have hmark : '\'' ≠ '\\' ∧ '\'' ≠ '\n' := by decide
  have hdouble : quoted? '"' (quote '\'' s) = none := quoted?_of_head (by decide) _
  rw [read_eq, hpiece.trimmed.trim_eq, hdouble, quoted?_quote hmark.1]
  simp only [unescape_escape hmark.2]

/-- **Strings are read back exactly**, whatever they hold: in single quotes as they are, and in double quotes with
their expressions filled in, so as they are when they hold none. -/
theorem read_quote_exact (s : Text) :
    Value.read (quote '\'' s) = .str s ∧
      (∃ t, Value.read (quote '"' s) = .str t ∧ ∀ filled, Filled s filled ↔ filled = t) ∧
      (HoldsNoExpression s → Value.read (quote '"' s) = .str s) := by
  refine ⟨read_quote_single s, ⟨_, read_quote s, fun _ => filled_iff⟩, fun h => ?_⟩
  rw [read_quote, fillInterpolations_of_holdsNoExpression h]

theorem holdsNoExpression_of_not_mem (h : '\x7d' ∉ s) : HoldsNoExpression s := by
  rintro before after rfl hend
  exact h (List.mem_append_right before (List.mem_cons_of_mem _ (List.mem_cons_of_mem _ hend)))

/-- A text with both marks, backslashes in front of marks, a newline and the end, brackets, a comma, and an
expression that is not closed. -/
def strayMarks : Text :=
  "it's \\\n [\\\\', \\\" #\x7bx )\\"

theorem read_quote_exact_strayMarks :
    HoldsNoExpression strayMarks ∧
      Value.read (quote '\'' strayMarks) = .str strayMarks ∧ Value.read (quote '"' strayMarks) = .str strayMarks := by
  have hnone : HoldsNoExpression strayMarks := holdsNoExpression_of_not_mem (by decide)
  obtain ⟨hsingle, -, hdouble⟩ := read_quote_exact strayMarks
  exact ⟨hnone, hsingle, hdouble hnone⟩

end Helper

end TemplateAudit
