import TemplateAudit.Text.Blank

/-!
# The tokens of a template

A template is literal text with tags `<% … %>` in it.  The character after `<%` says what a tag is
for: `=` or `==` prints a value, `#` is a comment, and `-` or nothing starts a statement.  In
literal text `<%%` stands for `<%`.  A tag that is not closed takes the rest of the template.
-/

namespace TemplateAudit

namespace Template

/-- What a token is for. -/
inductive Kind where
  /-- Literal text. -/
  | text
  /-- A tag that prints a value. -/
  | output
  /-- A tag that runs code and prints nothing. -/
  | statement
  /-- A tag that does nothing. -/
  | comment
  deriving DecidableEq, Repr

/-- A token with the line, counted from one, on which it starts.  The value of a tag is its code,
without the marks and the white space around it. -/
structure Token where
  kind : Kind
  value : Text
  line : Nat
  deriving DecidableEq, Repr

/-! ## The parts of a template -/

/-- The literal text up to the next tag, and the text after the `<%` of that tag. -/
def literal : Text → Text × Option Text
  | '<' :: '%' :: '%' :: s =>
    let found := literal s
    ('<' :: '%' :: found.1, found.2)
  | '<' :: '%' :: s => ([], some s)
  | c :: s =>
    let found := literal s
    (c :: found.1, found.2)
  | [] => ([], none)

/-- What a tag is for, and its text after the mark that says so. -/
def purpose : Text → Kind × Text
  | '=' :: '=' :: s => (.output, s)
  | '=' :: s => (.output, s)
  | '#' :: s => (.comment, s)
  | '-' :: s => (.statement, s)
  | s => (.statement, s)

/-- The text of a tag up to its `%>`, and the text after that. -/
def untilClose : Text → Text × Text
  | '%' :: '>' :: s => ([], s)
  | c :: s =>
    let found := untilClose s
    (c :: found.1, found.2)
  | [] => ([], [])

/-- The code in a tag: a hyphen before the `%>` belongs to the tag. -/
def codeOf (body : Text) : Text :=
  Text.trim (Text.dropFinal '-' body)

theorem length_literal_lt {s t : Text} (h : (literal s).2 = some t) : t.length < s.length := by
  fun_induction literal s with
  | case1 s found ih => exact Nat.lt_of_lt_of_le (ih h) (by simp only [List.length_cons]; omega)
  | case2 s => cases h; simp only [List.length_cons]; omega
  | case3 c s _ _ found ih => exact Nat.lt_of_lt_of_le (ih h) (by simp)
  | case4 => simp at h

theorem length_purpose_le (s : Text) : (purpose s).2.length ≤ s.length := by
  unfold purpose
  split <;> simp only [List.length_cons] <;> omega

theorem length_untilClose_le (s : Text) : (untilClose s).2.length ≤ s.length := by
  fun_induction untilClose s with
  | case1 s => simp only [List.length_cons]; omega
  | case2 c s _ found ih => exact Nat.le_succ_of_le ih
  | case3 => simp

/-! ## The tokens -/

/-- The tokens of a template whose first line has the given number. -/
def tokensFrom (line : Nat) (s : Text) : List Token :=
  let text := (literal s).1
  let here := if text.isEmpty then [] else [⟨.text, text, line⟩]
  match h : (literal s).2 with
  | none => here
  | some tag =>
    let line' := line + Text.newlines text
    let body := untilClose (purpose tag).2
    here ++ ⟨(purpose tag).1, codeOf body.1, line'⟩ ::
      tokensFrom (line' + Text.newlines body.1) body.2
termination_by s.length
decreasing_by
  exact Nat.lt_of_le_of_lt (length_untilClose_le _)
    (Nat.lt_of_le_of_lt (length_purpose_le _) (length_literal_lt h))

/-- The tokens of a template. -/
def tokenize (source : Text) : List Token :=
  tokensFrom 1 source

/-- Is a token code that runs when the template is rendered? -/
def Token.isCode (token : Token) : Bool :=
  token.kind == .output || token.kind == .statement

/-- The tokens of a template that hold running code. -/
def codeFragments (source : Text) : List Token :=
  (tokenize source).filter Token.isCode

end Template

end TemplateAudit
