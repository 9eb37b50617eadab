import TemplateAudit.Text.Blank

/-!
# White space in markup

Taking tags out of a template leaves lines that end in spaces and runs of empty lines.  Both are
cleaned up: no line ends in a space or tab, and no run of white space has more than two newlines.
-/

namespace TemplateAudit

namespace Markup

/-! ## Ends of lines -/

/-- A space or a tab. -/
def isSpaceOrTab (c : Char) : Bool :=
  c == ' ' || c == '\t'

/-- Is a text at the end of a line? -/
def isLineEnd : Text → Bool
  | [] => true
  | c :: _ => c == '\n'

/-- The text without the spaces and tabs that end a line. -/
def trimLines : Text → Text
  | [] => []
  | c :: s =>
    let rest := trimLines s
    if isSpaceOrTab c && isLineEnd rest then rest else c :: rest

/-! ## Runs of empty lines -/

/-- A run of white space with what stands between its first and its last newline taken out, when
that holds a newline too. -/
def squeezeRun (run : Text) : Text :=
  if Text.newlines run < 3 then run
  else
    run.takeWhile (· != '\n') ++ ['\n', '\n'] ++ (run.reverse.takeWhile (· != '\n')).reverse

/-- The text with every run of white space squeezed; `run` is the reversed run that the text
before has ended in. -/
def squeezeFrom (run : Text) : Text → Text
  | [] => squeezeRun run.reverse
  | c :: s =>
    if Text.isBlank c then squeezeFrom (c :: run) s
    else squeezeRun run.reverse ++ c :: squeezeFrom [] s

/-- The text with at most two newlines in a run of white space. -/
def squeeze (s : Text) : Text :=
  squeezeFrom [] s

/-- Markup with its white space cleaned up. -/
def tidy (markup : Text) : Text :=
  squeeze (trimLines markup)

end Markup

end TemplateAudit
