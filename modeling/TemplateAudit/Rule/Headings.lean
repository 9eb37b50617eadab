import TemplateAudit.Rule.Basic

/-!
# Headings make an outline

The headings of a page begin with one of the first level, there is only one of that level, no level is
skipped on the way down, and every heading says something.
-/

namespace TemplateAudit

namespace Rule

namespace Headings

/-- The name of the rule. -/
def id : Text :=
  "heading"

/-- A heading with its level, and a mark by which it is known again. -/
structure Heading (α : Type) where
  place : Html.Place
  level : Nat
  mark : α

variable {α : Type}

/-- The heading at a place. -/
def Heading.at (place : Html.Place) (mark : α) : Heading α :=
  ⟨place, headingLevel place.tag, mark⟩

/-! ## What is said -/

/-- A finding on a heading. -/
def about (heading : Heading α) (origin : Origin) (message wcag remediation : Text)
    (severity : Severity) : Heading α × Finding :=
  (heading,
    report id message (describe heading.place origin.textLimit []) origin wcag remediation severity)

/-- The name of a heading of a level. -/
def levelName (level : Nat) : Text :=
  'h' :: Text.ofNat level

/-- No heading has the first level. -/
def noFirst (origin : Origin) (first : Heading α) : Heading α × Finding :=
  let name := levelName first.level
  about first origin ("Page has " ++ name ++ " but no h1 heading") "1.3.1"
    ("Add an <h1> heading before the first " ++ name ++ ":\n\n<h1>Main Page Title</h1>") .error

/-- A heading of the first level that is not the first of them. -/
def anotherFirst (origin : Origin) (total : Nat) (heading : Heading α) : Heading α × Finding :=
  about heading origin
    ("Page has multiple h1 headings (" ++ Text.ofNat total ++
      " total) - only one h1 should be used per page")
    "1.3.1" "Use only one <h1> per page. Convert additional h1s to h2 or lower." .error

/-- A heading more than one level below the one in front of it. -/
def skipped (origin : Origin) (previous heading : Heading α) : Heading α × Finding :=
  about heading origin
    ("Heading hierarchy skipped (" ++ levelName previous.level ++ " to " ++ levelName heading.level ++
      ")")
    "1.3.1"
    ("Don't skip heading levels. Use " ++ levelName (previous.level + 1) ++ " instead of " ++
      levelName heading.level ++ ".")
    .error

/-- A heading that says nothing. -/
def empty (origin : Origin) (heading : Heading α) : Heading α × Finding :=
  let tag := heading.place.tag
  about heading origin
    ("Empty heading detected (<" ++ tag ++ ">) - headings must have accessible text") "4.1.2"
    ("Add descriptive text to the heading:\n\n<" ++ tag ++ ">Descriptive Heading Text</" ++ tag ++
      ">")
    .error

/-- A heading that is there for its looks. -/
def decorative (origin : Origin) (heading : Heading α) (text : Text) : Heading α × Finding :=
  about heading origin
    ("Heading appears to be used for styling only (text: '" ++ text ++
      "') - headings should be descriptive")
    "2.4.6" "Use CSS for styling instead of headings. Replace it with a <div> or <span>." .warning

/-! ## What is found -/

/-- Is the character one that headings have for their looks? -/
def isOrnament (c : Char) : Bool :=
  [('•' : Char), '→', '…', '-', '_', '='].contains c || Text.isBlank c

/-- Is a text a short row of ornaments? -/
def isOrnamental (text : Text) : Bool :=
  text.length ≤ 2 && !text.isEmpty && text.all isOrnament

/-- Does a heading say something? -/
def saysSomething (place : Html.Place) : Bool :=
  !place.words.isEmpty || hasDescribedImage place

/-- The finding on the first heading, when none has the first level. -/
def missingFirst (origin : Origin) (headings : List (Heading α)) : List (Heading α × Finding) :=
  match headings with
  | [] => []
  | first :: _ => if headings.any (·.level == 1) then [] else [noFirst origin first]

/-- The findings on the headings of the first level after the first of them. -/
def otherFirsts (origin : Origin) (headings : List (Heading α)) : List (Heading α × Finding) :=
  let firsts := headings.filter (·.level == 1)
  (firsts.drop 1).map (anotherFirst origin firsts.length)

/-- The findings on headings that skip a level. -/
def skips (origin : Origin) : List (Heading α) → List (Heading α × Finding)
  | previous :: heading :: headings =>
    (if previous.level + 1 < heading.level then [skipped origin previous heading] else []) ++
      skips origin (heading :: headings)
  | _ => []

/-- The finding on what one heading says. -/
def onContent (origin : Origin) (heading : Heading α) : List (Heading α × Finding) :=
  if saysSomething heading.place then
    let text := Text.trim heading.place.text
    if isOrnamental text then [decorative origin heading text] else []
  else [empty origin heading]

/-- The findings on headings in order, each with the heading it is about. -/
def analyse (headings : List (Heading α)) (origin : Origin) : List (Heading α × Finding) :=
  missingFirst origin headings ++ otherFirsts origin headings ++ skips origin headings ++
    headings.flatMap (onContent origin)

/-- The findings on a document. -/
def examine (document : Html.Document) (origin : Origin) : List Finding :=
  (analyse ((Css.select headings document).map (Heading.at · ())) origin).map (·.2)

end Headings

/-- The rule that headings make an outline. -/
def headingOutline : Rule :=
  ⟨Headings.id, "Heading structure", fun document origin => .ok (Headings.examine document origin),
    true, true, ["1.3.1", "2.4.6", "4.1.2"]⟩

end Rule

end TemplateAudit
