import TemplateAudit.Css.Selector
import TemplateAudit.Finding
import TemplateAudit.Text.Letter

/-!
# Rules

A rule examines a document and reports findings.  This file holds what all rules have in common: where
a document came from, what a rule is, and how a finding describes an element.
-/

namespace TemplateAudit

namespace Rule

/-! ## Rules -/

/-- Where a document came from, and how much of the text of an element a finding keeps. -/
structure Origin where
  file : Option Text
  url : Option Text
  textLimit : Int
  deriving DecidableEq, Repr

/-- An origin of which nothing is known. -/
def Origin.unknown : Origin :=
  ⟨none, none, 100⟩

/-- What a rule says about a document: its findings, or why it failed. -/
abbrev Verdict := Except Text (List Finding)

end Rule

/-- A rule with its name, its title, whether it runs unless it is switched off, whether it is about
whole pages, and the success criteria it reports on. -/
structure Rule where
  id : Text
  title : Text
  examine : Html.Document → Rule.Origin → Rule.Verdict
  enabled : Bool
  ofPages : Bool
  wcag : List Text

namespace Rule

open Html (Place)

/-- Criteria in order, each once. -/
def sortedCriteria (criteria : List Text) : List Text :=
  (criteria.eraseDups).mergeSort Text.atMost

/-! ## Describing elements -/

/-- Is there no text, or nothing in it but white space? -/
def isBlank (value : Option Text) : Bool :=
  value.all Text.saysNothing

/-- The element around a place, described. -/
def parentInfo (place : Place) : ParentInfo :=
  ⟨place.tag, place.attr? "id", place.attr? "class"⟩

/-- The element at a place, described with at most `limit` characters of its text. -/
def describe (place : Place) (limit : Int) (details : List (Text × Json)) : ElementInfo where
  tag := place.tag
  id := place.attr? "id"
  classes := place.attr? "class"
  href := place.attr? "href"
  src := place.attr? "src"
  inputType := place.attr? "type"
  text := Text.clip limit place.words
  parent := place.parent?.map parentInfo
  details := details

/-- The page as a whole, described. -/
def describePage (text : Text) : ElementInfo :=
  ⟨"page", none, none, none, none, none, text, none, []⟩

/-- The level of a heading from its tag; an element that is no heading has level zero. -/
def headingLevel (tag : Text) : Nat :=
  match tag with
  | _ :: c :: _ => (Text.digitValue? c).getD 0
  | _ => 0

/-- Does an element in the place, an image, have a text to be shown instead of it? -/
def hasDescribedImage (place : Place) : Bool :=
  (Css.selectIn [Css.tag "img"] place).any fun image => !isBlank (image.attr? "alt")

/-- The headings. -/
def headings : Css.Selector :=
  [Css.tag "h1", Css.tag "h2", Css.tag "h3", Css.tag "h4", Css.tag "h5", Css.tag "h6"]

/-! ## Reporting -/

/-- A finding about an element of a document. -/
def report (rule message : Text) (element : ElementInfo) (origin : Origin) (wcag remediation : Text)
    (severity : Severity) : Finding where
  ruleId := rule
  message := message
  severity := severity
  element := element
  file := origin.file
  line := none
  remediation := remediation
  wcag := some wcag
  pageLevel := false

end Rule

end TemplateAudit
