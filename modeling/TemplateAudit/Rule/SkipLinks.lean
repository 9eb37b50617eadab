import TemplateAudit.Rule.Basic

/-!
# A page offers a skip link

A page that begins with what every page has offers a link to its content.
-/

namespace TemplateAudit

namespace Rule

namespace SkipLinks

/-- The name of the rule. -/
def id : Text :=
  "skip_links"

/-- A link whose address compares with a value as asked. -/
def linkTo (how : Css.Comparison) (wanted : Text) (anyCase : Bool) : Css.Pattern :=
  .simple (some "a") [.value "href" how wanted anyCase]

/-- The links to the content of the page. -/
def skipLinks : Css.Selector :=
  [linkTo .equals "#main" false, linkTo .contains "main-content" true,
    linkTo .contains "maincontent" true, linkTo .beginsWith "#content" false,
    .simple (some "a") [.hasClass "skip-link"]]

/-- The parts that are repeated on every page. -/
def repeatedBlocks : Css.Selector :=
  [Css.tag "nav", Css.tag "header", Css.withValue "role" "navigation",
    Css.withValue "role" "banner"]

/-- The finding on a page without a skip link. -/
def missing (origin : Origin) : Finding :=
  report id "Page has navigation but no skip link" (describePage "Page has no skip-to-content link")
    origin "2.4.1"
    ("Add a skip link as the first focusable element of the layout:\n\n" ++
      "<a href=\"#main-content\" class=\"skip-link\">Skip to main content</a>\n" ++
      "<main id=\"main-content\">...</main>")
    .warning

/-- The findings on a document. -/
def examine (document : Html.Document) (origin : Origin) : List Finding :=
  if Css.exists? repeatedBlocks document && !Css.exists? skipLinks document then [missing origin]
  else []

end SkipLinks

/-- The rule that a page offers a skip link. -/
def skipLink : Rule :=
  ⟨SkipLinks.id, "Page offers a skip link",
    fun document origin => .ok (SkipLinks.examine document origin), true, true, ["2.4.1"]⟩

end Rule

end TemplateAudit
