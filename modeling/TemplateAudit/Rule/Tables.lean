import TemplateAudit.Rule.Basic

/-!
# Tables have headers

A table has header cells, unless it says that it is there for its layout only.
-/

namespace TemplateAudit

namespace Rule

namespace Tables

/-- The name of the rule. -/
def id : Text :=
  "table_structure"

/-- Does a table say that it is there for its layout only? -/
def isForLayout (table : Html.Place) : Bool :=
  (table.attr? "role").any fun role => [("presentation" : Text), "none"].contains role

/-- The finding on a table. -/
def headerless (origin : Origin) (table : Html.Place) : Finding :=
  report id "Table missing headers" (describe table origin.textLimit []) origin "1.3.1"
    ("Add <th> headers to your table:\n\n<table>\n  <thead>\n    <tr><th>Column 1</th></tr>\n" ++
      "  </thead>\n</table>")
    .error

/-- The findings on a document. -/
def examine (document : Html.Document) (origin : Origin) : List Finding :=
  ((Css.select [Css.tag "table"] document).filter fun table =>
    !isForLayout table && (Css.selectIn [Css.tag "th"] table).isEmpty).map (headerless origin)

end Tables

/-- The rule that tables have headers. -/
def tableStructure : Rule :=
  ⟨Tables.id, "Tables have header cells", fun document origin => .ok (Tables.examine document origin),
    true, false, ["1.3.1"]⟩

end Rule

end TemplateAudit
