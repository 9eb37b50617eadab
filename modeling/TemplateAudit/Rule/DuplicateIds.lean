import TemplateAudit.Helper.Value
import TemplateAudit.Rule.Basic

/-!
# Ids are unique

No two elements of a page have the same id.  An id that is only known when the template is rendered
is left alone: two of them may well differ.
-/

namespace TemplateAudit

namespace Rule

namespace DuplicateIds

/-- The name of the rule. -/
def id : Text :=
  "duplicate_ids"

/-- The elements with an id. -/
def withId : Css.Selector :=
  [Css.withAttr "id"]

/-- The id of an element, if it can be compared with others: it is not blank and wholly known. -/
def comparable? (place : Html.Place) : Option Text :=
  match place.attr? "id" with
  | some value =>
    if Text.saysNothing value || Text.occursIn Helper.placeholder value then none else some value
  | none => none

/-- The elements of a document whose ids can be compared, with their ids. -/
def comparableIds (document : Html.Document) : List (Html.Place × Text) :=
  (Css.select withId document).filterMap fun place => (comparable? place).map (place, ·)

/-- The finding on an element whose id occurs `total` times; `occurrence` counts the elements with the
id in front of it in its own template. -/
def duplicate (place : Html.Place) (value : Text) (total occurrence : Nat) (origin : Origin) : Finding :=
  report id ("Duplicate ID '" ++ value ++ "' found")
    (describe place origin.textLimit
      [("occurrences", .int total), ("occurrence", .int occurrence)])
    origin "4.1.1"
    ("Ensure each ID is unique on the page. For ids built in a loop, include the record: " ++
      "id: \"item_#\x7bitem.id\x7d\"")
    .error

/-- The findings on a document: one for each element after the first with its id. -/
def examine (document : Html.Document) (origin : Origin) : List Finding :=
  let entries := comparableIds document
  let totals := Pairs.counts (entries.map (·.2))
  ((Pairs.numbered (·.2) entries).filter fun entry => entry.2 ≠ 0).map fun entry =>
    duplicate entry.1.1 entry.1.2 ((Pairs.get? entry.1.2 totals).getD 0) entry.2 origin

end DuplicateIds

/-- The rule that ids are unique. -/
def duplicateIds : Rule :=
  ⟨DuplicateIds.id, "Element ids are unique",
    fun document origin => .ok (DuplicateIds.examine document origin), true, true, ["4.1.1"]⟩

end Rule

end TemplateAudit
