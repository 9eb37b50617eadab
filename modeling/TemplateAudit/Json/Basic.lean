import TemplateAudit.Decimal.Double
import TemplateAudit.Pairs

/-!
# JSON values

The data of configuration files, of the record of a scan and of the details of a finding.  Integers
and numbers with a binary point are told apart, and the fields of an object keep their order.
-/

namespace TemplateAudit

/-- A JSON value. -/
inductive Json where
  | null
  | bool (holds : Bool)
  | int (n : Int)
  | float (x : Decimal.Double)
  | str (text : Text)
  | arr (items : List Json)
  | obj (fields : List (Text × Json))
  deriving Repr, Inhabited

namespace Json

/-- The field of an object. -/
def field? (name : Text) : Json → Option Json
  | obj fields => Pairs.get? name fields
  | _ => none

/-- Is a value empty, zero, false or null? -/
def isFalsy : Json → Bool
  | null => true
  | bool holds => !holds
  | int n => n == 0
  | float x => x.equals (.finite false 0 0)
  | str text => text.isEmpty
  | arr items => items.isEmpty
  | obj fields => fields.isEmpty

end Json

end TemplateAudit
