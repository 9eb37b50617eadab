import TemplateAudit.Shape

/-!
# Which rules run

A configuration switches rules on and off and names rules to be ignored.  A rule that it does not
mention runs if it does by default.
-/

namespace TemplateAudit

open Shape

/-- A rule to be ignored, and why. -/
structure Exemption where
  rule : Text
  reason : Text
  comment : Option Text
  deriving DecidableEq, Repr

/-- A configuration of the rules. -/
structure RuleConfig where
  checks : List (Text × Bool)
  ignored : List Exemption
  deriving DecidableEq, Repr

namespace RuleConfig

/-- The configuration that leaves every rule at its default. -/
def default : RuleConfig :=
  ⟨[], []⟩

/-! ## Questions -/

/-- Is a rule switched on? -/
def isEnabled (config : RuleConfig) (rule : Text) (byDefault : Bool) : Bool :=
  (Pairs.get? rule config.checks).getD byDefault

/-- Is a rule to be ignored? -/
def isIgnored (config : RuleConfig) (rule : Text) : Bool :=
  config.ignored.any (·.rule == rule)

/-- Does a rule run? -/
def isActive (config : RuleConfig) (rule : Text) (byDefault : Bool) : Bool :=
  config.isEnabled rule byDefault && !config.isIgnored rule

/-- The rules that run, given each rule with its default. -/
def activeRules (config : RuleConfig) (defaults : List (Text × Bool)) : List Text :=
  (defaults.filter fun rule => config.isActive rule.1 rule.2).map Prod.fst

/-! ## Reading -/

/-- Why data is no configuration. -/
inductive Refusal where
  /-- Something in it is wrong. -/
  | invalid (problems : List Problem)
  /-- The rules to be ignored are given by something that has no items. -/
  | withoutItems
  deriving DecidableEq, Repr

/-- The reason of an exemption that gives none. -/
def noReason : Text :=
  "No reason provided"

/-- A rule to be ignored: its name alone, or an object that says more. -/
def exemption : Json → Checked Exemption
  | .str rule => pure ⟨rule, noReason, none⟩
  | data =>
    record (fun fields =>
      Exemption.mk <$> required "rule" string fields
        <*> withDefault "reason" string noReason fields
        <*> withDefault "comment" (orNull string) none fields) data

/-- The items of a value: those of a list, the characters of a text, the names of the fields of an
object.  A value that counts as empty has none. -/
def items? (data : Json) : Option (List Json) :=
  if data.isFalsy then some []
  else
    match data with
    | .arr items => some items
    | .str s => some (s.map fun c => .str [c])
    | .obj fields => some (fields.map fun field => .str field.1)
    | _ => none

/-- The configuration that the fields of an object give. -/
def ofFields (fields : List (Text × Json)) : Except Refusal RuleConfig :=
  match items? ((Pairs.get? ("ignored_rules" : Text) fields).getD .null) with
  | none => .error .withoutItems
  | some items =>
    let found := RuleConfig.mk <$> withDefault "checks" (table switch) [] fields
      <*> (list exemption (.arr items)).within (.field "ignored_rules")
    match found with
    | .valid config => .ok config
    | .invalid problems => .error (.invalid problems)

end RuleConfig

end TemplateAudit
