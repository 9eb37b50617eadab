import TemplateAudit.Decimal.Numeral
import TemplateAudit.Json.Basic

/-!
# Data of a required shape

Data that comes from outside, a configuration or a finding, is read into a type of its own.  All that
is wrong with it is reported at once: where it stands and what is wrong with it.
-/

namespace TemplateAudit

namespace Shape

/-! ## Problems -/

/-- A step into a value. -/
inductive Step where
  | field (name : Text)
  | item (index : Nat)
  deriving DecidableEq, Repr

/-- What is wrong with a value. -/
inductive Fault where
  /-- A field without a default is not there. -/
  | missing
  /-- A text is asked for. -/
  | notText
  /-- Something that stands for true or false is asked for. -/
  | notSwitch
  /-- A number or a text stands for neither true nor false. -/
  | unclearSwitch
  /-- A whole number is asked for. -/
  | notInteger
  /-- A text writes no whole number. -/
  | unclearInteger
  /-- A number has a fraction. -/
  | fractional
  /-- A number is infinite or no number at all. -/
  | notFinite
  /-- A text writes a number of too many digits, or a number with a binary point is beyond the whole
  numbers of 64 bits. -/
  | oversized
  /-- A number is below the least one allowed. -/
  | tooSmall
  /-- A value is none of the known ones. -/
  | unknown
  /-- A line has a number below one. -/
  | noLine
  /-- An object with known fields is asked for. -/
  | notRecord
  /-- An object with any fields is asked for. -/
  | notTable
  /-- A list is asked for. -/
  | notList
  deriving DecidableEq, Repr

/-- Something wrong, and the way to it. -/
structure Problem where
  place : List Step
  fault : Fault
  deriving DecidableEq, Repr

/-- What became of reading some data: a value, or all problems in the order of the fields. -/
inductive Checked (α : Type) where
  | valid (value : α)
  | invalid (problems : List Problem)
  deriving Repr

namespace Checked

/-- The value is computed, if there is one. -/
def map {α β : Type} (f : α → β) : Checked α → Checked β
  | valid a => valid (f a)
  | invalid problems => invalid problems

/-- Two readings are put together, the problems of both in order. -/
def apply {α β : Type} : Checked (α → β) → Checked α → Checked β
  | valid f, found => found.map f
  | invalid problems, valid _ => invalid problems
  | invalid problems, invalid more => invalid (problems ++ more)

instance : Applicative Checked where
  pure := valid
  map := map
  seq f a := apply f (a ())

/-- The same reading, seen from outside the value it was made in. -/
def within {α : Type} (step : Step) : Checked α → Checked α
  | valid a => valid a
  | invalid problems =>
    invalid (problems.map fun problem => { problem with place := step :: problem.place })

/-- All readings put together. -/
def all {α : Type} : List (Checked α) → Checked (List α)
  | [] => pure []
  | found :: more => List.cons <$> found <*> all more

end Checked

/-- A value that has something wrong with it. -/
def wrong {α : Type} (fault : Fault) : Checked α :=
  .invalid [⟨[], fault⟩]

/-! ## Plain values -/

/-- A text. -/
def string : Json → Checked Text
  | .str s => pure s
  | _ => wrong .notText

/-- A value that may be null. -/
def orNull {α : Type} (shape : Json → Checked α) : Json → Checked (Option α)
  | .null => pure none
  | data => some <$> shape data

/-- What a text stands for as a switch, in letters of any case. -/
def switchNamed? (s : Text) : Option Bool :=
  let name := s.map Char.toLower
  if [("1" : Text), "on", "t", "true", "y", "yes"].contains name then some true
  else if [("0" : Text), "off", "f", "false", "n", "no"].contains name then some false
  else none

/-- The bound that the whole numbers of 64 bits stay below; its negation is the least of them. -/
def wordBound : Int := 9223372036854775808

/-- What a number of 64 bits stands for as a switch. -/
def switchNumbered (n : Int) : Checked Bool :=
  if n = 1 then pure true else if n = 0 then pure false else wrong .unclearSwitch

/-- The whole number that a number with a binary point is, when it lies strictly between the
bounds. -/
def wordOf? (x : Decimal.Double) : Option Int :=
  match x.integer? with
  | some n => if -wordBound < n ∧ n < wordBound then some n else none
  | none => none

/-- Something that stands for true or false: these themselves, one or zero, or a word for them. -/
def switch : Json → Checked Bool
  | .bool holds => pure holds
  | .int n => if -wordBound ≤ n ∧ n < wordBound then switchNumbered n else wrong .notSwitch
  | .float x =>
    match wordOf? x with
    | some n => switchNumbered n
    | none => wrong .notSwitch
  | .str s =>
    match switchNamed? s with
    | some holds => pure holds
    | none => wrong .unclearSwitch
  | _ => wrong .notSwitch

/-! ## Whole numbers written as text -/

/-- What follows some zeros and underscores, where `last` is the one passed last: it stays in front of
a point and at the end of the text.  Only a digit, a minus sign or a point may follow. -/
def afterZeros? (last : Char) : Text → Option Text
  | [] => some [last]
  | c :: s =>
    if c = '0' ∨ c = '_' then afterZeros? c s
    else if c = '.' then some (last :: c :: s)
    else if c.isDigit || c == '-' then some (c :: s)
    else none

/-- A text that begins with a digit or a minus sign, without the zeros in front. -/
def withoutLeadingZeros? : Text → Option Text
  | [] => none
  | c :: s =>
    if c = '0' then afterZeros? c s
    else if c.isDigit || c == '-' then some (c :: s)
    else none

/-- A text without a point and zeros at its end. -/
def withoutZeroFraction (s : Text) : Text :=
  match Text.cutAtChar '.' s with
  | some (whole, zeros) => if !zeros.isEmpty && zeros.all (· == '0') then whole else s
  | none => s

/-- A text without its underscores, when each stands within it and no two stand together. -/
def withoutUnderscores (s : Text) : Text :=
  if Text.startsWith ['_'] s || Text.endsWith ['_'] s || Text.occursIn ['_', '_'] s then s
  else s.filter (· != '_')

/-- A text that may write a whole number, without what does not matter: padding, a plus sign, leading
zeros, a fraction of zeros and underscores. -/
def bareInteger? (s : Text) : Option Text :=
  let unsigned := match Decimal.withoutPadding s with
    | '+' :: '-' :: _ => []
    | '+' :: t => t
    | t => t
  (withoutLeadingZeros? unsigned).map fun t => withoutUnderscores (withoutZeroFraction t)

/-- The whole number that a bare text writes: digits without a leading zero, perhaps after a minus
sign. -/
def integerBare (s : Text) : Checked Int :=
  let signed : Bool × Text := match s with
    | '-' :: t => (true, t)
    | t => (false, t)
  let digits := signed.2.takeWhile Char.isDigit
  if digits.isEmpty || (digits.length ≠ 1 && Text.startsWith ['0'] digits) then wrong .unclearInteger
  else if Decimal.mostDigits < digits.length + (if signed.1 then 1 else 0) then wrong .oversized
  else if digits.length < signed.2.length then wrong .unclearInteger
  else pure (Decimal.intOf signed.1 digits)

/-- The whole number that a text writes. -/
def integerWritten (s : Text) : Checked Int :=
  match bareInteger? s with
  | some bare => integerBare bare
  | none => wrong .unclearInteger

/-- A whole number, or something that is one. -/
def integer : Json → Checked Int
  | .int n => pure n
  | .bool holds => pure (if holds then 1 else 0)
  | .float x =>
    if x.isFinite then
      match wordOf? x, x.integer? with
      | some n, _ => pure n
      | none, some _ => wrong .oversized
      | none, none => wrong .fractional
    else wrong .notFinite
  | .str s => integerWritten s
  | _ => wrong .notInteger

/-- A whole number of at least one. -/
def positive (data : Json) : Checked Nat :=
  match integer data with
  | .valid n => if 1 ≤ n then pure n.toNat else wrong .tooSmall
  | .invalid problems => .invalid problems

/-! ## Values made of others -/

/-- Items by their indexes, from `index` on. -/
def itemsFrom {α : Type} (shape : Json → Checked α) (index : Nat) : List Json → List (Checked α)
  | [] => []
  | item :: items => (shape item).within (.item index) :: itemsFrom shape (index + 1) items

/-- A list of values of one shape. -/
def list {α : Type} (shape : Json → Checked α) : Json → Checked (List α)
  | .arr items => .all (itemsFrom shape 0 items)
  | _ => wrong .notList

/-- An object with any fields, all of one shape. -/
def table {α : Type} (shape : Json → Checked α) : Json → Checked (List (Text × α))
  | .obj fields =>
    .all (fields.map fun field => (Prod.mk field.1) <$> (shape field.2).within (.field field.1))
  | _ => wrong .notTable

/-- An object with known fields; others do not matter. -/
def record {α : Type} (shape : List (Text × Json) → Checked α) : Json → Checked α
  | .obj fields => shape fields
  | _ => wrong .notRecord

/-- A field that has to be there. -/
def required {α : Type} (name : Text) (shape : Json → Checked α) (fields : List (Text × Json)) :
    Checked α :=
  match Pairs.get? name fields with
  | some data => (shape data).within (.field name)
  | none => (wrong .missing).within (.field name)

/-- A field that has a value of its own when it is not there. -/
def withDefault {α : Type} (name : Text) (shape : Json → Checked α) (fallback : α)
    (fields : List (Text × Json)) : Checked α :=
  match Pairs.get? name fields with
  | some data => (shape data).within (.field name)
  | none => pure fallback

end Shape

end TemplateAudit
