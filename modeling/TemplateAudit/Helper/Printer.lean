import TemplateAudit.Helper.Call

/-!
# Writing a call

A call is written from literals: the values in order and then the options, between parentheses and with
a comma and a space between them.  A string stands in double quotes, with a backslash in front of every
double quote and backslash in it; a hash stands in braces.
-/

namespace TemplateAudit

namespace Helper

/-! ## What a call is written from -/

/-- A literal that holds no other literal. -/
inductive Atom where
  | nil
  | bool (holds : Bool)
  | str (text : Text)
  | number (digits : Text)
  | sym (name : Text)
  deriving DecidableEq, Repr

/-- A literal: an atom, or a hash of literals under keys. -/
inductive Literal where
  | atom (atom : Atom)
  | hash (entries : List (Text × Literal))
  deriving Repr, Inhabited

/-- What a call is written from. -/
structure WrittenCall where
  receiver : Option Text
  name : Text
  args : List Atom
  options : List (Text × Literal)
  block : Bool
  deriving Repr

/-! ## As text -/

/-- A character of a string as it is written between the given marks. -/
def quoteChar (mark c : Char) : Text :=
  if c = mark ∨ c = '\\' then ['\\', c] else [c]

/-- What stands between the marks of a string. -/
def escape (mark : Char) (text : Text) : Text :=
  text.flatMap (quoteChar mark)

@[simp]
theorem escape_nil (mark : Char) : escape mark [] = [] := rfl

theorem escape_cons (mark c : Char) (text : Text) :
    escape mark (c :: text) = quoteChar mark c ++ escape mark text := rfl

/-- A string as it is written between the given marks. -/
def quote (mark : Char) (text : Text) : Text :=
  mark :: (escape mark text ++ [mark])

/-- An atom as it is written. -/
def Atom.print : Atom → Text
  | nil => "nil"
  | bool holds => if holds then "true" else "false"
  | str text => quote '"' text
  | number digits => digits
  | sym name => ':' :: name

mutual

/-- A literal as it is written. -/
def Literal.print : Literal → Text
  | .atom atom => atom.print
  | .hash entries => '\x7b' :: ' ' :: (Text.join ", " (printEntries entries) ++ [' ', '\x7d'])

/-- The entries of a hash as they are written. -/
def printEntries : List (Text × Literal) → List Text
  | [] => []
  | (key, value) :: entries => (key ++ ':' :: ' ' :: value.print) :: printEntries entries

end

/-- A call as it is written. -/
def WrittenCall.print (call : WrittenCall) : Text :=
  let receiver := (call.receiver.map (· ++ ['.'])).getD []
  let arguments := Text.join ", " (call.args.map Atom.print ++ printEntries call.options)
  receiver ++ call.name ++ '(' :: (arguments ++ ')' :: if call.block then " do |f|" else "")

/-! ## What is meant -/

/-- The value of an atom; a number is its digits. -/
def Atom.value : Atom → Value
  | nil => .nil
  | bool holds => .bool holds
  | str text => .str text
  | number digits => .str digits
  | sym name => .sym name

mutual

/-- The value of a literal. -/
def Literal.value : Literal → Value
  | .atom atom => atom.value
  | .hash entries => .hash (entryValues entries)

/-- The values of entries under their keys. -/
def entryValues : List (Text × Literal) → List (Text × Value)
  | [] => []
  | (key, value) :: entries => (key, value.value) :: entryValues entries

end

/-- The call that is written. -/
def WrittenCall.call (call : WrittenCall) : Call :=
  ⟨call.receiver, call.name, call.args.map Atom.value, entryValues call.options, call.block⟩

/-! ## What can be written -/

/-- Does a text begin as asked and go on with letters, numerals and underscores? -/
def IsWord (begins : Char → Bool) : Text → Prop
  | [] => False
  | c :: s => begins c = true ∧ ∀ d ∈ s, Text.isWordChar d = true

instance (begins : Char → Bool) : ∀ text, Decidable (IsWord begins text)
  | [] => inferInstanceAs (Decidable False)
  | _ :: _ => inferInstanceAs (Decidable (_ ∧ _))

/-- A key, or the name of a symbol but for its mark. -/
def IsKey (text : Text) : Prop :=
  IsWord Text.beginsIdentifier text

/-- The name of a helper or of a receiver. -/
def IsHelperName (text : Text) : Prop :=
  IsWord beginsName text

instance (text : Text) : Decidable (IsKey text) :=
  inferInstanceAs (Decidable (IsWord _ text))

instance (text : Text) : Decidable (IsHelperName text) :=
  inferInstanceAs (Decidable (IsWord _ text))

/-- A string holds no beginning of an expression, a number is one, and a symbol has a name that may end
in a question or exclamation mark. -/
def Atom.IsWritable : Atom → Prop
  | nil | bool _ => True
  | str text => ¬['#', '\x7b'] <:+: text
  | number digits => isNumber digits = true
  | sym name => IsKey name ∨ ∃ mark ∈ ['?', '!'], name.getLast? = some mark ∧ IsKey name.dropLast

instance : ∀ atom : Atom, Decidable atom.IsWritable
  | .nil | .bool _ => inferInstanceAs (Decidable True)
  | .str _ => inferInstanceAs (Decidable (¬_))
  | .number _ => inferInstanceAs (Decidable (_ = true))
  | .sym _ => inferInstanceAs (Decidable (_ ∨ _))

mutual

/-- No two entries of a hash have the same key. -/
def Literal.IsWritable : Literal → Prop
  | .atom atom => atom.IsWritable
  | .hash entries => (entries.map Prod.fst).Nodup ∧ AllWritable entries

/-- The entries can all be written. -/
def AllWritable : List (Text × Literal) → Prop
  | [] => True
  | (key, value) :: entries => IsKey key ∧ value.IsWritable ∧ AllWritable entries

end

mutual

/-- Whether a literal can be written is computed along with whether its entries can. -/
def Literal.decidableIsWritable : ∀ literal : Literal, Decidable literal.IsWritable
  | .atom atom => inferInstanceAs (Decidable atom.IsWritable)
  | .hash entries =>
    @instDecidableAnd (entries.map Prod.fst).Nodup _ _ (decidableAllWritable entries)

/-- Whether entries can be written. -/
def decidableAllWritable : ∀ entries : List (Text × Literal), Decidable (AllWritable entries)
  | [] => inferInstanceAs (Decidable True)
  | (key, value) :: entries =>
    @instDecidableAnd (IsKey key) _ _
      (@instDecidableAnd _ _ (Literal.decidableIsWritable value) (decidableAllWritable entries))

end

instance (literal : Literal) : Decidable literal.IsWritable :=
  Literal.decidableIsWritable literal

instance (entries : List (Text × Literal)) : Decidable (AllWritable entries) :=
  decidableAllWritable entries

/-- What can be written as a call: the name and the receiver are names, no two options have the same key,
and all values can be written. -/
structure WrittenCall.IsWritable (call : WrittenCall) : Prop where
  name : IsHelperName call.name
  receiver : ∀ receiver ∈ call.receiver, IsHelperName receiver
  args : ∀ arg ∈ call.args, arg.IsWritable
  distinct : (call.options.map Prod.fst).Nodup
  options : AllWritable call.options

instance (call : WrittenCall) : Decidable call.IsWritable :=
  decidable_of_iff
    (IsHelperName call.name ∧ (∀ receiver ∈ call.receiver, IsHelperName receiver) ∧
      (∀ arg ∈ call.args, arg.IsWritable) ∧ (call.options.map Prod.fst).Nodup ∧
      AllWritable call.options)
    ⟨fun ⟨name, receiver, args, distinct, options⟩ => ⟨name, receiver, args, distinct, options⟩,
      fun h => ⟨h.name, h.receiver, h.args, h.distinct, h.options⟩⟩

end Helper

end TemplateAudit
