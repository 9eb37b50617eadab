import TemplateAudit.Helper.Arguments
import TemplateAudit.Pairs
import TemplateAudit.Text.Letter

/-!
# Literal values in template code

An argument in template code is a Ruby literal or an expression whose value is known only when the
template is rendered.  `Value.read` tells them apart; a literal is read, anything else is kept as
its source text.
-/

namespace TemplateAudit

namespace Helper

/-- What stands in markup for a value that is known only when the template is rendered. -/
def placeholder : Text :=
  "ERB_OUTPUT"

/-- A value as far as it is known from the source. -/
inductive Value where
  /-- The value `nil`. -/
  | nil
  /-- The values `true` and `false`. -/
  | bool (holds : Bool)
  /-- A string, or a number as it is written. -/
  | str (text : Text)
  /-- A symbol, without its colon. -/
  | sym (name : Text)
  /-- An expression with its source text. -/
  | dynamic (source : Text)
  /-- A hash, in order of first entry. -/
  | hash (entries : List (Text × Value))
  deriving Repr, Inhabited

/-! ## Strings -/

/-- The text between the opening mark of a string and the mark that ends it, when that is the last
character; a backslash protects the character after it. -/
def stringBody? (quote : Char) : Text → Option Text
  | [] => none
  | '\\' :: c :: s => (stringBody? quote s).map fun body => '\\' :: c :: body
  | c :: s =>
    if c = quote then (if s.isEmpty then some [] else none)
    else if c = '\\' then none
    else (stringBody? quote s).map (c :: ·)

/-- The body of a literal that is one string in the given marks. -/
def quoted? (quote : Char) : Text → Option Text
  | [] => none
  | c :: s => if c = quote then stringBody? quote s else none

/-- A backslash gives way to the character after it, a newline apart. -/
def unescape : Text → Text
  | [] => []
  | '\\' :: c :: s => if c = '\n' then '\\' :: c :: unescape s else c :: unescape s
  | c :: s => c :: unescape s

/-- The text with `filler` for each expression `#{…}` in it; an expression ends at the first closing
brace.  `skip` characters of the last expression still have to be passed over. -/
def fillFrom (filler : Text) : Nat → Text → Text
  | _, [] => []
  | skip + 1, _ :: s => fillFrom filler skip s
  | 0, '#' :: '\x7b' :: s =>
    match Text.cutAtChar '\x7d' s with
    | some cut => filler ++ fillFrom filler (cut.1.length + 2) ('\x7b' :: s)
    | none => '#' :: fillFrom filler 0 ('\x7b' :: s)
  | 0, c :: s => c :: fillFrom filler 0 s

/-- The text with the placeholder for each expression `#{…}` in it. -/
def fillInterpolations (s : Text) : Text :=
  fillFrom placeholder 0 s

/-! ## Other literals -/

/-- The name of a symbol literal: an identifier, and at most one `?` or `!` after it. -/
def symbol? : Text → Option Text
  | ':' :: s =>
    match Text.identifier? s with
    | some (_, []) | some (_, ['?']) | some (_, ['!']) => some s
    | _ => none
  | _ => none

/-- The text between the braces of a literal that begins and ends in one. -/
def braced? : Text → Option Text
  | '\x7b' :: s => if s.getLast? = some '\x7d' then some s.dropLast else none
  | _ => none

/-- Is the text one or more decimal digits? -/
def isDigits (s : Text) : Bool :=
  !s.isEmpty && s.all Text.isDecimalDigit

/-- Is the text a number: digits, perhaps with a minus sign before and a fraction after them? -/
def isNumber (s : Text) : Bool :=
  let unsigned := match s with
    | '-' :: digits => digits
    | digits => digits
  match Text.cutAtChar '.' unsigned with
  | some cut => isDigits cut.1 && isDigits cut.2
  | none => isDigits unsigned

/-! ## Entries of a hash -/

/-- The value after a key and the white space that may follow it. -/
def afterArrow? (s : Text) : Option Text :=
  match Text.trimStart s with
  | '=' :: '>' :: value => some (Text.trimStart value)
  | _ => none

/-- An entry `key: value`. -/
def keyedByLabel? (piece : Text) : Option (Text × Text) :=
  match Text.identifier? piece with
  | some (_, ':' :: ':' :: _) => none
  | some (key, ':' :: value) => some (key, Text.trimStart value)
  | _ => none

/-- An entry `:key => value`. -/
def keyedBySymbol? : Text → Option (Text × Text)
  | ':' :: s =>
    match Text.identifier? s with
    | some (key, rest) => (afterArrow? rest).map (key, ·)
    | none => none
  | _ => none

/-- An entry `"key" => value` or `"key": value`. -/
def keyedByString? : Text → Option (Text × Text)
  | quote :: s =>
    let isKeyChar := fun c => Text.isWordChar c || c == '-'
    let key := s.takeWhile isKeyChar
    match s.dropWhile isKeyChar with
    | quote' :: rest =>
      if isQuote quote && !key.isEmpty && isQuote quote' then
        match Text.trimStart rest with
        | ':' :: value => some (key, Text.trimStart value)
        | _ => (afterArrow? rest).map (key, ·)
      else none
    | [] => none
  | [] => none

/-- The key of an entry and the text of its value. -/
def keyed? (piece : Text) : Option (Text × Text) :=
  (keyedByLabel? piece).or ((keyedBySymbol? piece).or (keyedByString? piece))

/-! ## Lengths -/

theorem length_identifier?_le {s name rest : Text} (h : Text.identifier? s = some (name, rest)) :
    rest.length ≤ s.length := by
  unfold Text.identifier? at h
  split at h
  · simp at h
  · split at h
    · cases h
      exact Nat.le_succ_of_le (Text.length_dropWhile_le _ _)
    · simp at h

theorem length_afterArrow?_le {s value : Text} (h : afterArrow? s = some value) :
    value.length ≤ s.length := by
  unfold afterArrow? at h
  split at h
  · next rest heq =>
    cases h
    have h₁ := Text.length_trimStart_le rest
    have h₂ := Text.length_trimStart_le s
    rw [heq] at h₂
    simp only [List.length_cons] at h₂
    omega
  · simp at h

theorem length_keyedByLabel?_le {piece key value : Text} (h : keyedByLabel? piece = some (key, value)) :
    value.length ≤ piece.length := by
  unfold keyedByLabel? at h
  split at h
  · simp at h
  · next key' value' _ heq =>
    cases h
    have h₁ := length_identifier?_le heq
    have h₂ := Text.length_trimStart_le value'
    simp only [List.length_cons] at h₁
    omega
  · simp at h

theorem length_keyedBySymbol?_le {piece key value : Text}
    (h : keyedBySymbol? piece = some (key, value)) : value.length ≤ piece.length := by
  unfold keyedBySymbol? at h
  split at h
  · split at h
    · next key' rest heq =>
      obtain ⟨value', hv, hkv⟩ := Option.map_eq_some_iff.1 h
      cases hkv
      have h₁ := length_identifier?_le heq
      have h₂ := length_afterArrow?_le hv
      simp only [List.length_cons]
      omega
    · simp at h
  · simp at h

theorem length_keyedByString?_le {piece key value : Text}
    (h : keyedByString? piece = some (key, value)) : value.length ≤ piece.length := by
  unfold keyedByString? at h
  split at h
  · next quote s =>
    dsimp only at h
    split at h
    · next quote' rest heq =>
      have h₁ := Text.length_dropWhile_le (fun c => Text.isWordChar c || c == '-') s
      rw [heq] at h₁
      simp only [List.length_cons] at h₁ ⊢
      split at h
      · split at h
        · next value' hv =>
          cases h
          have h₂ := Text.length_trimStart_le rest
          have h₃ := Text.length_trimStart_le value'
          rw [hv] at h₂
          simp only [List.length_cons] at h₂
          omega
        · obtain ⟨value', hv, hkv⟩ := Option.map_eq_some_iff.1 h
          cases hkv
          have h₂ := length_afterArrow?_le hv
          omega
      · simp at h
    · simp at h
  · simp at h

theorem length_keyed?_le {piece key value : Text} (h : keyed? piece = some (key, value)) :
    value.length ≤ piece.length := by
  unfold keyed? at h
  rcases Option.or_eq_some_iff.1 h with h | ⟨-, h⟩
  · exact length_keyedByLabel?_le h
  · rcases Option.or_eq_some_iff.1 h with h | ⟨-, h⟩
    · exact length_keyedBySymbol?_le h
    · exact length_keyedByString?_le h

theorem length_braced?_lt {s body : Text} (h : braced? s = some body) : body.length < s.length := by
  unfold braced? at h
  split at h
  · split at h
    · cases h
      simp only [List.length_dropLast, List.length_cons]
      omega
    · simp at h
  · simp at h

/-! ## Reading a value -/

/-- The value that a text stands for. -/
def Value.read (text : Text) : Value :=
  let s := Text.trim text
  match quoted? '"' s with
  | some body => .str (fillInterpolations (unescape body))
  | none =>
    match quoted? '\'' s with
    | some body => .str (unescape body)
    | none =>
      match symbol? s with
      | some name => .sym name
      | none =>
        match hb : braced? s with
        | some body =>
          .hash (Pairs.ofEntries ((pieces ',' body).attach.filterMap fun piece =>
            match he : keyed? piece.val with
            | some entry => some (entry.1, Value.read entry.2)
            | none => none))
        | none =>
          if isNumber s then .str s
          else if s = "true" then .bool true
          else if s = "false" then .bool false
          else if s = "nil" then .nil
          else .dynamic s
termination_by text.length
decreasing_by
  have h₁ := length_keyed?_le he
  have h₂ := length_le_of_mem_pieces piece.property
  have h₃ := length_braced?_lt hb
  have h₄ : s.length ≤ text.length := Text.length_trim_le text
  omega

/-- The entries of a hash without its braces; what is no entry is passed over. -/
def readEntries (body : Text) : List (Text × Value) :=
  Pairs.ofEntries ((pieces ',' body).filterMap fun piece =>
    (keyed? piece).map fun entry => (entry.1, Value.read entry.2))

end Helper

end TemplateAudit
