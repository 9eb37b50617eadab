/-!
# Text

Templates, markup, attribute values and messages are lists of characters, so that every rule of
this library is a recursion over the characters it reads.  This file holds the operations that do
not depend on what kind of character is met: looking for a part, cutting at it, splitting,
replacing and joining.
-/

namespace TemplateAudit

/-- A text is the list of its characters. -/
abbrev Text := List Char

instance : Coe String Text := ⟨String.toList⟩

namespace Text

/-! ## Decisions

What is said of the characters of a text is decided along the text.  Without these instances an instance
that tries every character there is may be taken. -/

instance : LawfulBEq Text := inferInstance

instance decidableForallMem (p : Char → Prop) [DecidablePred p] (text : Text) :
    Decidable (∀ c ∈ text, p c) :=
  List.decidableBAll p text

instance decidableExistsMem (p : Char → Prop) [DecidablePred p] (text : Text) :
    Decidable (∃ c ∈ text, p c) :=
  List.decidableBEx p text

instance decidableForallMemOption (p : Char → Prop) [DecidablePred p] (c? : Option Char) :
    Decidable (∀ c ∈ c?, p c) :=
  Option.decidableForallMem c?

/-! ## Order and ends -/

/-- The order of texts by the code points of their characters: `s` comes before `t` or is `t`. -/
def atMost : Text → Text → Bool
  | [], _ => true
  | _ :: _, [] => false
  | c :: s, d :: t => if c = d then atMost s t else c.toNat < d.toNat

theorem atMost_cons (c d : Char) (s t : Text) :
    atMost (c :: s) (d :: t) ↔ c.toNat < d.toNat ∨ c = d ∧ atMost s t := by
  rw [atMost]
  split
  · rename_i hsame
    simp [hsame]
  · rename_i hdiffer
    simp [hdiffer]

theorem atMost_total (s t : Text) : atMost s t || atMost t s := by
  rw [Bool.or_eq_true]
  induction s generalizing t with
  | nil => exact .inl rfl
  | cons c s ih =>
    cases t with
    | nil => exact .inr rfl
    | cons d t =>
      rw [atMost_cons, atMost_cons]
      by_cases hsame : c = d
      · exact (ih t).imp (fun h => .inr ⟨hsame, h⟩) fun h => .inr ⟨hsame.symm, h⟩
      · have hdiffer : c.toNat ≠ d.toNat := fun heq => hsame (Char.toNat_inj.1 heq)
        exact (Nat.lt_or_gt_of_ne hdiffer).imp .inl .inl

theorem atMost_trans (s t u : Text) (hst : atMost s t) (htu : atMost t u) : atMost s u := by
  induction s generalizing t u with
  | nil => rfl
  | cons c s ih =>
    cases t with
    | nil => cases hst
    | cons d t =>
      cases u with
      | nil => cases htu
      | cons e u =>
        rw [atMost_cons] at hst htu ⊢
        rcases hst with hless | ⟨rfl, hst⟩
        · rcases htu with hless' | ⟨rfl, -⟩
          · exact .inl (Nat.lt_trans hless hless')
          · exact .inl hless
        · exact htu.imp_right fun htu => ⟨htu.1, ih t u hst htu.2⟩

/-- Does a text begin with `start`? -/
def startsWith (start s : Text) : Bool :=
  start.isPrefixOf s

/-- Does a text end in `ending`? -/
def endsWith (ending s : Text) : Bool :=
  ending.isSuffixOf s

/-! ## Finding a part -/

/-- Does `part` stand somewhere in the text? -/
def occursIn (part : Text) : Text → Bool
  | [] => part.isEmpty
  | c :: s => part.isPrefixOf (c :: s) || occursIn part s

/-- The text before the first place where `part` stands, and the text after it. -/
def cutAt (part : Text) : Text → Option (Text × Text)
  | [] => if part.isEmpty then some ([], []) else none
  | c :: s =>
    match part.isPrefixOf? (c :: s) with
    | some rest => some ([], rest)
    | none => (cutAt part s).map fun cut => (c :: cut.1, cut.2)

/-- The text before the first `mark` and the text after it. -/
def cutAtChar (mark : Char) : Text → Option (Text × Text)
  | [] => none
  | c :: s => if c = mark then some ([], s) else (cutAtChar mark s).map fun cut => (c :: cut.1, cut.2)

theorem cutAtChar_eq_some {mark : Char} {s before after : Text}
    (h : cutAtChar mark s = some (before, after)) : s = before ++ mark :: after := by
  induction s generalizing before with
  | nil => cases h
  | cons c s ih =>
    rw [cutAtChar] at h
    split at h
    · rename_i hc
      cases h
      rw [hc, List.nil_append]
    · obtain ⟨cut, hcut, heq⟩ := Option.map_eq_some_iff.1 h
      cases heq
      rw [ih hcut, List.cons_append]

/-- The text before the last `mark` and the text after it. -/
def cutAtLast (mark : Char) : Text → Option (Text × Text)
  | [] => none
  | c :: s =>
    match cutAtLast mark s with
    | some cut => some (c :: cut.1, cut.2)
    | none => if c = mark then some ([], s) else none

/-- The text that `s` has in front of `rest`, when `rest` is what a reader of `s` left over. -/
def consumed (s rest : Text) : Text :=
  s.take (s.length - rest.length)

/-! ## Splitting and joining -/

/-- The pieces between the places where `part` stands, the first piece apart; `skip` characters
of a match still have to be passed over. -/
def splitFrom (part : Text) : Nat → Text → Text × List Text
  | _, [] => ([], [])
  | skip + 1, _ :: s => splitFrom part skip s
  | 0, c :: s =>
    if part.isPrefixOf (c :: s) then
      let pieces := splitFrom part (part.length - 1) s
      ([], pieces.1 :: pieces.2)
    else
      let pieces := splitFrom part 0 s
      (c :: pieces.1, pieces.2)

/-- The pieces of a text between the places where the non-empty `part` stands. -/
def splitOn (part s : Text) : List Text :=
  let pieces := splitFrom part 0 s
  pieces.1 :: pieces.2

/-- The pieces of a text between the places where `mark` stands. -/
def splitAtChar (mark : Char) : Text → List Text
  | [] => [[]]
  | c :: s =>
    if c = mark then [] :: splitAtChar mark s
    else
      match splitAtChar mark s with
      | [] => [[c]]
      | piece :: pieces => (c :: piece) :: pieces

/-- The lines of a text; a final newline is followed by an empty line. -/
def lines (s : Text) : List Text :=
  splitAtChar '\n' s

/-- How many newlines a text holds. -/
def newlines (s : Text) : Nat :=
  s.count '\n'

/-- The pieces in order, with `separator` between neighbours. -/
def join (separator : Text) : List Text → Text
  | [] => []
  | [piece] => piece
  | piece :: pieces => piece ++ separator ++ join separator pieces

/-- Every character replaced by a text. -/
def substitute (f : Char → Text) (s : Text) : Text :=
  s.flatMap f

/-- Every `old` replaced by `new`. -/
def replaceChar (old new : Char) (s : Text) : Text :=
  s.map fun c => if c = old then new else c

/-! ## Cutting at a count -/

/-- The first `limit` characters; a negative limit counts from the end. -/
def clip (limit : Int) (s : Text) : Text :=
  if 0 ≤ limit then s.take limit.toNat else s.take (s.length - limit.natAbs)

/-- A text without its final character, when that is `mark`. -/
def dropFinal (mark : Char) (s : Text) : Text :=
  if s.getLast? = some mark then s.dropLast else s

/-- The text in front of `ending`, when the text ends in it. -/
def withoutEnding? (ending s : Text) : Option Text :=
  if endsWith ending s then some (s.take (s.length - ending.length)) else none

/-! ## Reading one shape over and over -/

/-- All readings of a shape in a text, from left to right and without overlap.  The reader `shape`
sees the character before the place and the text from the place on, and gives what it read and the
text it left over; `skip` characters of the last reading still have to be passed over. -/
def readAllFrom {α : Type} (shape : Option Char → Text → Option (α × Text)) :
    Option Char → Nat → Text → List α
  | _, _, [] => []
  | _, skip + 1, c :: s => readAllFrom shape (some c) skip s
  | before, 0, c :: s =>
    match shape before (c :: s) with
    | some (a, rest) => a :: readAllFrom shape (some c) (s.length - rest.length) s
    | none => readAllFrom shape (some c) 0 s

/-- All readings of a shape in a text, from left to right and without overlap. -/
def readAll {α : Type} (shape : Option Char → Text → Option (α × Text)) (s : Text) : List α :=
  readAllFrom shape none 0 s

/-! ## Digits of a number -/

/-- A natural number in decimal digits. -/
def ofNat (n : Nat) : Text :=
  Nat.toDigits 10 n

/-- An integer in decimal digits, with a minus sign when it is negative. -/
def ofInt (n : Int) : Text :=
  if n < 0 then '-' :: ofNat n.natAbs else ofNat n.natAbs

end Text

end TemplateAudit
