import TemplateAudit.Proofs.Decimal.Digits
import TemplateAudit.Proofs.Json.Strings
import TemplateAudit.Proofs.Text.Parts

/-!
# Written values differ

What is written for a value as short as it can be tells the value, and where it ends in a longer text
(`writeAt_append_inj`), as long as the value holds no number with a binary point.  The character it begins with
tells what kind of value it is (`kindOf`).  A string is told by the quote that ends it, a number by the first
character that is none of its digits, and items by the comma or the bracket behind each of them
(`join_append_inj`).
-/

namespace TemplateAudit

namespace Json

variable {rest rest' : Text} {v w : Json} {depth : Nat}

/-! ## Values without binary points -/

/-- No number with a binary point is in a value, however deep. -/
inductive FloatFree : Json → Prop
  | null : FloatFree .null
  | bool (holds : Bool) : FloatFree (.bool holds)
  | int (n : Int) : FloatFree (.int n)
  | str (text : Text) : FloatFree (.str text)
  | arr {items : List Json} (h : ∀ item ∈ items, FloatFree item) : FloatFree (.arr items)
  | obj {fields : List (Text × Json)} (h : ∀ field ∈ fields, FloatFree field.2) : FloatFree (.obj fields)

attribute [simp] FloatFree.null FloatFree.bool FloatFree.int FloatFree.str

@[simp]
theorem floatFree_obj_iff {fields : List (Text × Json)} :
    FloatFree (.obj fields) ↔ ∀ field ∈ fields, FloatFree field.2 :=
  ⟨fun | .obj h => h, .obj⟩

/-! ## Numbers -/

/-- Is the character a sign or a digit? -/
def isNumberChar (c : Char) : Bool :=
  c == '-' || c.isDigit

/-- No number goes on at a text. -/
def StopsNumber (rest : Text) : Prop :=
  ∀ c ∈ rest.head?, isNumberChar c = false

theorem stopsNumber_nil : StopsNumber [] :=
  fun _ hc => absurd hc (Option.not_mem_none _)

theorem stopsNumber_cons {c : Char} (h : isNumberChar c = false) : StopsNumber (c :: rest) :=
  fun _ hd => Option.some.inj hd ▸ h

theorem mem_ofInt {n : Int} {c : Char} (h : c ∈ Text.ofInt n) : c = '-' ∧ n < 0 ∨ c.isDigit = true := by
  rw [Text.ofInt] at h
  split at h
  · rename_i hneg
    exact (List.mem_cons.1 h).imp (⟨·, hneg⟩) (Decimal.allDigits_ofNat _ c)
  · exact .inr (Decimal.allDigits_ofNat _ c h)

theorem ofInt_injective {n m : Int} (h : Text.ofInt n = Text.ofInt m) : n = m := by
  have hsign : ∀ {n}, n < 0 ↔ '-' ∈ Text.ofInt n := fun {n} => by
    refine ⟨fun hneg => ?_, fun hmem => ((mem_ofInt hmem).resolve_right (by decide)).2⟩
    rw [Text.ofInt, if_pos hneg]
    exact List.mem_cons_self
  have hdigits : ∀ {a b : Nat}, Text.ofNat a = Text.ofNat b → a = b := fun {a b} heq => by
    rw [← Decimal.natOfDigits_ofNat a, heq, Decimal.natOfDigits_ofNat]
  have hsame : n < 0 ↔ m < 0 := by rw [hsign, hsign, h]
  by_cases hneg : n < 0
  · rw [Text.ofInt, Text.ofInt, if_pos hneg, if_pos (hsame.1 hneg)] at h
    have := hdigits (List.cons.inj h).2
    omega
  · rw [Text.ofInt, Text.ofInt, if_neg hneg, if_neg (hneg ∘ hsame.2)] at h
    have := hdigits h
    omega

theorem isNumberChar_of_mem_ofInt {n : Int} {c : Char} (h : c ∈ Text.ofInt n) :
    isNumberChar c = true := by
  rcases mem_ofInt h with ⟨rfl, -⟩ | hdigit
  · rfl
  · rw [isNumberChar, hdigit, Bool.or_true]

/-- The digits of a number tell the number, and where it ends. -/
theorem ofInt_append_inj {n m : Int} (hrest : StopsNumber rest) (hrest' : StopsNumber rest')
    (h : Text.ofInt n ++ rest = Text.ofInt m ++ rest') : n = m ∧ rest = rest' := by
  obtain ⟨hnumber, hrest⟩ := Text.append_eq_append_of_stop
    (fun _ => isNumberChar_of_mem_ofInt) (fun _ => isNumberChar_of_mem_ofInt) hrest hrest' h
  exact ⟨ofInt_injective hnumber, hrest⟩

theorem ofInt_ne_nil (n : Int) : Text.ofInt n ≠ [] := by
  rw [Text.ofInt]
  split
  · exact List.cons_ne_nil _ _
  · exact Nat.toDigits_ne_nil

/-! ## Values with items -/

/-- A field as it is written for a key. -/
def writeField (depth : Nat) (field : Text × Json) : Text :=
  writeString false field.1 ++ ':' :: writeAt keyStyle depth field.2

theorem enclose_keyStyle (first last : Char) (items : List Text) :
    keyStyle.enclose depth first last items = first :: (Text.join [','] items ++ [last]) := by
  cases items with
  | nil => rfl
  | cons item items => exact congrArg (first :: · ++ [last]) (List.append_nil _)

theorem writeAt_arr (items : List Json) : writeAt keyStyle depth (.arr items) =
    '[' :: (Text.join [','] (items.map (writeAt keyStyle (depth + 1))) ++ [']']) := by
  have hitems : ∀ {depth}, writeItems keyStyle depth items = items.map (writeAt keyStyle depth) := fun {depth} => by
    induction items with
    | nil => rfl
    | cons item items ih => rw [writeItems, ih, List.map_cons]
  rw [writeAt, enclose_keyStyle, hitems]

theorem writeAt_obj (fields : List (Text × Json)) : writeAt keyStyle depth (.obj fields) =
    '\x7b' :: (Text.join [','] (fields.map (writeField (depth + 1))) ++ ['\x7d']) := by
  have hfields : ∀ {depth}, writeFields keyStyle depth fields = fields.map (writeField depth) := fun {depth} => by
    induction fields with
    | nil => rfl
    | cons field fields ih =>
      rw [writeFields, ih, List.map_cons, writeField, List.append_assoc]
      rfl
  rw [writeAt, enclose_keyStyle, hfields]

/-! ## What a value begins with -/

/-- The kinds of values. -/
inductive Kind where
  | null
  | bool
  | number
  | string
  | array
  | object
  deriving DecidableEq

/-- The kind of a value. -/
def kind : Json → Kind
  | null => .null
  | bool _ => .bool
  | int _ => .number
  | float _ => .number
  | str _ => .string
  | arr _ => .array
  | obj _ => .object

/-- The kind of the values that are written with a given character in front, if there are any. -/
def kindOf : Char → Option Kind
  | 'n' => some .null
  | 't' => some .bool
  | 'f' => some .bool
  | '"' => some .string
  | '[' => some .array
  | '\x7b' => some .object
  | c => if isNumberChar c then some .number else none

theorem kindOf_of_mem_ofInt {n : Int} {c : Char} (h : c ∈ Text.ofInt n) : kindOf c = some .number := by
  have hc := isNumberChar_of_mem_ofInt h
  unfold kindOf
  split <;> first | exact absurd hc (by decide) | exact if_pos hc

/-- The character in front of what is written tells the kind of the value. -/
theorem writeAt_eq_cons (depth : Nat) (hv : FloatFree v) :
    ∃ c s, writeAt keyStyle depth v = c :: s ∧ kindOf c = some v.kind := by
  cases hv with
  | null => exact ⟨'n', _, rfl, rfl⟩
  | bool holds =>
    cases holds
    · exact ⟨'f', _, rfl, rfl⟩
    · exact ⟨'t', _, rfl, rfl⟩
  | int n =>
    obtain ⟨c, s, heq⟩ := List.exists_cons_of_ne_nil (ofInt_ne_nil n)
    exact ⟨c, s, heq, kindOf_of_mem_ofInt (heq ▸ List.mem_cons_self)⟩
  | str text => exact ⟨'"', _, rfl, rfl⟩
  | arr => exact ⟨'[', _, writeAt_arr _, rfl⟩
  | obj => exact ⟨'\x7b', _, writeAt_obj _, rfl⟩

theorem kind_eq_of_append_eq (hv : FloatFree v) (hw : FloatFree w)
    (h : writeAt keyStyle depth v ++ rest = writeAt keyStyle depth w ++ rest') : v.kind = w.kind := by
  obtain ⟨c, s, hc, hkind⟩ := writeAt_eq_cons depth hv
  obtain ⟨d, t, hd, hkind'⟩ := writeAt_eq_cons depth hw
  rw [hc, hd] at h
  rw [(List.cons.inj h).1, hkind'] at hkind
  exact (Option.some.inj hkind).symm

/-! ## Items -/

section Items

variable {α : Type} {write : α → Text} {last : Char}

theorem join_cons (piece : Text) (pieces : List Text) :
    Text.join [','] (piece :: pieces) = piece ++ pieces.flatMap (',' :: ·) := by
  induction pieces generalizing piece with
  | nil => rw [Text.join, List.flatMap_nil, List.append_nil]
  | cons next pieces ih =>
    rw [Text.join, ih, List.flatMap_cons, List.append_assoc]
    · rfl
    · exact List.cons_ne_nil _ _

variable (hlast : isNumberChar last = false) (hcomma : last ≠ ',')
include hlast

/-- No number goes on where further items or the end of the items follow. -/
theorem stopsNumber_items (xs : List Text) (rest : Text) :
    StopsNumber (xs.flatMap (',' :: ·) ++ last :: rest) := by
  cases xs with
  | nil => exact stopsNumber_cons hlast
  | cons x xs => exact stopsNumber_cons (by decide)

include hcomma

/-- Further items are told apart by what tells each of them. -/
theorem flatMap_append_inj {xs ys : List α}
    (hitem : ∀ x ∈ xs, ∀ y ∈ ys, ∀ {rest rest'}, StopsNumber rest → StopsNumber rest' →
      write x ++ rest = write y ++ rest' → x = y ∧ rest = rest')
    (h : (xs.map write).flatMap (',' :: ·) ++ last :: rest = (ys.map write).flatMap (',' :: ·) ++ last :: rest') :
    xs = ys ∧ rest = rest' := by
  induction xs generalizing ys with
  | nil =>
    cases ys with
    | nil => exact ⟨rfl, (List.cons.inj h).2⟩
    | cons y ys => exact absurd (List.cons.inj h).1 hcomma
  | cons x xs ih =>
    cases ys with
    | nil => exact absurd (List.cons.inj h).1.symm hcomma
    | cons y ys =>
      rw [List.map_cons, List.map_cons, List.flatMap_cons, List.flatMap_cons, List.append_assoc,
        List.append_assoc] at h
      obtain ⟨rfl, hmore⟩ := hitem x List.mem_cons_self y List.mem_cons_self
        (stopsNumber_items hlast _ _) (stopsNumber_items hlast _ _) (List.cons.inj h).2
      obtain ⟨rfl, hrest⟩ := ih (fun x hx y hy => hitem x (List.mem_cons_of_mem _ hx) y
        (List.mem_cons_of_mem _ hy)) hmore
      exact ⟨rfl, hrest⟩

/-- Items with a comma between them are told apart by what tells each of them. -/
theorem join_append_inj {xs ys : List α}
    (hbegins : ∀ x, x ∈ xs ∨ x ∈ ys → ∃ c s, write x = c :: s ∧ c ≠ last)
    (hitem : ∀ x ∈ xs, ∀ y ∈ ys, ∀ {rest rest'}, StopsNumber rest → StopsNumber rest' →
      write x ++ rest = write y ++ rest' → x = y ∧ rest = rest')
    (h : Text.join [','] (xs.map write) ++ last :: rest = Text.join [','] (ys.map write) ++ last :: rest') :
    xs = ys ∧ rest = rest' := by
  cases xs with
  | nil =>
    cases ys with
    | nil => exact ⟨rfl, (List.cons.inj h).2⟩
    | cons y ys =>
      obtain ⟨c, s, heq, hne⟩ := hbegins y (.inr List.mem_cons_self)
      rw [List.map_cons, join_cons, heq] at h
      exact absurd (List.cons.inj h).1.symm hne
  | cons x xs =>
    cases ys with
    | nil =>
      obtain ⟨c, s, heq, hne⟩ := hbegins x (.inl List.mem_cons_self)
      rw [List.map_cons, join_cons, heq] at h
      exact absurd (List.cons.inj h).1 hne
    | cons y ys =>
      rw [List.map_cons, List.map_cons, join_cons, join_cons, List.append_assoc, List.append_assoc] at h
      obtain ⟨rfl, hmore⟩ := hitem x List.mem_cons_self y List.mem_cons_self
        (stopsNumber_items hlast _ _) (stopsNumber_items hlast _ _) h
      obtain ⟨rfl, hrest⟩ := flatMap_append_inj hlast hcomma (fun x hx y hy => hitem x
        (List.mem_cons_of_mem _ hx) y (List.mem_cons_of_mem _ hy)) hmore
      exact ⟨rfl, hrest⟩

end Items

/-! ## Values -/

/-- What is written for a value tells the value, and where it ends. -/
theorem writeAt_append_inj (hv : FloatFree v) (hw : FloatFree w) (hrest : StopsNumber rest)
    (hrest' : StopsNumber rest') (h : writeAt keyStyle depth v ++ rest = writeAt keyStyle depth w ++ rest') :
    v = w ∧ rest = rest' := by
  -- what stands behind an item is not the end of the text, so that the rests are part of the induction; the first
  -- character leaves one kind for the other value in each case
  induction hv generalizing w depth rest rest' with
  | null =>
    have hkind := kind_eq_of_append_eq .null hw h
    cases hw <;> cases hkind
    exact ⟨rfl, List.append_cancel_left h⟩
  | bool holds =>
    have hkind := kind_eq_of_append_eq (.bool holds) hw h
    cases hw <;> cases hkind
    rename_i holds'
    cases holds <;> cases holds'
    · exact ⟨rfl, List.append_cancel_left h⟩
    · exact absurd (List.cons.inj h).1 (by decide)
    · exact absurd (List.cons.inj h).1 (by decide)
    · exact ⟨rfl, List.append_cancel_left h⟩
  | int n =>
    have hkind := kind_eq_of_append_eq (.int n) hw h
    cases hw <;> cases hkind
    obtain ⟨rfl, hrest⟩ := ofInt_append_inj hrest hrest' h
    exact ⟨rfl, hrest⟩
  | str text =>
    have hkind := kind_eq_of_append_eq (.str text) hw h
    cases hw <;> cases hkind
    obtain ⟨rfl, hrest⟩ := writeString_append_inj h
    exact ⟨rfl, hrest⟩
  | @arr items hitems ih =>
    have hkind := kind_eq_of_append_eq (.arr hitems) hw h
    cases hw <;> cases hkind
    rename_i items' hitems'
    simp only [writeAt_arr, List.cons_append, List.append_assoc, List.nil_append] at h
    have hbegins : ∀ item, item ∈ items ∨ item ∈ items' →
        ∃ c s, writeAt keyStyle (depth + 1) item = c :: s ∧ c ≠ ']' := fun item hitem => by
      obtain ⟨c, s, heq, hkind⟩ := writeAt_eq_cons (depth + 1) (hitem.elim (hitems item) (hitems' item))
      exact ⟨c, s, heq, fun hc => by rw [hc] at hkind; cases hkind⟩
    obtain ⟨rfl, hrest⟩ := join_append_inj (by decide) (by decide) hbegins
      (fun x hx y hy => ih x hx (hitems' y hy)) (List.cons.inj h).2
    exact ⟨rfl, hrest⟩
  | @obj fields hfields ih =>
    have hkind := kind_eq_of_append_eq (.obj hfields) hw h
    cases hw <;> cases hkind
    rename_i fields' hfields'
    simp only [writeAt_obj, List.cons_append, List.append_assoc, List.nil_append] at h
    have hbegins : ∀ field, field ∈ fields ∨ field ∈ fields' →
        ∃ c s, writeField (depth + 1) field = c :: s ∧ c ≠ '\x7d' := fun field _ => ⟨'"', _, rfl, by decide⟩
    have hfield : ∀ field ∈ fields, ∀ field' ∈ fields', ∀ {rest rest'}, StopsNumber rest → StopsNumber rest' →
        writeField (depth + 1) field ++ rest = writeField (depth + 1) field' ++ rest' →
        field = field' ∧ rest = rest' := by
      intro field hmem field' hmem' rest rest' hrest hrest' h
      simp only [writeField, List.append_assoc, List.cons_append] at h
      obtain ⟨hname, h⟩ := writeString_append_inj h
      obtain ⟨hvalue, hrest⟩ := ih field hmem (hfields' field' hmem') hrest hrest' (List.cons.inj h).2
      exact ⟨Prod.ext hname hvalue, hrest⟩
    obtain ⟨rfl, hrest⟩ := join_append_inj (by decide) (by decide) hbegins hfield (List.cons.inj h).2
    exact ⟨rfl, hrest⟩

/-- What is written for a value by itself tells the value. -/
theorem write_injective (hv : FloatFree v) (hw : FloatFree w) (h : write keyStyle v = write keyStyle w) :
    v = w :=
  (writeAt_append_inj hv hw stopsNumber_nil stopsNumber_nil (congrArg (· ++ []) h)).1

end Json

end TemplateAudit
