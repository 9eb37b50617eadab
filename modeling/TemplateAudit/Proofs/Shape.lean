import Mathlib.Data.List.Forall2
import TemplateAudit.Shape

/-!
# What data says

Reading data of a required shape is a computation that also gathers all that is wrong.  For each shape a
relation says, without that computation, which data stands for which value: `SaysText`, `SaysSwitch` and
`SaysInteger` for plain values, and `SaysList`, `SaysTable` and `SaysOrNull` for what is made of others.
`Reads` ties the two together: a value is read exactly if the data says it.
-/

namespace TemplateAudit

namespace Shape

variable {α β : Type}

/-! ## Readings that give a value -/

namespace Checked

theorem map_eq_valid {f : α → β} {found : Checked α} {b : β} :
    f <$> found = .valid b ↔ ∃ a, found = .valid a ∧ f a = b := by
  cases found with
  | valid a => exact ⟨fun h => ⟨a, rfl, valid.inj h⟩, fun ⟨_, ha, hb⟩ => valid.inj ha ▸ congrArg valid hb⟩
  | invalid problems => exact ⟨fun h => (nomatch h), fun ⟨_, ha, _⟩ => (nomatch ha)⟩

/-- Two readings put together give a value when both do. -/
theorem seq_eq_valid {f : Checked (α → β)} {found : Checked α} {b : β} :
    f <*> found = .valid b ↔ ∃ g a, f = .valid g ∧ found = .valid a ∧ g a = b := by
  cases f with
  | valid g =>
    have hmap : g <$> found = .valid b ↔ ∃ a, found = .valid a ∧ g a = b := map_eq_valid
    refine hmap.trans ⟨?_, ?_⟩
    · rintro ⟨a, ha, hb⟩
      exact ⟨g, a, rfl, ha, hb⟩
    · rintro ⟨_, a, hg, ha, hb⟩
      exact ⟨a, ha, valid.inj hg ▸ hb⟩
  | invalid problems =>
    refine ⟨fun h => ?_, fun ⟨_, _, hg, _⟩ => (nomatch hg)⟩
    cases found <;> cases h

@[simp]
theorem within_eq_valid {step : Step} {found : Checked α} {a : α} :
    found.within step = .valid a ↔ found = .valid a := by
  cases found with
  | valid => rfl
  | invalid => exact ⟨fun h => (nomatch h), fun h => (nomatch h)⟩

/-- All readings put together give values when each of them gives one. -/
theorem all_eq_valid {found : List (Checked α)} {as : List α} :
    all found = .valid as ↔ found = as.map .valid := by
  induction found generalizing as with
  | nil => cases as <;> simp [all, pure]
  | cons first more ih =>
    rw [all, seq_eq_valid]
    constructor
    · rintro ⟨_, rest, hfirst, hrest, rfl⟩
      obtain ⟨a, rfl, rfl⟩ := map_eq_valid.1 hfirst
      rw [ih.1 hrest]
      rfl
    · intro h
      cases as with
      | nil => cases h
      | cons a rest =>
        obtain ⟨rfl, hmore⟩ := List.cons.inj h
        exact ⟨_, rest, rfl, ih.2 hmore, rfl⟩

end Checked

/-- Reading data of some shape gives a value exactly if the data says this value. -/
def Reads (shape : Json → Checked α) (Says : Json → α → Prop) : Prop :=
  ∀ data a, shape data = .valid a ↔ Says data a

/-! ## Plain values -/

/-- A text says itself. -/
inductive SaysText : Json → Text → Prop
  | text (s : Text) : SaysText (.str s) s

theorem reads_string : Reads string SaysText := by
  intro data s
  constructor
  · intro h
    cases data with
    | str t => exact Checked.valid.inj h ▸ .text t
    | _ => cases h
  · rintro ⟨⟩
    rfl

/-- One and zero, for true and false. -/
def asNumber (holds : Bool) : Int :=
  if holds then 1 else 0

theorem switchNumbered_eq_valid {n : Int} {holds : Bool} :
    switchNumbered n = .valid holds ↔ n = asNumber holds := by
  unfold switchNumbered asNumber
  split
  · rename_i hone
    cases holds <;> simp [pure, hone]
  · split
    · rename_i hzero
      cases holds <;> simp [pure, hzero]
    · cases holds <;> simp_all [wrong]

theorem wordOf?_eq_some {x : Decimal.Double} {n : Int} :
    wordOf? x = some n ↔ x.integer? = some n ∧ -wordBound < n ∧ n < wordBound := by
  unfold wordOf?
  cases x.integer? with
  | none => simp
  | some m => grind

/-- True and false say themselves; so do one and zero, however they are written as numbers, and the words for
them. -/
inductive SaysSwitch : Json → Bool → Prop
  | bool (holds : Bool) : SaysSwitch (.bool holds) holds
  | int (holds : Bool) : SaysSwitch (.int (asNumber holds)) holds
  | float {x : Decimal.Double} {holds : Bool} (h : x.integer? = some (asNumber holds)) :
      SaysSwitch (.float x) holds
  | word {s : Text} {holds : Bool} (h : switchNamed? s = some holds) : SaysSwitch (.str s) holds

theorem reads_switch : Reads switch SaysSwitch := by
  have hbounds : ∀ holds, -wordBound < asNumber holds ∧ asNumber holds < wordBound := by decide
  intro data holds
  constructor
  · intro h
    cases data with
    | bool b => exact Checked.valid.inj h ▸ .bool b
    | int n =>
      rw [switch] at h
      split at h
      · exact switchNumbered_eq_valid.1 h ▸ .int holds
      · cases h
    | float x =>
      rw [switch] at h
      split at h
      · rename_i n hn
        exact .float (switchNumbered_eq_valid.1 h ▸ (wordOf?_eq_some.1 hn).1)
      · cases h
    | str s =>
      rw [switch] at h
      split at h
      · rename_i b hb
        exact .word (Checked.valid.inj h ▸ hb)
      · cases h
    | _ => cases h
  · intro h
    cases h with
    | bool => rfl
    | int =>
      rw [switch, if_pos ⟨Int.le_of_lt (hbounds holds).1, (hbounds holds).2⟩]
      exact switchNumbered_eq_valid.2 rfl
    | float h =>
      rw [switch, wordOf?_eq_some.2 ⟨h, hbounds holds⟩]
      exact switchNumbered_eq_valid.2 rfl
    | word h =>
      rw [switch, h]
      rfl

/-- A number without a fraction says itself, if it is written without a point or fits into 64 bits; true and
false say one and zero, and a text the number that it writes. -/
inductive SaysInteger : Json → Int → Prop
  | int (n : Int) : SaysInteger (.int n) n
  | bool (holds : Bool) : SaysInteger (.bool holds) (asNumber holds)
  | float {x : Decimal.Double} {n : Int} (h : x.integer? = some n) (hlow : -wordBound < n)
      (hhigh : n < wordBound) : SaysInteger (.float x) n
  | written {s : Text} {n : Int} (h : integerWritten s = .valid n) : SaysInteger (.str s) n

theorem isFinite_of_integer? {x : Decimal.Double} {n : Int} (h : x.integer? = some n) :
    x.isFinite = true := by
  cases x with
  | finite => rfl
  | _ => cases h

theorem reads_integer : Reads integer SaysInteger := by
  intro data n
  constructor
  · intro h
    cases data with
    | int m => exact Checked.valid.inj h ▸ .int m
    | bool holds => exact Checked.valid.inj h ▸ .bool holds
    | float x =>
      rw [integer] at h
      split at h
      · split at h
        · rename_i m _ hm
          obtain ⟨hinteger, hlow, hhigh⟩ := wordOf?_eq_some.1 hm
          exact Checked.valid.inj h ▸ .float hinteger hlow hhigh
        · cases h
        · cases h
      · cases h
    | str s => exact .written h
    | _ => cases h
  · intro h
    cases h with
    | int | bool => rfl
    | float h hlow hhigh =>
      rw [integer, if_pos (isFinite_of_integer? h), wordOf?_eq_some.2 ⟨h, hlow, hhigh⟩]
      rfl
    | written h => exact h

/-- A whole number of at least one. -/
def SaysPositive (data : Json) (n : Nat) : Prop :=
  1 ≤ n ∧ SaysInteger data n

theorem reads_positive : Reads positive SaysPositive := by
  intro data n
  rw [positive, SaysPositive, ← reads_integer]
  cases integer data with
  | invalid problems => exact ⟨fun h => (nomatch h), fun h => (nomatch h.2)⟩
  | valid m =>
    simp only [Checked.valid.injEq]
    split
    · simp only [pure, Checked.valid.injEq]
      omega
    · simp only [wrong, reduceCtorEq, false_iff]
      omega

/-! ## Values made of others -/

section Made

variable {shape : Json → Checked α} {Says : Json → α → Prop}

/-- A list says what its items say, one after the other. -/
inductive SaysList (Says : Json → α → Prop) : Json → List α → Prop
  | list {items : List Json} {as : List α} (h : List.Forall₂ Says items as) :
      SaysList Says (.arr items) as

theorem Reads.itemsFrom (h : Reads shape Says) {index : Nat} {items : List Json} {as : List α} :
    itemsFrom shape index items = as.map .valid ↔ List.Forall₂ Says items as := by
  induction items generalizing index as with
  | nil => cases as <;> simp [Shape.itemsFrom]
  | cons item items ih =>
    cases as with
    | nil => simp [Shape.itemsFrom]
    | cons a as =>
      rw [Shape.itemsFrom, List.map_cons, List.cons.injEq, Checked.within_eq_valid, h, ih,
        List.forall₂_cons]

theorem Reads.list (h : Reads shape Says) : Reads (list shape) (SaysList Says) := by
  intro data as
  constructor
  · intro hread
    cases data with
    | arr items => exact .list (h.itemsFrom.1 (Checked.all_eq_valid.1 hread))
    | _ => cases hread
  · rintro ⟨hitems⟩
    exact Checked.all_eq_valid.2 (h.itemsFrom.2 hitems)

/-- An object says for each of its names what the field says. -/
inductive SaysTable (Says : Json → α → Prop) : Json → List (Text × α) → Prop
  | table {fields : List (Text × Json)} {entries : List (Text × α)}
      (h : List.Forall₂ (fun field entry => field.1 = entry.1 ∧ Says field.2 entry.2) fields entries) :
      SaysTable Says (.obj fields) entries

theorem Reads.fields (h : Reads shape Says) {fields : List (Text × Json)} {entries : List (Text × α)} :
    (fields.map fun field => Prod.mk field.1 <$> (shape field.2).within (.field field.1)) =
        entries.map .valid ↔
      List.Forall₂ (fun field entry => field.1 = entry.1 ∧ Says field.2 entry.2) fields entries := by
  have hfield : ∀ (field : Text × Json) (entry : Text × α),
      Prod.mk field.1 <$> (shape field.2).within (.field field.1) = .valid entry ↔
        field.1 = entry.1 ∧ Says field.2 entry.2 := by
    rintro field ⟨name, a⟩
    rw [Checked.map_eq_valid]
    constructor
    · rintro ⟨b, hb, hpair⟩
      obtain ⟨rfl, rfl⟩ := Prod.mk.inj hpair
      exact ⟨rfl, (h field.2 b).1 (Checked.within_eq_valid.1 hb)⟩
    · rintro ⟨rfl, ha⟩
      exact ⟨a, Checked.within_eq_valid.2 ((h field.2 a).2 ha), rfl⟩
  induction fields generalizing entries with
  | nil => cases entries <;> simp
  | cons field fields ih =>
    cases entries with
    | nil => simp
    | cons entry entries =>
      rw [List.map_cons, List.map_cons, List.cons.injEq, hfield, List.forall₂_cons]
      exact and_congr Iff.rfl ih

theorem Reads.table (h : Reads shape Says) : Reads (table shape) (SaysTable Says) := by
  intro data entries
  constructor
  · intro hread
    cases data with
    | obj fields => exact .table (h.fields.1 (Checked.all_eq_valid.1 hread))
    | _ => cases hread
  · rintro ⟨hfields⟩
    exact Checked.all_eq_valid.2 (h.fields.2 hfields)

/-- Null says that there is nothing, and any other data what it says. -/
inductive SaysOrNull (Says : Json → α → Prop) : Json → Option α → Prop
  | null : SaysOrNull Says .null none
  | value {data : Json} {a : α} (hdata : data ≠ .null) (h : Says data a) :
      SaysOrNull Says data (some a)

theorem Reads.orNull (h : Reads shape Says) : Reads (orNull shape) (SaysOrNull Says) := by
  intro data found
  by_cases hdata : data = .null
  · subst hdata
    constructor
    · intro hread
      exact Checked.valid.inj hread ▸ .null
    · intro hsaid
      cases hsaid with
      | null => rfl
      | value hdata => exact absurd rfl hdata
  · have hread : Shape.orNull shape data = some <$> shape data := by
      cases data with
      | null => exact absurd rfl hdata
      | _ => rfl
    rw [hread, Checked.map_eq_valid]
    constructor
    · rintro ⟨a, ha, rfl⟩
      exact .value hdata ((h data a).1 ha)
    · intro hsaid
      cases hsaid with
      | null => exact absurd rfl hdata
      | value _ hsaid => exact ⟨_, (h data _).2 hsaid, rfl⟩

/-! ## Fields -/

/-- The data of a field, if it is there. -/
def dataOf (fields : List (Text × Json)) (name : Text) : Option Json :=
  Pairs.get? name fields

/-- What a field gives: what its data says, and a value of its own when it is not there. -/
def Gives (Says : Json → α → Prop) (fallback : α) : Option Json → α → Prop
  | some data, a => Says data a
  | none, a => a = fallback

theorem Reads.withDefault (h : Reads shape Says) {name : Text} {fallback a : α}
    {fields : List (Text × Json)} :
    withDefault name shape fallback fields = .valid a ↔ Gives Says fallback (dataOf fields name) a := by
  rw [Shape.withDefault, dataOf]
  cases Pairs.get? name fields with
  | none =>
    constructor
    · intro hread
      exact (Checked.valid.inj hread).symm
    · rintro rfl
      rfl
  | some data => exact Checked.within_eq_valid.trans (h data a)

theorem Reads.required (h : Reads shape Says) {name : Text} {a : α} {fields : List (Text × Json)} :
    required name shape fields = .valid a ↔ ∃ data, dataOf fields name = some data ∧ Says data a := by
  rw [Shape.required, dataOf]
  cases Pairs.get? name fields with
  | none => exact ⟨fun hread => (nomatch hread), fun ⟨_, hdata, _⟩ => (nomatch hdata)⟩
  | some data => simp [h data a]

end Made

end Shape

end TemplateAudit
