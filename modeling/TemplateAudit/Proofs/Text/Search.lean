import Mathlib.Data.Nat.Find
import TemplateAudit.Text.Basic

/-!
# Searching a text from the left

The readings of a shape in a text are found from left to right and without overlap.  A reading is kept here with
the place where it stands and the text it leaves over (`Reading`), and it is said which readings such a search
finds (`Reading.Found`): the first one that stands at the start or behind it, and then whatever is found from the
place where this one stops.  A search by a reader that always consumes something finds exactly these
(`mem_search_iff`), in the order of their places and without overlap (`pairwise_search`).

The same may also be read from a later place up to the same rest.  The last such place is that of
`Reading.lastOf`, and the order of the readings is that of these places too (`pairwise_lastOf`).
-/

namespace TemplateAudit

namespace Text

/-- What is read at a place of a text, with the text left over. -/
structure Reading (α : Type) where
  place : Nat
  value : α
  rest : Text
  deriving DecidableEq, Repr

variable {α : Type} {shape : Option Char → Text → Option (α × Text)} {before : Option Char}
  {code s : Text} {place start size : Nat} {r q : Reading α}

namespace Reading

/-- The place behind a reading, in a text of the given size. -/
def stop (size : Nat) (r : Reading α) : Nat :=
  size - r.rest.length

/-- The shape gives the reading at its place in the text. -/
def Of (shape : Option Char → Text → Option (α × Text)) (code : Text) (r : Reading α) : Prop :=
  r.place < code.length ∧
    shape (code.take r.place).getLast? (code.drop r.place) = some (r.value, r.rest)

/-- Of the readings that stand in a text, one is the first at a place or behind it. -/
structure IsFirst (stands : Reading α → Prop) (start : Nat) (r : Reading α) : Prop where
  here : stands r
  start_le : start ≤ r.place
  le : ∀ q, stands q → start ≤ q.place → r.place ≤ q.place

/-- The readings that a search from a place on finds: the first one, and those found from where it stops. -/
inductive Found (stands : Reading α → Prop) (size : Nat) : Nat → Reading α → Prop
  | first {start : Nat} {r : Reading α} (h : IsFirst stands start r) : Found stands size start r
  | next {start : Nat} {q r : Reading α} (h : IsFirst stands start q)
      (later : Found stands size (q.stop size) r) : Found stands size start r

/-- The last place at which the same is read as in a given reading, up to the same rest. -/
structure IsLastOf (stands : Reading α → Prop) (r last : Reading α) : Prop where
  here : stands last
  value : last.value = r.value
  rest : last.rest = r.rest
  le : ∀ q, stands q → q.value = r.value → q.rest = r.rest → q.place ≤ last.place

theorem Found.stands {stands : Reading α → Prop} (h : Found stands size start r) : stands r := by
  induction h with
  | first h => exact h.here
  | next _ _ ih => exact ih

theorem Found.start_le {stands : Reading α → Prop} (hstop : ∀ q, stands q → q.place < q.stop size)
    (h : Found stands size start r) : start ≤ r.place := by
  induction h with
  | first h => exact h.start_le
  | next h _ ih => exact Nat.le_trans h.start_le (Nat.le_trans (Nat.le_of_lt (hstop _ h.here)) ih)

/-- A search goes on in the same way from the place of its first reading. -/
theorem IsFirst.found_iff {stands : Reading α → Prop} (h : IsFirst stands start q)
    (hunique : ∀ r, stands r → r.place = q.place → r = q) :
    Found stands size start r ↔ r = q ∨ Found stands size (q.stop size) r := by
  have heq : ∀ {r}, IsFirst stands start r → r = q := fun {r} hr =>
    hunique r hr.here (Nat.le_antisymm (hr.le q h.here h.start_le) (h.le r hr.here hr.start_le))
  constructor
  · rintro (hr | ⟨hq', hlater⟩)
    · exact .inl (heq hr)
    · exact .inr (heq hq' ▸ hlater)
  · rintro (rfl | hlater)
    · exact .first h
    · exact .next h hlater

/-- A place at which nothing stands is passed over. -/
theorem isFirst_succ_iff {stands : Reading α → Prop} (hnone : ∀ r, stands r → r.place ≠ start) :
    IsFirst stands start r ↔ IsFirst stands (start + 1) r := by
  have hpass : ∀ {r}, stands r → (start ≤ r.place ↔ start + 1 ≤ r.place) := fun {r} hr =>
    ⟨fun h => Nat.lt_of_le_of_ne h (hnone r hr).symm, Nat.le_of_succ_le⟩
  constructor
  · rintro ⟨hr, hstart, hle⟩
    exact ⟨hr, (hpass hr).1 hstart, fun q hq h => hle q hq ((hpass hq).2 h)⟩
  · rintro ⟨hr, hstart, hle⟩
    exact ⟨hr, (hpass hr).2 hstart, fun q hq h => hle q hq ((hpass hq).1 h)⟩

theorem found_succ_iff {stands : Reading α → Prop} (hnone : ∀ r, stands r → r.place ≠ start) :
    Found stands size start r ↔ Found stands size (start + 1) r := by
  constructor
  · rintro (h | ⟨h, hlater⟩)
    · exact .first ((isFirst_succ_iff hnone).1 h)
    · exact .next ((isFirst_succ_iff hnone).1 h) hlater
  · rintro (h | ⟨h, hlater⟩)
    · exact .first ((isFirst_succ_iff hnone).2 h)
    · exact .next ((isFirst_succ_iff hnone).2 h) hlater

theorem Of.eq_of_place (hr : r.Of shape code) (hq : q.Of shape code) (h : r.place = q.place) : r = q := by
  obtain ⟨place, value, rest⟩ := r
  obtain ⟨place', value', rest'⟩ := q
  obtain rfl : place = place' := h
  have hsame := hr.2.symm.trans hq.2
  cases hsame
  rfl

end Reading

/-! ## The search -/

/-- The reader always leaves over less than it is given. -/
def Consumes (shape : Option Char → Text → Option (α × Text)) : Prop :=
  ∀ {before s a rest}, shape before s = some (a, rest) → rest.length < s.length

/-- All readings of a shape, with their places; the text begins at the given place. -/
def searchFrom (shape : Option Char → Text → Option (α × Text)) :
    Option Char → Nat → Nat → Text → List (Reading α)
  | _, _, _, [] => []
  | _, place, skip + 1, c :: s => searchFrom shape (some c) (place + 1) skip s
  | before, place, 0, c :: s =>
    match shape before (c :: s) with
    | some (a, rest) =>
      ⟨place, a, rest⟩ :: searchFrom shape (some c) (place + 1) (s.length - rest.length) s
    | none => searchFrom shape (some c) (place + 1) 0 s

/-- All readings of a shape in a text, with their places. -/
def search (shape : Option Char → Text → Option (α × Text)) (code : Text) : List (Reading α) :=
  searchFrom shape none 0 0 code

theorem readAllFrom_eq_map (skip : Nat) :
    readAllFrom shape before skip s = (searchFrom shape before place skip s).map (·.value) := by
  fun_induction searchFrom shape before place skip s with
  | case1 => rfl
  | case2 _ _ _ _ _ ih => exact ih
  | case3 _ _ _ _ _ _ hread ih => simp [readAllFrom, hread, ih]
  | case4 _ _ _ _ hread ih => simp [readAllFrom, hread, ih]

/-- The values that are read are those of the readings found. -/
theorem readAll_eq_map (shape : Option Char → Text → Option (α × Text)) (code : Text) :
    readAll shape code = (search shape code).map (·.value) :=
  readAllFrom_eq_map 0

/-- A reader that reads nothing in a text finds nothing there. -/
theorem readAllFrom_eq_nil (h : ∀ before rest, rest <:+ s → shape before rest = none) (before : Option Char)
    (skip : Nat) : readAllFrom shape before skip s = [] := by
  induction s generalizing before skip with
  | nil => cases skip <;> rfl
  | cons c s ih =>
    have hrest : ∀ before rest, rest <:+ s → shape before rest = none := fun before rest hend =>
      h before rest (hend.trans (List.suffix_cons c s))
    cases skip with
    | zero =>
      rw [readAllFrom, h before _ (List.suffix_refl _)]
      exact ih hrest (some c) 0
    | succ skip =>
      rw [readAllFrom]
      exact ih hrest (some c) skip

/-- Nothing is found in a text that is passed over. -/
theorem readAllFrom_length (shape : Option Char → Text → Option (α × Text)) (before : Option Char) (s : Text) :
    readAllFrom shape before s.length s = [] := by
  induction s generalizing before with
  | nil => rfl
  | cons c s ih => exact ih (some c)

/-- What a search finds from a place of a text on. -/
def searchAt (shape : Option Char → Text → Option (α × Text)) (code : Text) (place : Nat) :
    List (Reading α) :=
  searchFrom shape (code.take place).getLast? place 0 (code.drop place)

theorem searchAt_of_length_le (h : code.length ≤ place) : searchAt shape code place = [] := by
  rw [searchAt, List.drop_eq_nil_of_le h, searchFrom]

/-- The text in front of the place behind a character ends in this character. -/
theorem getLast?_take_succ {c : Char} (h : code.drop place = c :: s) :
    (code.take (place + 1)).getLast? = some c := by
  have hc : code[place]? = some c := by rw [← List.head?_drop, h, List.head?_cons]
  rw [List.take_add_one, hc, Option.toList_some, List.getLast?_append, List.getLast?_singleton, Option.some_or]

/-- Characters to be passed over only move the place from which the search goes on. -/
theorem searchFrom_skip (skip : Nat) :
    searchFrom shape (code.take place).getLast? place skip (code.drop place) =
      searchAt shape code (place + skip) := by
  induction skip generalizing place with
  | zero => rfl
  | succ skip ih =>
    cases hs : code.drop place with
    | nil =>
      have hlength := List.drop_eq_nil_iff.1 hs
      rw [searchFrom, searchAt_of_length_le (by omega)]
    | cons c s =>
      have hrest : code.drop (place + 1) = s := by rw [← List.tail_drop, hs, List.tail_cons]
      rw [searchFrom, ← getLast?_take_succ hs, ← hrest, ih, Nat.add_right_comm, Nat.add_assoc]

/-- A place at which nothing is read is passed over. -/
theorem searchAt_of_none (h : ∀ r : Reading α, r.Of shape code → r.place ≠ place) :
    searchAt shape code place = searchAt shape code (place + 1) := by
  cases hs : code.drop place with
  | nil =>
    have hlength := List.drop_eq_nil_iff.1 hs
    rw [searchAt_of_length_le hlength, searchAt_of_length_le (by omega)]
  | cons c s =>
    have hplace : place < code.length :=
      Nat.not_le.1 fun h => List.cons_ne_nil c s (hs.symm.trans (List.drop_eq_nil_of_le h))
    have hrest : code.drop (place + 1) = s := by rw [← List.tail_drop, hs, List.tail_cons]
    rw [searchAt, hs, searchFrom]
    split
    · rename_i a rest hread
      exact absurd rfl (h ⟨place, a, rest⟩ ⟨hplace, by rwa [hs]⟩)
    · rw [← getLast?_take_succ hs, ← hrest, searchFrom_skip, Nat.add_zero]

/-- A reading moved to the last place at which the same is read. -/
def Reading.lastOf [DecidableEq α] (shape : Option Char → Text → Option (α × Text)) (code : Text)
    (r : Reading α) : Reading α :=
  { r with place := Nat.findGreatest (fun place =>
      shape (code.take place).getLast? (code.drop place) = some (r.value, r.rest)) (code.length - 1) }

section Last

variable [DecidableEq α] (h : r.Of shape code)
include h

theorem Reading.Of.isLastOf : IsLastOf (Of shape code) r (r.lastOf shape code) := by
  have hplace := Nat.le_sub_one_of_lt h.1
  refine ⟨⟨?_, ?_⟩, rfl, rfl, fun q hq hvalue hrest => ?_⟩
  · exact Nat.lt_of_le_sub_one (Nat.zero_lt_of_lt h.1) (Nat.findGreatest_le _)
  · exact Nat.findGreatest_spec (P := fun place =>
      shape (code.take place).getLast? (code.drop place) = some (r.value, r.rest)) hplace h.2
  · refine Nat.le_findGreatest (Nat.le_sub_one_of_lt hq.1) ?_
    rw [hq.2, hvalue, hrest]

theorem Reading.Of.isLastOf_iff : IsLastOf (Of shape code) r q ↔ q = r.lastOf shape code := by
  have hlast := h.isLastOf
  constructor
  · intro hq
    exact hq.here.eq_of_place hlast.here (Nat.le_antisymm
      (hlast.le q hq.here hq.value hq.rest) (hq.le _ hlast.here hlast.value hlast.rest))
  · rintro rfl
    exact hlast

theorem Reading.Of.place_le_lastOf : r.place ≤ (r.lastOf shape code).place :=
  h.isLastOf.le r h rfl rfl

end Last

section Consuming

variable (hshape : Consumes shape)
include hshape

theorem Reading.Of.place_lt_stop (h : r.Of shape code) : r.place < r.stop code.length := by
  have hless := hshape h.2
  rw [List.length_drop] at hless
  have hplace := h.1
  rw [Reading.stop]
  omega

/-- Where something is read, the search goes on from the place behind it. -/
theorem Reading.Of.searchAt_eq (h : r.Of shape code) :
    searchAt shape code r.place = r :: searchAt shape code (r.stop code.length) := by
  obtain ⟨hplace, hread⟩ := h
  have hless := hshape hread
  cases hs : code.drop r.place with
  | nil => exact absurd (List.drop_eq_nil_iff.1 hs) (Nat.not_le.2 hplace)
  | cons c s =>
    have hrest : code.drop (r.place + 1) = s := by rw [← List.tail_drop, hs, List.tail_cons]
    have hlength : s.length = code.length - (r.place + 1) := by rw [← hrest, List.length_drop]
    rw [hs, List.length_cons] at hless
    rw [hs] at hread
    have hstop : r.place + 1 + (s.length - r.rest.length) = r.stop code.length := by
      rw [Reading.stop]
      omega
    rw [searchAt, hs, searchFrom, hread]
    dsimp only
    rw [← getLast?_take_succ hs, hlength, ← hrest, searchFrom_skip, ← hlength, hstop]

/-- A search goes from a place to the next one, or behind what it has read there, up to the end of the text. -/
theorem searchAt_induction {motive : Nat → List (Reading α) → Prop}
    (ends : ∀ place, code.length ≤ place → motive place [])
    (reads : ∀ r, r.Of shape code →
      motive (r.stop code.length) (searchAt shape code (r.stop code.length)) →
      motive r.place (r :: searchAt shape code (r.stop code.length)))
    (passes : ∀ place, (∀ r : Reading α, r.Of shape code → r.place ≠ place) →
      motive (place + 1) (searchAt shape code (place + 1)) →
      motive place (searchAt shape code (place + 1)))
    (place : Nat) : motive place (searchAt shape code place) := by
  -- every step moves the place on, so that less of the text is left
  induction hleft : code.length - place using Nat.strongRecOn generalizing place with
  | ind left ih =>
    by_cases hend : code.length ≤ place
    · rw [searchAt_of_length_le hend]
      exact ends place hend
    by_cases hread : ∃ r : Reading α, r.Of shape code ∧ r.place = place
    · obtain ⟨r, hr, rfl⟩ := hread
      have hstop := hr.place_lt_stop hshape
      rw [hr.searchAt_eq hshape]
      exact reads r hr (ih _ (by omega) _ rfl)
    · have hnone : ∀ r : Reading α, r.Of shape code → r.place ≠ place := fun r hr hplace => hread ⟨r, hr, hplace⟩
      rw [searchAt_of_none hnone]
      exact passes place hnone (ih _ (by omega) _ rfl)

/-- What a search finds from a place on is said without the search. -/
theorem mem_searchAt_iff (place : Nat) :
    r ∈ searchAt shape code place ↔ Reading.Found (Reading.Of shape code) code.length place r := by
  refine searchAt_induction hshape
    (motive := fun place found => r ∈ found ↔ Reading.Found (Reading.Of shape code) code.length place r)
    (fun place hend => ?_) (fun q hq ih => ?_) (fun place hnone ih => ?_) place
  · refine iff_of_false List.not_mem_nil fun h => ?_
    have hplace := h.start_le fun _ hr => hr.place_lt_stop hshape
    exact absurd h.stands.1 (Nat.not_lt.2 (Nat.le_trans hend hplace))
  · have hfirst : Reading.IsFirst (Reading.Of shape code) q.place q := ⟨hq, Nat.le_refl _, fun _ _ h => h⟩
    rw [List.mem_cons, ih, hfirst.found_iff fun _ hr => hr.eq_of_place hq]
  · rw [ih, Reading.found_succ_iff hnone]

/-- What a search finds is said without the search. -/
theorem mem_search_iff : r ∈ search shape code ↔ Reading.Found (Reading.Of shape code) code.length 0 r :=
  mem_searchAt_iff hshape 0

/-- The readings found stand one behind the other, and none overlaps the next. -/
theorem pairwise_search : (search shape code).Pairwise fun q r => q.stop code.length ≤ r.place := by
  refine searchAt_induction hshape
    (motive := fun _ found => found.Pairwise fun q r => q.stop code.length ≤ r.place)
    (fun _ _ => .nil) (fun q hq ih => .cons (fun r hr => ?_) ih) (fun _ _ ih => ih) 0
  exact ((mem_searchAt_iff hshape _).1 hr).start_le fun _ hr => hr.place_lt_stop hshape

section Last

variable [DecidableEq α]

/-- The readings found, each at the last place at which the same is read, are said without the search. -/
theorem mem_map_lastOf_iff : q ∈ (search shape code).map (·.lastOf shape code) ↔
    ∃ r, Reading.Found (Reading.Of shape code) code.length 0 r ∧ Reading.IsLastOf (Reading.Of shape code) r q := by
  simp only [List.mem_map, mem_search_iff hshape]
  refine exists_congr fun r => and_congr_right fun hr => ?_
  rw [hr.stands.isLastOf_iff, eq_comm]

/-- The readings found stand one behind the other also at the last places. -/
theorem pairwise_lastOf :
    ((search shape code).map (·.lastOf shape code)).Pairwise fun q r => q.place < r.place := by
  rw [List.pairwise_map]
  refine (pairwise_search hshape).imp_of_mem fun {q r} hq hr hqr => ?_
  have hq := ((mem_search_iff hshape).1 hq).stands
  have hr := ((mem_search_iff hshape).1 hr).stands
  calc (q.lastOf shape code).place
    _ < q.stop code.length := hq.isLastOf.here.place_lt_stop hshape
    _ ≤ r.place := hqr
    _ ≤ (r.lastOf shape code).place := hr.place_le_lastOf

end Last

end Consuming

end Text

end TemplateAudit
