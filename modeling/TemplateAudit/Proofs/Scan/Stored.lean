import TemplateAudit.Proofs.Json.Fields
import TemplateAudit.Scan.Record

/-!
# A record is read back from its text

Whatever text a record is read from, no path has two times in it and all times are canonical (`Sound`).
The text that is written for such a record is read back as the record in order of its paths
(`ofFile?_write`, `ofText_write`).
-/

namespace TemplateAudit

open Outcome

namespace Scan

namespace Record

/-- A record with one canonical time for each of its paths. -/
structure Sound (record : Record) : Prop where
  distinct : (record.map Prod.fst).Nodup
  canonical : ∀ entry ∈ record, entry.2.Canonical

theorem sound_nil : Sound [] :=
  ⟨List.nodup_nil, fun _ hentry => nomatch hentry⟩

theorem Sound.put {record : Record} (h : Sound record) (path : Text) {time : Decimal.Double}
    (htime : time.Canonical) : Sound (Pairs.put path time record) where
  distinct := Pairs.nodup_keys_put h.distinct
  canonical := fun entry hentry => by
    rcases Pairs.mem_of_mem_put hentry with hold | rfl
    · exact h.canonical entry hold
    · exact htime

theorem Sound.sublist {record record' : Record} (h : Sound record) (hsub : record'.Sublist record) :
    Sound record' where
  distinct := (hsub.map Prod.fst).nodup h.distinct
  canonical := fun entry hentry => h.canonical entry (hsub.subset hentry)

/-! ## Reading -/

/-- A value that stands for a time stands for a canonical one. -/
theorem canonical_of_timeOf? {value : Json} (hvalue : ∀ x, value = .float x → x.Canonical)
    {time : Decimal.Double} (h : timeOf? value = .ok (some time)) : time.Canonical := by
  cases value with
  | null => cases h
  | arr items => cases h
  | obj fields => cases h
  | float x =>
    obtain rfl := Option.some.inj (Except.ok.inj h)
    exact hvalue x rfl
  | bool holds =>
    obtain rfl := Option.some.inj (Except.ok.inj h)
    exact Decimal.Double.canonical_ofInt _
  | str s => exact Decimal.canonical_of_number? (Except.ok.inj h)
  | int n =>
    simp only [timeOf?] at h
    split at h
    · obtain rfl := Option.some.inj (Except.ok.inj h)
      exact Decimal.Double.canonical_ofInt n
    · cases h

theorem mem_of_ofFields {fields : List (Text × Json)} {record : Record}
    (h : ofFields fields = .ok record) :
    (record.map Prod.fst).Sublist (fields.map Prod.fst) ∧ ∀ entry ∈ record, ∃ field ∈ fields,
      timeOf? field.2 = .ok (some entry.2) := by
  induction fields generalizing record with
  | nil =>
    obtain rfl := Except.ok.inj h
    exact ⟨.slnil, fun entry hentry => nomatch hentry⟩
  | cons field fields ih =>
    obtain ⟨time, htime, h⟩ := bind_eq_ok.1 h
    obtain ⟨rest, hrest, h⟩ := bind_eq_ok.1 h
    obtain rfl := Except.ok.inj h
    obtain ⟨hsub, hvalues⟩ := ih hrest
    have hlater : ∀ entry ∈ rest, ∃ later ∈ field :: fields,
        timeOf? later.2 = .ok (some entry.2) := fun entry hentry =>
      (hvalues entry hentry).imp fun _ h => ⟨List.mem_cons_of_mem _ h.1, h.2⟩
    cases time with
    | none => exact ⟨hsub.cons _, hlater⟩
    | some x =>
      exact ⟨hsub.cons_cons _,
        List.forall_mem_cons.2 ⟨⟨field, List.mem_cons_self, htime⟩, hlater⟩⟩

/-- A record that is read from a text is sound. -/
theorem sound_of_ofText {s : Text} {record : Record} (h : ofText s = .ok record) : Sound record := by
  rw [ofText] at h
  split at h
  · rename_i fields hread
    obtain ⟨hdistinct, hcanonical⟩ := Json.fields_of_read hread
    obtain ⟨hsub, hvalues⟩ := mem_of_ofFields h
    refine ⟨hsub.nodup hdistinct, fun entry hentry => ?_⟩
    obtain ⟨field, hfield, htime⟩ := hvalues entry hentry
    exact canonical_of_timeOf? (hcanonical field hfield) htime
  · obtain rfl := Except.ok.inj h
    exact sound_nil
  · obtain rfl := Except.ok.inj h
    exact sound_nil
  · cases h

/-- The record in a file is sound. -/
theorem sound_of_load {disk : Disk} {path : Path} {record : Record}
    (h : load disk path = .ok record) : Sound record := by
  rw [load] at h
  split at h
  · obtain rfl := Except.ok.inj h
    exact sound_nil
  · split at h
    · cases h
    · exact sound_of_ofText h

/-! ## Writing and reading back -/

/-- A record in order of its paths. -/
def sorted (record : Record) : Record :=
  record.mergeSort fun a b => Text.atMost a.1 b.1

theorem perm_sorted (record : Record) : (sorted record).Perm record :=
  List.mergeSort_perm ..

theorem Sound.sorted {record : Record} (h : Sound record) : Sound (sorted record) where
  distinct := ((perm_sorted record).map Prod.fst).nodup_iff.2 h.distinct
  canonical := fun entry hentry => h.canonical entry ((perm_sorted record).mem_iff.1 hentry)

theorem write_eq (record : Record) :
    write (fields record) = Json.write Json.fileStyle (.obj (Json.floats (Record.sorted record))) := by
  have hsame : Json.floats (Record.sorted record) =
      (fields record).mergeSort (fun a b => Text.atMost a.1 b.1) := by
    rw [Json.floats, Record.sorted, fields]
    exact List.map_mergeSort fun _ _ _ _ => rfl
  rw [write, hsame]

theorem ofFields_floats (record : Record) : ofFields (Json.floats record) = .ok record := by
  induction record with
  | nil => rfl
  | cons entry record ih =>
    rw [Json.floats, List.map_cons, ofFields, ← Json.floats, ih]
    rfl

/-- **A record is read back from the text that is written for it.** -/
theorem ofText_write {record : Record} (h : Sound record) :
    ofText (write (fields record)) = .ok (sorted record) := by
  have hkeys : ((Json.floats (Record.sorted record)).map Prod.fst).Nodup := by
    rw [Json.floats, List.map_map]
    exact h.sorted.distinct
  rw [ofText, write_eq, Json.read_write_fields h.sorted.canonical, Pairs.ofEntries_eq_self hkeys]
  exact ofFields_floats _

/-- The bytes that are written for a record hold its text. -/
theorem ofFile?_write {record : Record} (h : Sound record) :
    Text.ofFile? (Text.toBytes (write (fields record))) = some (write (fields record)) := by
  refine Text.ofFile?_toBytes ?_
  rw [write_eq]
  exact Json.not_mem_write_fields h.sorted.canonical

theorem get?_sorted {record : Record} (h : Sound record) (path : Text) :
    Pairs.get? path (sorted record) = Pairs.get? path record :=
  Pairs.get?_eq_of_perm h.distinct (perm_sorted record).symm path

end Record

end Scan

end TemplateAudit
