import TemplateAudit.Proofs.Json.Distinct
import TemplateAudit.Proofs.Scan.Repeats

/-!
# Keys tell findings apart

Two findings with one key are the same finding, in all that they say, as long as their details hold no numbers
with a binary point.  So a run holds a finding back exactly when it has reported this very finding
(`key_identifies`).
-/

namespace TemplateAudit

/-! ## Findings as data -/

theorem Json.ofText?_injective {s t : Option Text} (h : Json.ofText? s = Json.ofText? t) : s = t := by
  cases s <;> cases t <;> cases h <;> rfl

theorem Json.ofInt?_injective {n m : Option Int} (h : Json.ofInt? n = Json.ofInt? m) : n = m := by
  cases n <;> cases m <;> cases h <;> rfl

theorem Severity.name_injective {s t : Severity} (h : s.name = t.name) : s = t := by
  cases s <;> cases t <;> first | rfl | exact absurd h (by decide)

theorem ParentInfo.toJson_injective {p q : ParentInfo} (h : p.toJson = q.toJson) : p = q := by
  cases p
  cases q
  simp only [toJson, Json.obj.injEq, List.cons.injEq, Prod.mk.injEq, Json.str.injEq, true_and, and_true] at h
  obtain ⟨rfl, hid, hclasses⟩ := h
  rw [Json.ofText?_injective hid, Json.ofText?_injective hclasses]

/-- The element around, when there is one, as data. -/
theorem ParentInfo.toJson?_injective {p q : Option ParentInfo}
    (h : (p.map toJson).getD .null = (q.map toJson).getD .null) : p = q := by
  cases p <;> cases q
  · rfl
  · cases h
  · cases h
  · exact congrArg some (toJson_injective h)

theorem ElementInfo.toJson_injective {a b : ElementInfo} (h : a.toJson = b.toJson) : a = b := by
  cases a
  cases b
  simp only [toJson, Json.obj.injEq, List.cons.injEq, Prod.mk.injEq, Json.str.injEq, true_and, and_true] at h
  obtain ⟨rfl, hid, hclasses, hhref, hsrc, hinputType, rfl, hparent, rfl⟩ := h
  rw [Json.ofText?_injective hid, Json.ofText?_injective hclasses, Json.ofText?_injective hhref,
    Json.ofText?_injective hsrc, Json.ofText?_injective hinputType, ParentInfo.toJson?_injective hparent]

/-! ## Data without binary points -/

@[simp]
theorem Json.floatFree_ofText? (s : Option Text) : (Json.ofText? s).FloatFree := by
  cases s with
  | none => exact .null
  | some s => exact .str s

@[simp]
theorem Json.floatFree_ofInt? (n : Option Int) : (Json.ofInt? n).FloatFree := by
  cases n with
  | none => exact .null
  | some n => exact .int n

@[simp]
theorem ParentInfo.floatFree_toJson? (parent : Option ParentInfo) :
    ((parent.map toJson).getD .null).FloatFree := by
  cases parent with
  | none => exact .null
  | some parent => simp [toJson]

namespace Finding

theorem toJson_injective {f g : Finding} (h : f.toJson = g.toJson) : f = g := by
  cases f
  cases g
  simp only [toJson, Json.obj.injEq, List.cons.injEq, Prod.mk.injEq, Json.str.injEq, Json.bool.injEq, true_and,
    and_true] at h
  obtain ⟨rfl, rfl, hseverity, helement, hfile, hline, rfl, hwcag, rfl⟩ := h
  rw [Severity.name_injective hseverity, ElementInfo.toJson_injective helement, Json.ofText?_injective hfile,
    Json.ofInt?_injective hline, Json.ofText?_injective hwcag]

/-- The details of the finding hold no number with a binary point. -/
def FloatFree (finding : Finding) : Prop :=
  ∀ field ∈ finding.element.details, field.2.FloatFree

theorem FloatFree.toJson {f : Finding} (h : f.FloatFree) : f.toJson.FloatFree := by
  have hdetails : (Json.obj f.element.details).FloatFree := .obj h
  simpa [Finding.toJson, ElementInfo.toJson] using hdetails

theorem key_injective {f g : Finding} (hf : f.FloatFree) (hg : g.FloatFree) (h : f.key = g.key) : f = g :=
  toJson_injective (Json.write_injective hf.toJson hg.toJson h)

end Finding

namespace Scan

namespace Cache

/-! ## A run -/

/-- A cache in the course of a run, with what the run has reported. -/
inductive Reports : Cache → List Finding → Prop
  | reset (left : Cache) : Reports left.reset []
  | unseen {cache : Cache} {reported : List Finding} (h : Reports cache reported) (findings : List Finding) :
      Reports (cache.unseen findings).2 (reported ++ (cache.unseen findings).1)
  | markPage {cache : Cache} {reported : List Finding} (h : Reports cache reported) (page : Text) :
      Reports (cache.markPage page).2 reported

variable {cache : Cache} {reported : List Finding}

theorem keys_markPage (cache : Cache) (page : Text) : (cache.markPage page).2.keys = cache.keys := by
  rw [markPage]
  split <;> rfl

/-- The keys of a cache after some findings: those it had, and those of the findings it has let through. -/
theorem keys_unseen (cache : Cache) (findings : List Finding) :
    (cache.unseen findings).2.keys = ((cache.unseen findings).1.map Finding.key).reverse ++ cache.keys := by
  induction findings generalizing cache with
  | nil => rfl
  | cons finding findings ih =>
    rw [unseen]
    split
    · exact ih cache
    · simp only [ih, List.map_cons, List.reverse_cons, List.append_assoc, List.singleton_append]

/-- Throughout a run the cache holds the keys of what is reported. -/
theorem Reports.mem_keys_iff (h : Reports cache reported) {k : Text} :
    k ∈ cache.keys ↔ k ∈ reported.map Finding.key := by
  induction h with
  | reset => rfl
  | unseen _ findings ih =>
    rw [keys_unseen, List.mem_append, List.mem_reverse, ih, List.map_append, List.mem_append, or_comm]
  | markPage _ page ih => rw [keys_markPage, ih]

theorem unseen_sublist (cache : Cache) (findings : List Finding) :
    ((cache.unseen findings).1).Sublist findings := by
  induction findings generalizing cache with
  | nil => exact .slnil
  | cons finding findings ih =>
    rw [unseen]
    split
    · exact (ih cache).cons finding
    · exact (ih _).cons_cons finding

/-- A finding is held back when its key is known. -/
theorem unseen_concat_eq_iff {before : List Finding} {finding : Finding} :
    (cache.unseen (before ++ [finding])).1 = (cache.unseen before).1 ↔
      finding.key ∈ (cache.unseen before).2.keys := by
  rw [unseen_append, List.append_right_eq_self, unseen]
  split
  · rename_i hmem
    exact iff_of_true rfl (by simpa using hmem)
  · rename_i hnew
    exact iff_of_false (List.cons_ne_nil _ _) (by simpa using hnew)

end Cache

end Scan

namespace Finding

open Scan (Cache)

/-- The key of a finding identifies it: findings with one key are the same.  At every point of a run, and behind
any findings that go through the cache with it, a finding is held back exactly when this very finding has been
reported. -/
theorem key_identifies :
    (∀ f g : Finding, f.FloatFree → g.FloatFree → f.key = g.key → f = g) ∧
      ∀ (cache : Cache) (reported : List Finding), cache.Reports reported →
        ∀ (before : List Finding) (f : Finding), (∀ g ∈ reported, g.FloatFree) → (∀ g ∈ before, g.FloatFree) →
          f.FloatFree →
          ((cache.unseen (before ++ [f])).1 = (cache.unseen before).1 ↔
            f ∈ reported ++ (cache.unseen before).1) := by
  refine ⟨fun f g => key_injective, fun cache reported hrun before f hreported hbefore hf => ?_⟩
  rw [Cache.unseen_concat_eq_iff, (hrun.unseen before).mem_keys_iff, List.mem_map]
  constructor
  · rintro ⟨g, hg, hkey⟩
    have hfree : g.FloatFree := (List.mem_append.1 hg).elim (hreported g) fun hmem =>
      hbefore g ((Cache.unseen_sublist cache before).subset hmem)
    exact key_injective hfree hf hkey ▸ hg
  · exact fun hmem => ⟨f, hmem, rfl⟩

/-- A finding on an image, with given details. -/
def imageFinding (details : List (Text × Json)) : Finding :=
  ⟨"images", "Image without alt text", .error, ⟨"img", none, none, none, none, none, [], none, details⟩, none,
    some 3, [], none, false⟩

/-- One detail, whose text looks like the end of it and a second one. -/
def crowded : Finding :=
  imageFinding [("src", .str "a\",\"alt\":\"b")]

/-- Two details. -/
def spread : Finding :=
  imageFinding [("src", .str "a"), ("alt", .str "b")]

theorem key_identifies_crowded :
    crowded.key ≠ spread.key ∧
      (Cache.empty.reset.unseen ([crowded] ++ [spread])).1 ≠ (Cache.empty.reset.unseen [crowded]).1 := by
  have hcrowded : crowded.FloatFree := by simp [FloatFree, crowded, imageFinding]
  have hspread : spread.FloatFree := by simp [FloatFree, spread, imageFinding]
  have hdiffer : crowded ≠ spread := fun heq =>
    absurd (congrArg (fun f : Finding => f.element.details.length) heq) (by decide)
  refine ⟨fun hkey => hdiffer (key_identifies.1 _ _ hcrowded hspread hkey), fun hheld => ?_⟩
  have hmem := (key_identifies.2 _ _ (.reset .empty) [crowded] spread
    (fun _ hg => absurd hg List.not_mem_nil) (List.forall_mem_singleton.2 hcrowded) hspread).1 hheld
  exact hdiffer (List.mem_singleton.1 hmem).symm

end Finding

end TemplateAudit
