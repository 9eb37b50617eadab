import Mathlib.Data.List.Induction
import TemplateAudit.Scan.Cache

/-!
# Findings without repeats

`Finding.firsts` keeps of a list of findings those whose key does not occur further in front.  A cache
that starts out empty lets exactly these through (`Cache.unseen_empty`), whether the findings come all
at once or one list after the other (`Cache.unseen_append`).
-/

namespace TemplateAudit

namespace Finding

/-- The findings whose key occurs at no finding further in front. -/
def firsts (findings : List Finding) : List Finding :=
  (findings.zipIdx.filter fun entry =>
    !((findings.take entry.2).map key).contains entry.1.key).map Prod.fst

@[simp]
theorem firsts_nil : firsts [] = [] := rfl

/-- One more finding at the end is kept when its key is new. -/
theorem firsts_concat (findings : List Finding) (finding : Finding) :
    firsts (findings ++ [finding]) =
      firsts findings ++ if finding.key ∈ findings.map key then [] else [finding] := by
  have hold : (findings.zipIdx.filter fun entry =>
      !(((findings ++ [finding]).take entry.2).map key).contains entry.1.key) =
      findings.zipIdx.filter fun entry =>
        !((findings.take entry.2).map key).contains entry.1.key := by
    refine List.filter_congr fun entry hentry => ?_
    obtain ⟨hlt, -⟩ := List.mem_zipIdx' hentry
    rw [List.take_append_of_le_length (Nat.le_of_lt hlt)]
  have htake : (findings ++ [finding]).take findings.length = findings := List.take_left
  rw [firsts, List.zipIdx_append, List.filter_append, hold, List.map_append, firsts]
  congr 1
  simp only [List.zipIdx_singleton, List.filter_cons, List.filter_nil, Nat.zero_add, htake]
  by_cases h : finding.key ∈ findings.map key
  · rw [if_pos h, if_neg (by simpa using h), List.map_nil]
  · rw [if_neg h, if_pos (by simpa using h), List.map_singleton]

/-- A key is kept when it occurs at all. -/
theorem mem_keys_firsts (findings : List Finding) (k : Text) :
    k ∈ (firsts findings).map key ↔ k ∈ findings.map key := by
  induction findings using List.reverseRecOn with
  | nil => simp
  | append_singleton findings finding ih =>
    rw [firsts_concat, List.map_append, List.map_append, List.mem_append, List.mem_append, ih]
    split
    · rename_i hmem
      simp only [List.map_nil, List.not_mem_nil, or_false, List.map_cons, List.mem_singleton]
      constructor
      · exact Or.inl
      · rintro (h | rfl)
        · exact h
        · exact hmem
    · rfl

/-- No key is kept twice. -/
theorem nodup_keys_firsts (findings : List Finding) : ((firsts findings).map key).Nodup := by
  induction findings using List.reverseRecOn with
  | nil => simp
  | append_singleton findings finding ih =>
    rw [firsts_concat, List.map_append]
    split
    · simpa using ih
    · rename_i hnew
      rw [← mem_keys_firsts] at hnew
      refine List.nodup_append.2 ⟨ih, by simp, ?_⟩
      rintro a ha b hb rfl
      simp only [List.map_cons, List.map_nil, List.mem_singleton] at hb
      exact hnew (hb ▸ ha)

end Finding

namespace Scan

namespace Cache

/-! ## What a cache lets through -/

/-- Two lists one after the other go through a cache like one. -/
theorem unseen_append (cache : Cache) (xs ys : List Finding) :
    cache.unseen (xs ++ ys) =
      ((cache.unseen xs).1 ++ ((cache.unseen xs).2.unseen ys).1,
        ((cache.unseen xs).2.unseen ys).2) := by
  induction xs generalizing cache with
  | nil => rfl
  | cons x xs ih =>
    rw [List.cons_append, unseen, unseen]
    split
    · exact ih cache
    · rw [ih]
      rfl

/-- The keys of a cache after some findings: those it had, and those of the findings. -/
theorem mem_keys_unseen (cache : Cache) (findings : List Finding) (k : Text) :
    k ∈ (cache.unseen findings).2.keys ↔ k ∈ cache.keys ∨ k ∈ findings.map Finding.key := by
  induction findings generalizing cache with
  | nil => simp [unseen]
  | cons finding findings ih =>
    rw [unseen]
    split
    · rename_i hmem
      have hmem : finding.key ∈ cache.keys := by simpa using hmem
      rw [ih, List.map_cons, List.mem_cons]
      constructor
      · exact Or.imp_right Or.inr
      · rintro (h | rfl | h)
        · exact Or.inl h
        · exact Or.inl hmem
        · exact Or.inr h
    · simp only [ih, List.mem_cons, List.map_cons]
      tauto

@[simp]
theorem pages_unseen (cache : Cache) (findings : List Finding) :
    (cache.unseen findings).2.pages = cache.pages := by
  induction findings generalizing cache with
  | nil => rfl
  | cons finding findings ih =>
    rw [unseen]
    split
    · exact ih cache
    · exact ih _

/-- Marking a page and letting findings through do not disturb each other. -/
theorem unseen_markPage (cache : Cache) (page : Text) (findings : List Finding) :
    (cache.markPage page).2.unseen findings =
      ((cache.unseen findings).1, ((cache.unseen findings).2.markPage page).2) := by
  by_cases h : cache.pages.contains page
  · rw [markPage, if_pos h, markPage, pages_unseen, if_pos h]
  · induction findings generalizing cache with
    | nil => rfl
    | cons finding findings ih =>
      rw [markPage, if_neg h, unseen, unseen]
      split
      · have hrest := ih cache h
        rw [markPage, if_neg h] at hrest
        exact hrest
      · have hrest := ih ⟨finding.key :: cache.keys, cache.pages⟩ h
        rw [markPage, if_neg h] at hrest
        rw [hrest]

/-- Findings whose keys are all known are held back and leave the cache as it is. -/
theorem unseen_of_known {cache : Cache} {findings : List Finding}
    (h : ∀ finding ∈ findings, finding.key ∈ cache.keys) : cache.unseen findings = ([], cache) := by
  induction findings with
  | nil => rfl
  | cons finding findings ih =>
    have hmem : cache.keys.contains finding.key = true := by
      simpa using h finding List.mem_cons_self
    rw [unseen, if_pos hmem]
    exact ih fun f hf => h f (List.mem_cons_of_mem _ hf)

/-- From the start a cache lets through what is no repeat. -/
theorem unseen_empty (findings : List Finding) :
    (empty.unseen findings).1 = Finding.firsts findings := by
  induction findings using List.reverseRecOn with
  | nil => rfl
  | append_singleton findings finding ih =>
    rw [unseen_append, ih, Finding.firsts_concat]
    have hkeys := mem_keys_unseen empty findings finding.key
    rw [unseen]
    by_cases h : finding.key ∈ findings.map Finding.key
    · rw [if_pos (by simpa using hkeys.2 (Or.inr h)), if_pos h]
      rfl
    · have hnew : finding.key ∉ (empty.unseen findings).2.keys := fun hmem =>
        (hkeys.1 hmem).elim (fun hnil => nomatch hnil) h
      rw [if_neg (by simpa using hnew), if_neg h]
      rfl

end Cache

end Scan

end TemplateAudit
