import Mathlib.Data.List.Forall2
import Mathlib.Data.List.Induction
import TemplateAudit.Pairs

/-!
# Counting with tables

A table of counts says of every key how often it occurs (`getD_counts`).  Things that are numbered with
the help of such a table have the number of things in front of them that have their key
(`numbered_eq`); `withFront` gives each thing together with what stands in front of it.
-/

namespace TemplateAudit

namespace Pairs

variable {α β κ : Type} {a : α} {things : List α}

/-! ## Things and what stands in front of them -/

/-- Each of some things, with those in front of it. -/
def withFront (things : List α) : List (List α × α) :=
  things.zipIdx.map fun entry => (things.take entry.2, entry.1)

@[simp]
theorem withFront_nil : withFront ([] : List α) = [] := rfl

/-- One more thing stands behind all others. -/
theorem withFront_concat (things : List α) (a : α) :
    withFront (things ++ [a]) = withFront things ++ [(things, a)] := by
  have hold : things.zipIdx.map (fun entry => ((things ++ [a]).take entry.2, entry.1)) =
      withFront things := by
    refine List.map_congr_left fun entry hentry => ?_
    obtain ⟨hlt, -⟩ := List.mem_zipIdx' hentry
    rw [List.take_append_of_le_length (Nat.le_of_lt hlt)]
  rw [withFront, List.zipIdx_append, List.map_append, hold]
  simp

theorem withFront_cons (a : α) (things : List α) :
    withFront (a :: things) =
      ([], a) :: (withFront things).map fun entry => (a :: entry.1, entry.2) := by
  induction things using List.reverseRecOn with
  | nil => rfl
  | append_singleton things b ih =>
    rw [← List.cons_append, withFront_concat, withFront_concat, ih, List.map_append, List.map_singleton,
      List.cons_append]

@[simp]
theorem map_snd_withFront (things : List α) : (withFront things).map Prod.snd = things := by
  induction things using List.reverseRecOn with
  | nil => rfl
  | append_singleton things a ih => rw [withFront_concat, List.map_append, ih, List.map_singleton]

/-- Each thing stands in its place behind those in front of it. -/
theorem prefix_of_mem_withFront {entry : List α × α} (h : entry ∈ withFront things) :
    entry.1 ++ [entry.2] <+: things := by
  obtain ⟨⟨a, i⟩, hentry, rfl⟩ := List.mem_map.1 h
  have ha := List.mk_mem_zipIdx_iff_getElem?.1 hentry
  obtain ⟨hi, rfl⟩ := List.getElem?_eq_some_iff.1 ha
  rw [List.take_append_getElem hi]
  exact List.take_prefix _ _

theorem withFront_map (f : α → β) (things : List α) :
    withFront (things.map f) = (withFront things).map fun entry => (entry.1.map f, f entry.2) := by
  induction things using List.reverseRecOn with
  | nil => rfl
  | append_singleton things a ih =>
    rw [List.map_append, List.map_singleton, withFront_concat, withFront_concat, ih, List.map_append,
      List.map_singleton]

/-- Things that are related one by one have related things in front of them. -/
theorem forall₂_withFront {R : α → β → Prop} {as : List α} {bs : List β} (h : List.Forall₂ R as bs) :
    List.Forall₂ (fun entry entry' => List.Forall₂ R entry.1 entry'.1 ∧ R entry.2 entry'.2)
      (withFront as) (withFront bs) := by
  induction h with
  | nil => exact .nil
  | cons hfirst _ ih =>
    rw [withFront_cons, withFront_cons]
    refine .cons ⟨.nil, hfirst⟩ ?_
    rw [List.forall₂_map_left_iff, List.forall₂_map_right_iff]
    exact ih.imp fun _ _ hentry => ⟨.cons hfirst hentry.1, hentry.2⟩

/-! ## Counts -/

variable [DecidableEq κ]

theorem getD_tally (key k : κ) (table : List (κ × Nat)) :
    (get? k (tally key table)).getD 0 = (get? k table).getD 0 + if key = k then 1 else 0 := by
  rw [tally, get?_put]
  split
  · rename_i hsame
    rw [hsame, Option.getD_some]
  · rw [Nat.add_zero]

/-- **A table of counts says how often a key occurs.** -/
theorem getD_counts (k : κ) (keys : List κ) :
    (get? k (counts keys)).getD 0 = keys.countP fun key => key = k := by
  induction keys using List.reverseRecOn with
  | nil => rfl
  | append_singleton keys key ih =>
    rw [counts, List.foldl_append, List.foldl_cons, List.foldl_nil, ← counts, getD_tally, ih,
      List.countP_append, List.countP_singleton]
    simp only [decide_eq_true_eq]

/-! ## Numbers -/

/-- Some more things are numbered from the table that the first ones have left behind. -/
theorem numberedFrom_append (key : α → κ) (seen : List (κ × Nat)) (xs ys : List α) :
    numberedFrom key seen (xs ++ ys) =
      numberedFrom key seen xs ++
        numberedFrom key (xs.foldl (fun table x => tally (key x) table) seen) ys := by
  induction xs generalizing seen with
  | nil => rfl
  | cons x xs ih => rw [List.cons_append, numberedFrom, numberedFrom, ih, List.cons_append]; rfl

/-- One more thing gets the number of things with its key. -/
theorem numbered_concat (key : α → κ) (things : List α) (a : α) :
    numbered key (things ++ [a]) =
      numbered key things ++ [(a, things.countP fun b => key b = key a)] := by
  have htable : things.foldl (fun table x => tally (key x) table) [] = counts (things.map key) := by
    rw [counts, List.foldl_map]
  rw [numbered, numberedFrom_append, htable, numberedFrom, getD_counts, List.countP_map]
  rfl

/-- **Each thing is numbered with the number of things in front of it that have its key.** -/
theorem numbered_eq (key : α → κ) (things : List α) :
    numbered key things =
      (withFront things).map fun entry =>
        (entry.2, entry.1.countP fun b => key b = key entry.2) := by
  induction things using List.reverseRecOn with
  | nil => rfl
  | append_singleton things a ih =>
    rw [numbered_concat, withFront_concat, ih, List.map_append, List.map_singleton]

@[simp]
theorem map_fst_numbered (key : α → κ) (things : List α) :
    (numbered key things).map Prod.fst = things := by
  rw [numbered_eq, List.map_map]
  exact map_snd_withFront things

end Pairs

end TemplateAudit
