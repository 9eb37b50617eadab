import TemplateAudit.Text.Basic

/-!
# Replacing a part

Every place where a part stands is found from left to right and without overlap, and something else is
put there.  `replace_append` and `replace_cons` say what becomes of a text that begins with the part,
and of one that does not.
-/

namespace TemplateAudit

namespace Text

/-- Every `old` replaced by `new`. -/
def replace (old new s : Text) : Text :=
  join new (splitOn old s)

theorem splitFrom_skip (part s t : Text) : splitFrom part s.length (s ++ t) = splitFrom part 0 t := by
  induction s with
  | nil => rfl
  | cons c s ih => exact ih

theorem splitOn_append {part : Text} (h : part ≠ []) (s : Text) :
    splitOn part (part ++ s) = [] :: splitOn part s := by
  obtain ⟨c, rest, rfl⟩ := List.exists_cons_of_ne_nil h
  have hstarts : (c :: rest).isPrefixOf (c :: rest ++ s) = true :=
    List.isPrefixOf_iff_prefix.2 (List.prefix_append _ _)
  have hskip := splitFrom_skip (c :: rest) rest s
  simp only [splitOn, List.cons_append, splitFrom] at hstarts ⊢
  rw [if_pos hstarts, List.length_cons, Nat.add_sub_cancel, hskip]

theorem splitOn_cons {part : Text} {c : Char} {s : Text} (h : ¬part <+: c :: s) :
    splitOn part (c :: s) = (c :: (splitFrom part 0 s).1) :: (splitFrom part 0 s).2 := by
  have hstarts : ¬part.isPrefixOf (c :: s) = true := fun hpre => h (List.isPrefixOf_iff_prefix.1 hpre)
  rw [splitOn, splitFrom, if_neg hstarts]

@[simp]
theorem replace_nil (old new : Text) : replace old new [] = [] := rfl

/-- A part at the beginning is replaced. -/
theorem replace_append {old : Text} (h : old ≠ []) (new s : Text) :
    replace old new (old ++ s) = new ++ replace old new s := by
  rw [replace, splitOn_append h]
  simp only [replace, splitOn, join, List.nil_append]

/-- A character that no such part begins with stays. -/
theorem replace_cons {old : Text} {c : Char} {s : Text} (h : ¬old <+: c :: s) (new : Text) :
    replace old new (c :: s) = c :: replace old new s := by
  rw [replace, splitOn_cons h, replace, splitOn]
  cases (splitFrom old 0 s).2 with
  | nil => rfl
  | cons piece pieces => simp only [join, List.cons_append]

end Text

end TemplateAudit
