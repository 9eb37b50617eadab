import TemplateAudit.Proofs.Markup.Spacing
import TemplateAudit.Proofs.Path
import TemplateAudit.Proofs.Text.Parts

/-!
# Cleaned-up markup

Cleaning up takes white space out and nothing else, and what is clean stays as it is (`tidy_cleans`).  A text is
seen as the runs of white space around its other characters (`gaps`): trimming the lines keeps the newlines of
every run, and squeezing leaves two of them where there were more.
-/

namespace TemplateAudit

namespace Markup

variable {s t run : Text} {c : Char}

/-! ## Runs of white space -/

/-- A text of white space only. -/
def IsRun (run : Text) : Prop :=
  ∀ c ∈ run, Text.isBlank c = true

/-- The runs of white space of a text, also the empty ones: in front of, between and behind the characters
that are none. -/
def gaps (s : Text) : List Text :=
  s.splitOnP fun c => !Text.isBlank c

/-- The newlines in each run of white space of a text. -/
def breaks (s : Text) : List Nat :=
  (gaps s).map Text.newlines

/-- Every text is a run of white space, or a run with another character and a text behind it. -/
theorem run_induction {motive : Text → Prop} (run : ∀ run, IsRun run → motive run)
    (solid : ∀ run c t, IsRun run → Text.isBlank c = false → motive t → motive (run ++ c :: t)) (s : Text) :
    motive s := by
  have hbehind : ∀ before, IsRun before → motive (before ++ s) := by
    induction s with
    | nil => exact fun before hbefore => (List.append_nil before).symm ▸ run before hbefore
    | cons c s ih =>
      intro before hbefore
      by_cases hc : Text.isBlank c = true
      · rw [List.append_cons]
        exact ih _ (List.forall_mem_append.2 ⟨hbefore, List.forall_mem_singleton.2 hc⟩)
      · exact solid before c s hbefore (Bool.eq_false_iff.2 hc) (ih [] (List.forall_mem_nil _))
  exact hbehind [] (List.forall_mem_nil _)

theorem gaps_of_isRun (h : IsRun run) : gaps run = [run] :=
  List.splitOnP_eq_singleton fun c hc => by simp [h c hc]

theorem gaps_append (hc : Text.isBlank c = false) (s t : Text) : gaps (s ++ c :: t) = gaps s ++ gaps t :=
  List.splitOnP_append_cons s t (by simp [hc])

theorem gaps_cons (c : Char) (s : Text) :
    gaps (c :: s) = if Text.isBlank c then (gaps s).modifyHead (c :: ·) else [] :: gaps s := by
  rw [gaps, List.splitOnP_cons_eq_if_modifyHead]
  cases Text.isBlank c <;> rfl

theorem breaks_cons (c : Char) (s : Text) :
    breaks (c :: s) =
      if Text.isBlank c then (breaks s).modifyHead (· + if c = '\n' then 1 else 0) else 0 :: breaks s := by
  rw [breaks, gaps_cons]
  split
  · obtain ⟨gap, rest, hgaps⟩ := List.exists_cons_of_ne_nil (List.splitOnP_ne_nil (fun c => !Text.isBlank c) s)
    rw [breaks, gaps, hgaps, List.modifyHead_cons, List.map_cons, List.map_cons, List.modifyHead_cons,
      Text.newlines, List.count_cons]
    simp [Text.newlines]
  · rfl

/-- What does not hold a character stands in front of it or behind it. -/
theorem infix_append_cons (hc : c ∉ run) (h : run <:+: s ++ c :: t) : run <:+: s ∨ run <:+: t := by
  obtain ⟨front, back, hsplit⟩ := h
  rw [List.append_assoc] at hsplit
  rcases List.append_eq_append_iff.1 hsplit with ⟨more, rfl, hmore⟩ | ⟨more, -, hmore⟩
  · rcases List.append_eq_append_iff.1 hmore with ⟨others, rfl, -⟩ | ⟨others, rfl, hothers⟩
    · exact .inl ⟨front, others, List.append_assoc ..⟩
    · cases others with
      | nil => exact .inl ⟨front, [], by simp⟩
      | cons d others =>
        obtain ⟨rfl, -⟩ := List.cons.inj hothers
        exact absurd (List.mem_append_right _ List.mem_cons_self) hc
  · cases more with
    | nil =>
      cases run with
      | nil => exact .inl (List.nil_infix)
      | cons d run =>
        obtain ⟨rfl, -⟩ := List.cons.inj hmore
        exact absurd List.mem_cons_self hc
    | cons d more =>
      obtain ⟨-, rfl⟩ := List.cons.inj hmore
      exact .inr ⟨more, back, List.append_assoc ..⟩

/-- White space that stands together in a text stands in one of its runs. -/
theorem exists_gap_of_infix (hrun : IsRun run) (h : run <:+: s) : ∃ gap ∈ gaps s, run <:+: gap := by
  induction s using run_induction with
  | run whole hwhole => exact ⟨whole, by rw [gaps_of_isRun hwhole]; exact List.mem_singleton_self _, h⟩
  | solid before c t hbefore hc ih =>
    have hnot : c ∉ run := fun hmem => by
      rw [hrun c hmem] at hc
      cases hc
    rw [gaps_append hc, gaps_of_isRun hbefore]
    rcases infix_append_cons hnot h with hfront | hback
    · exact ⟨before, List.mem_append_left _ (List.mem_singleton_self _), hfront⟩
    · obtain ⟨gap, hgap, hin⟩ := ih hback
      exact ⟨gap, List.mem_append_right _ hgap, hin⟩

/-! ## Ends of lines -/

/-- No line of a text ends in a space or a tab. -/
structure HasCleanLines (s : Text) : Prop where
  within : s.IsChain fun c d => isSpaceOrTab c = true → d ≠ '\n'
  atEnd : ∀ c ∈ s.getLast?, isSpaceOrTab c = false

theorem hasCleanLines_trimLines (s : Text) : HasCleanLines (trimLines s) := by
  induction s with
  | nil => exact ⟨.nil, nofun⟩
  | cons c s ih =>
    rw [trimLines]
    split
    · exact ih
    · rename_i hkept
      refine ⟨List.isChain_cons.2 ⟨?_, ih.within⟩, ?_⟩
      · rintro _ hd hspace rfl
        obtain ⟨rest, hrest⟩ := List.head?_eq_some_iff.1 hd
        exact hkept (by rw [hspace, hrest]; rfl)
      · intro d hd
        rw [List.getLast?_cons] at hd
        cases hrest : trimLines s with
        | nil =>
          rw [hrest] at hd hkept
          obtain rfl := Option.some.inj hd
          simpa [isLineEnd] using hkept
        | cons e rest =>
          refine ih.atEnd d ?_
          rw [hrest, List.getLast?_cons] at hd ⊢
          exact hd

theorem HasCleanLines.tail (h : HasCleanLines (c :: s)) : HasCleanLines s where
  within := (List.isChain_cons.1 h.within).2
  atEnd := fun d hd => h.atEnd d (by rw [List.getLast?_cons, Option.mem_def.1 hd]; rfl)

theorem HasCleanLines.isSpaceOrTab_head (h : HasCleanLines (c :: s)) (hend : isLineEnd s = true) :
    isSpaceOrTab c = false := by
  cases s with
  | nil => exact h.atEnd c rfl
  | cons d s =>
    obtain rfl := eq_of_beq hend
    exact Bool.eq_false_iff.2 fun hspace => (List.isChain_cons.1 h.within).1 _ rfl hspace rfl

theorem HasCleanLines.trimLines_eq (h : HasCleanLines s) : trimLines s = s :=
  trimLines_of_isChain h.within h.atEnd

theorem isLineEnd_of_first_line {lines : List Text} (h : Text.lines s = [] :: lines) : isLineEnd s = true := by
  cases s with
  | nil => rfl
  | cons c s =>
    by_contra hc
    obtain ⟨first, rest, -, hcons⟩ := Text.splitAtChar_cons_of_ne (fun heq => hc (beq_iff_eq.2 heq)) s
    rw [Text.lines, hcons] at h
    cases h

theorem HasCleanLines.of_mem_lines (h : HasCleanLines s) {line : Text} (hline : line ∈ Text.lines s) :
    ∀ c ∈ line.getLast?, isSpaceOrTab c = false := by
  induction s generalizing line with
  | nil =>
    obtain rfl := List.mem_singleton.1 hline
    exact nofun
  | cons c s ih =>
    by_cases hc : c = '\n'
    · rw [Text.lines, Text.splitAtChar, if_pos hc] at hline
      rcases List.mem_cons.1 hline with rfl | hline
      · exact nofun
      · exact ih h.tail hline
    · obtain ⟨first, lines, hlines, hcons⟩ := Text.splitAtChar_cons_of_ne hc s
      rw [Text.lines, hcons] at hline
      rcases List.mem_cons.1 hline with rfl | hline
      · intro d hd
        rw [List.getLast?_cons] at hd
        cases first with
        | nil =>
          obtain rfl := Option.some.inj hd
          exact h.isSpaceOrTab_head (isLineEnd_of_first_line hlines)
        | cons e first =>
          rw [List.getLast?_cons] at hd
          have hfirst : e :: first ∈ Text.lines s := by
            rw [Text.lines, hlines]
            exact List.mem_cons_self
          exact ih h.tail hfirst d (by rw [List.getLast?_cons]; exact hd)
      · refine ih h.tail ?_
        rw [Text.lines, hlines]
        exact List.mem_cons_of_mem _ hline

/-- Trimming the lines only takes white space out. -/
theorem filter_trimLines (s : Text) :
    (trimLines s).filter (fun c => !Text.isBlank c) = s.filter fun c => !Text.isBlank c := by
  induction s with
  | nil => rfl
  | cons c s ih =>
    rw [trimLines]
    split
    · rename_i hremoved
      have hblank := isBlank_of_isSpaceOrTab (Bool.and_eq_true_iff.1 hremoved).1
      rw [ih, List.filter_cons_of_neg (by simp [hblank])]
    · rw [List.filter_cons, List.filter_cons, ih]

/-- It leaves every newline where it is. -/
theorem breaks_trimLines (s : Text) : breaks (trimLines s) = breaks s := by
  induction s with
  | nil => rfl
  | cons c s ih =>
    rw [trimLines, breaks_cons]
    split
    · rename_i hremoved
      obtain ⟨hspace, -⟩ := Bool.and_eq_true_iff.1 hremoved
      have hnewline : c ≠ '\n' := fun heq => by
        rw [heq] at hspace
        cases hspace
      rw [ih, if_pos (isBlank_of_isSpaceOrTab hspace), if_neg hnewline]
      exact (List.modifyHead_id ▸ rfl : breaks s = (breaks s).modifyHead id)
    · rw [breaks_cons, ih]

/-! ## Runs of empty lines -/

theorem squeezeFrom_of_isRun (h : IsRun s) (run : Text) : squeezeFrom run s = squeezeRun (run.reverse ++ s) := by
  induction s generalizing run with
  | nil => rw [squeezeFrom, List.append_nil]
  | cons c s ih =>
    obtain ⟨hc, hs⟩ := List.forall_mem_cons.1 h
    rw [squeezeFrom, if_pos hc, ih hs, List.reverse_cons, ← List.append_cons]

theorem squeeze_of_isRun (h : IsRun run) : squeeze run = squeezeRun run :=
  squeezeFrom_of_isRun h []

theorem squeeze_append (hc : Text.isBlank c = false) (s t : Text) :
    squeeze (s ++ c :: t) = squeeze s ++ c :: squeeze t :=
  squeezeFrom_append hc [] s t

theorem squeezeRun_of_few (h : Text.newlines run < 3) : squeezeRun run = run :=
  if_pos h

/-- A run with many newlines keeps what stands in front of the first and behind the last of them, and two
newlines. -/
theorem exists_squeezeRun_of_many (h : 3 ≤ Text.newlines run) : ∃ before between after,
    run = before ++ '\n' :: (between ++ '\n' :: after) ∧ '\n' ∉ before ∧ '\n' ∉ after ∧
      squeezeRun run = before ++ '\n' :: '\n' :: after := by
  have hfirst : '\n' ∈ run := List.count_pos_iff.1 (Nat.lt_of_lt_of_le (by decide) h)
  obtain ⟨before, rest, hrun, hbefore⟩ := List.eq_append_cons_of_mem hfirst
  have hcount : Text.newlines run = Text.newlines rest + 1 := by
    rw [hrun, Text.newlines, List.count_append, List.count_eq_zero.2 hbefore, List.count_cons_self, Nat.zero_add]
    rfl
  have hlast : '\n' ∈ rest.reverse := List.mem_reverse.2 (List.count_pos_iff.1 (by
    rw [hcount] at h
    exact Nat.lt_of_lt_of_le (by decide) (Nat.le_of_succ_le_succ h)))
  obtain ⟨after, between, hrest, hafter⟩ := List.eq_append_cons_of_mem hlast
  have hsplit : run = before ++ '\n' :: (between.reverse ++ '\n' :: after.reverse) := by
    rw [hrun, ← List.reverse_reverse rest, hrest]
    simp
  refine ⟨before, between.reverse, after.reverse, hsplit, hbefore, mt List.mem_reverse.1 hafter, ?_⟩
  have htake : ∀ {part : Text} (more : Text), '\n' ∉ part → (part ++ '\n' :: more).takeWhile (· != '\n') = part :=
    fun more hpart => Text.takeWhile_append_of_stop
      (fun d hd => bne_iff_ne.2 fun heq => hpart (heq ▸ hd)) (by rintro d ⟨⟩; rfl)
  have hback : run.reverse = after ++ '\n' :: (between ++ '\n' :: before.reverse) := by
    rw [hsplit]
    simp
  rw [squeezeRun, if_neg (Nat.not_lt.2 h), hback, htake _ hafter, hsplit, htake _ hbefore]
  simp

theorem newlines_squeezeRun (run : Text) : Text.newlines (squeezeRun run) = min 2 (Text.newlines run) := by
  by_cases hfew : Text.newlines run < 3
  · rw [squeezeRun_of_few hfew]
    omega
  · obtain ⟨before, between, after, -, hbefore, hafter, hsqueeze⟩ := exists_squeezeRun_of_many (Nat.not_lt.1 hfew)
    have htwo : Text.newlines (squeezeRun run) = 2 := by
      rw [hsqueeze, Text.newlines, List.count_append, List.count_eq_zero.2 hbefore, List.count_cons_self,
        List.count_cons_self, List.count_eq_zero.2 hafter]
    omega

theorem getLast?_squeezeRun (run : Text) : (squeezeRun run).getLast? = run.getLast? := by
  by_cases hfew : Text.newlines run < 3
  · rw [squeezeRun_of_few hfew]
  · obtain ⟨before, between, after, hrun, -, -, hsqueeze⟩ := exists_squeezeRun_of_many (Nat.not_lt.1 hfew)
    rw [hsqueeze, hrun]
    simp [List.getLast?_append, List.getLast?_cons]

/-- The newlines of every run of white space are squeezed. -/
theorem breaks_squeeze (s : Text) : breaks (squeeze s) = (breaks s).map (min 2) := by
  have hrun : ∀ {run}, IsRun run → breaks (squeezeRun run) = (breaks run).map (min 2) := fun {run} h => by
    rw [breaks, breaks, gaps_of_isRun h, gaps_of_isRun (isBlank_squeezeRun h), List.map_singleton, List.map_singleton,
      List.map_singleton, newlines_squeezeRun]
  induction s using run_induction with
  | run run h => rw [squeeze_of_isRun h, hrun h]
  | solid run c t h hc ih =>
    have happend : ∀ s t, breaks (s ++ c :: t) = breaks s ++ breaks t := fun s t => by
      rw [breaks, gaps_append hc, List.map_append]
      rfl
    rw [squeeze_append hc, squeeze_of_isRun h, happend, happend, hrun h, ih, List.map_append]

/-- Squeezing only takes white space out. -/
theorem filter_squeeze (s : Text) :
    (squeeze s).filter (fun c => !Text.isBlank c) = s.filter fun c => !Text.isBlank c := by
  have hrun : ∀ {run}, IsRun run → run.filter (fun c => !Text.isBlank c) = [] := fun h =>
    List.filter_eq_nil_iff.2 fun c hc => by simp [h c hc]
  induction s using run_induction with
  | run run h => rw [squeeze_of_isRun h, hrun h, hrun (isBlank_squeezeRun h)]
  | solid run c t h hc ih =>
    rw [squeeze_append hc, squeeze_of_isRun h, List.filter_append, List.filter_append, hrun h,
      hrun (isBlank_squeezeRun h), List.filter_cons, List.filter_cons, ih]

/-- Text without long runs of newlines is not squeezed. -/
theorem squeeze_eq_self (h : ∀ n ∈ breaks s, n ≤ 2) : squeeze s = s := by
  have hrun : ∀ {run}, IsRun run → (∀ n ∈ breaks run, n ≤ 2) → squeeze run = run := fun {run} hrun hfew => by
    rw [squeeze_of_isRun hrun, squeezeRun_of_few]
    exact Nat.lt_succ_of_le (hfew _ (by rw [breaks, gaps_of_isRun hrun]; exact List.mem_singleton_self _))
  induction s using run_induction with
  | run run hblank => exact hrun hblank h
  | solid run c t hblank hc ih =>
    rw [breaks, gaps_append hc, List.map_append, List.forall_mem_append] at h
    rw [squeeze_append hc, hrun hblank h.1, ih h.2]

theorem getLast?_squeeze (s : Text) : (squeeze s).getLast? = s.getLast? := by
  induction s using run_induction with
  | run run hrun => rw [squeeze_of_isRun hrun, getLast?_squeezeRun]
  | solid run c t _ hc ih =>
    rw [squeeze_append hc, List.getLast?_append, List.getLast?_append, List.getLast?_cons, List.getLast?_cons, ih]
    rfl

/-- No space comes to stand in front of a newline: what a run keeps in front of its first newline stood there. -/
theorem isChain_squeezeRun (h : run.IsChain fun c d => isSpaceOrTab c = true → d ≠ '\n') :
    (squeezeRun run).IsChain fun c d => isSpaceOrTab c = true → d ≠ '\n' := by
  by_cases hfew : Text.newlines run < 3
  · rwa [squeezeRun_of_few hfew]
  · obtain ⟨before, between, after, rfl, -, -, hsqueeze⟩ := exists_squeezeRun_of_many (Nat.not_lt.1 hfew)
    obtain ⟨hbefore, hbehind, hfirst⟩ := List.isChain_append.1 h
    have hafter := (List.isChain_append.1 (List.isChain_cons.1 hbehind).2).2.1
    rw [hsqueeze]
    refine List.isChain_append.2 ⟨hbefore, List.isChain_cons.2 ⟨?_, hafter⟩, hfirst⟩
    rintro d - hspace
    cases hspace

/-- Where no line ends in a space, none does so after the text was squeezed. -/
theorem HasCleanLines.squeeze (h : HasCleanLines s) : HasCleanLines (squeeze s) := by
  refine ⟨?_, fun c hc => h.atEnd c (getLast?_squeeze s ▸ hc)⟩
  have hwithin := h.within
  clear h
  induction s using run_induction with
  | run run hrun =>
    rw [squeeze_of_isRun hrun]
    exact isChain_squeezeRun hwithin
  | solid run c t hrun hc ih =>
    obtain ⟨hfront, hbehind, -⟩ := List.isChain_append.1 hwithin
    rw [squeeze_append hc, squeeze_of_isRun hrun]
    refine List.isChain_append.2 ⟨isChain_squeezeRun hfront, List.isChain_cons.2 ⟨?_, ?_⟩, ?_⟩
    · intro d _ hspace
      rw [isSpaceOrTab_of_not_blank hc] at hspace
      cases hspace
    · exact ih (List.isChain_cons.1 hbehind).2
    · rintro b - d hd - rfl
      obtain rfl := Option.some.inj hd
      cases hc

/-! ## Cleaning up -/

theorem hasCleanLines_tidy (s : Text) : HasCleanLines (tidy s) :=
  (hasCleanLines_trimLines s).squeeze

theorem breaks_tidy (s : Text) : breaks (tidy s) = (breaks s).map (min 2) := by
  rw [tidy, breaks_squeeze, breaks_trimLines]

/-- **Cleaning up is idempotent and only takes white space out.**  Behind it no line ends in a space or a tab and
no three newlines stand in one run of white space; a run with at most two newlines keeps them, and a longer one
keeps two. -/
theorem tidy_cleans (s : Text) :
    tidy (tidy s) = tidy s ∧
    (tidy s).filter (fun c => !Text.isBlank c) = s.filter (fun c => !Text.isBlank c) ∧
    (∀ line ∈ Text.lines (tidy s), ∀ c ∈ line.getLast?, isSpaceOrTab c = false) ∧
    (∀ run, run <:+: tidy s → IsRun run → Text.newlines run ≤ 2) ∧
    (gaps (tidy s)).map Text.newlines = (gaps s).map fun run => min 2 (Text.newlines run) := by
  have hclean := hasCleanLines_tidy s
  have hbreaks := breaks_tidy s
  have hfew : ∀ n ∈ breaks (tidy s), n ≤ 2 := fun n hn => by
    rw [hbreaks] at hn
    obtain ⟨m, -, rfl⟩ := List.mem_map.1 hn
    exact Nat.min_le_left 2 m
  refine ⟨?_, ?_, fun line hline => hclean.of_mem_lines hline, fun run hin hrun => ?_, ?_⟩
  · calc tidy (tidy s) = squeeze (tidy s) := by rw [tidy, hclean.trimLines_eq]
      _ = tidy s := squeeze_eq_self hfew
  · rw [tidy, filter_squeeze, filter_trimLines]
  · obtain ⟨gap, hgap, hrun⟩ := exists_gap_of_infix hrun hin
    calc Text.newlines run ≤ Text.newlines gap := hrun.sublist.count_le '\n'
      _ ≤ 2 := hfew _ (List.mem_map_of_mem hgap)
  · rw [breaks, breaks, List.map_map] at hbreaks
    exact hbreaks

end Markup

end TemplateAudit
