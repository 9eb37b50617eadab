import TemplateAudit.Proofs.Helper.Pieces

/-!
# Splitting undoes joining

A scan of a text has read a part of it and stands outside of strings, in a string, or behind a backslash in a
string.  Seen from there, the next character either ends a piece or belongs to the first one (`pieces_cons`), so
what a text leads to is all that counts for what stands behind it.  A text is closed when a scan that starts
outside of strings and brackets ends there and meets no comma there.  Closed texts are got back from their join,
and the pieces of a text are closed when the scan of the whole text ends where it started (`pieces_undo_join`).
-/

namespace TemplateAudit

namespace Helper

variable {c : Char} {s t : Text}

/-! ## Scanning -/

/-- A mark that begins and ends strings. -/
abbrev Mark :=
  {c : Char // isQuote c = true}

/-- Where a scan stands: outside of strings, in a string that a mark ends, or behind a backslash in such a string,
and inside of how many brackets. -/
inductive Scan where
  | outside (depth : Nat)
  | inside (mark : Mark) (depth : Nat)
  | escaped (mark : Mark) (depth : Nat)
  deriving DecidableEq, Repr

namespace Scan

variable {scan : Scan}

/-- A scan starts outside of strings and brackets. -/
def start : Scan :=
  outside 0

theorem inside_ne_start (mark : Mark) (depth : Nat) : inside mark depth ≠ start := by
  simp [start]

theorem escaped_ne_start (mark : Mark) (depth : Nat) : escaped mark depth ≠ start := by
  simp [start]

/-- One character is read.  A bracket that closes nothing is passed over. -/
def step : Scan → Char → Scan
  | outside depth, c =>
    if h : isQuote c = true then inside ⟨c, h⟩ depth
    else if isOpening c then outside (depth + 1)
    else if isClosing c then outside (depth - 1)
    else outside depth
  | inside mark depth, c =>
    if c = '\\' then escaped mark depth else if c = mark then outside depth else inside mark depth
  | escaped mark depth, _ => inside mark depth

/-- A text is read. -/
def run (scan : Scan) (s : Text) : Scan :=
  s.foldl step scan

/-- The pieces of what is still to be read, the first piece apart. -/
def pieces : Scan → Text → Text × List Text
  | outside depth, s => piecesFrom ',' none depth s
  | inside mark depth, s => piecesFrom ',' (some mark) depth s
  | escaped _ _, [] => ([], [])
  | escaped mark depth, c :: s => onFirst c (piecesFrom ',' (some mark) depth s)

theorem pieces_nil (scan : Scan) : scan.pieces [] = ([], []) := by
  cases scan <;> rfl

/-- A comma outside of strings and brackets ends a piece, and any other character belongs to one. -/
theorem pieces_cons (scan : Scan) (c : Char) (s : Text) :
    scan.pieces (c :: s) =
      if scan = start ∧ c = ',' then ([], (start.pieces s).1 :: (start.pieces s).2)
      else onFirst c ((scan.step c).pieces s) := by
  cases scan with
  | outside depth =>
    by_cases hcut : outside depth = start ∧ c = ','
    · obtain ⟨hstart, rfl⟩ := hcut
      cases hstart
      rfl
    · have hcut' : ¬(c = ',' ∧ depth = 0) := fun h => hcut ⟨by rw [h.2]; rfl, h.1⟩
      rw [if_neg hcut, pieces, piecesFrom, step]
      split
      · rfl
      · split
        · rfl
        · split <;> rfl
  | inside mark depth =>
    have hcut : ¬(inside mark depth = start ∧ c = ',') := fun h => inside_ne_start mark depth h.1
    rw [if_neg hcut, step]
    by_cases hslash : c = '\\'
    · subst hslash
      cases s with
      | nil =>
        rw [if_pos rfl, pieces, piecesFrom.eq_3 _ _ _ _ _ (by simp), pieces]
        split <;> rfl
      | cons d s => rfl
    · rw [if_neg hslash, pieces, piecesFrom.eq_3 _ _ _ _ _ fun _ _ h => absurd h hslash]
      split <;> rfl
  | escaped mark depth =>
    have hcut : ¬(escaped mark depth = start ∧ c = ',') := fun h => escaped_ne_start mark depth h.1
    rw [if_neg hcut]
    rfl

/-- White space changes nothing outside of strings, and it ends no string. -/
theorem step_eq_start_iff (hc : Text.isBlank c = true) : scan.step c = start ↔ scan = start := by
  obtain ⟨hquote, hopening, hclosing, -⟩ := @isPlain_of_isBlank ',' c (by decide) hc
  have hslash : c ≠ '\\' := by
    rintro rfl
    exact absurd hc (by decide)
  cases scan with
  | outside depth => simp [step, hquote, hopening, hclosing]
  | inside mark depth =>
    have hmark : c ≠ mark := fun h => by
      have := mark.property
      rw [← h, hquote] at this
      cases this
    rw [step, if_neg hslash, if_neg hmark]
  | escaped mark depth => exact iff_of_false (inside_ne_start mark depth) (escaped_ne_start mark depth)

/-! ## Closed texts -/

/-- The scan of a text ends outside of strings and brackets, and it meets no comma there. -/
structure Closes (scan : Scan) (s : Text) : Prop where
  ends : scan.run s = start
  apart : ∀ before after, s = before ++ ',' :: after → scan.run before ≠ start

theorem closes_nil_iff : scan.Closes [] ↔ scan = start :=
  ⟨fun h => h.ends, fun h => ⟨h, by simp⟩⟩

theorem closes_cons_iff : scan.Closes (c :: s) ↔ ¬(scan = start ∧ c = ',') ∧ (scan.step c).Closes s := by
  constructor
  · rintro ⟨hends, hapart⟩
    refine ⟨?_, hends, fun before after heq => hapart (c :: before) after (by rw [heq, List.cons_append])⟩
    rintro ⟨hstart, rfl⟩
    exact hapart [] s rfl hstart
  · rintro ⟨hfirst, hends, hapart⟩
    refine ⟨hends, fun before after heq => ?_⟩
    cases before with
    | nil => exact fun hstart => hfirst ⟨hstart, (List.cons.inj heq).1⟩
    | cons d before =>
      obtain ⟨rfl, hrest⟩ := List.cons.inj heq
      exact hapart before after hrest

/-- Whether a text is closed is found out character by character. -/
def decidableCloses : ∀ (scan : Scan) (s : Text), Decidable (scan.Closes s)
  | _, [] => decidable_of_iff _ closes_nil_iff.symm
  | scan, c :: s =>
    haveI := decidableCloses (scan.step c) s
    decidable_of_iff _ closes_cons_iff.symm

instance (scan : Scan) (s : Text) : Decidable (scan.Closes s) :=
  decidableCloses scan s

/-- Behind a text that is closed the pieces are those of what follows. -/
theorem Closes.pieces_append (h : scan.Closes s) (rest : Text) :
    scan.pieces (s ++ rest) = prepend s (start.pieces rest) := by
  induction s generalizing scan with
  | nil => rw [closes_nil_iff.1 h, List.nil_append, prepend, List.nil_append]
  | cons c s ih =>
    obtain ⟨hfirst, hrest⟩ := closes_cons_iff.1 h
    rw [List.cons_append, pieces_cons, if_neg hfirst, ih hrest, onFirst_eq_prepend, prepend_prepend,
      List.singleton_append]

theorem Closes.standsAlone (h : start.Closes s) : StandsAlone ',' s :=
  h.pieces_append

/-- The pieces of a text whose scan ends where it started are closed. -/
theorem closes_pieces (h : scan.run s = start) :
    scan.Closes (scan.pieces s).1 ∧ ∀ piece ∈ (scan.pieces s).2, start.Closes piece := by
  induction s generalizing scan with
  | nil =>
    rw [pieces_nil]
    exact ⟨closes_nil_iff.2 h, List.forall_mem_nil _⟩
  | cons c s ih =>
    obtain ⟨hfirst, hrest⟩ := ih h
    rw [pieces_cons]
    split
    · rename_i hcut
      obtain ⟨rfl, rfl⟩ := hcut
      exact ⟨closes_nil_iff.2 rfl, List.forall_mem_cons.2 ⟨hfirst, hrest⟩⟩
    · rename_i hcut
      exact ⟨closes_cons_iff.2 ⟨hcut, hfirst⟩, hrest⟩

/-! ## White space around a closed text -/

theorem run_blank (hs : ∀ c ∈ s, Text.isBlank c = true) : scan.run s = start ↔ scan = start := by
  induction s generalizing scan with
  | nil => rfl
  | cons c s ih =>
    obtain ⟨hc, hs⟩ := List.forall_mem_cons.1 hs
    exact (ih hs).trans (step_eq_start_iff hc)

theorem run_append (scan : Scan) (s t : Text) : scan.run (s ++ t) = (scan.run s).run t :=
  List.foldl_append

theorem Closes.of_blank_append (hs : ∀ c ∈ s, Text.isBlank c = true) (h : start.Closes (s ++ t)) :
    start.Closes t := by
  have hstart : start.run s = start := (run_blank hs).2 rfl
  refine ⟨?_, fun before after heq => ?_⟩
  · have hends := h.ends
    rwa [run_append, hstart] at hends
  · have hapart := h.apart (s ++ before) after (by rw [heq, List.append_assoc])
    rwa [run_append, hstart] at hapart

theorem Closes.of_append_blank (ht : ∀ c ∈ t, Text.isBlank c = true) (h : scan.Closes (s ++ t)) : scan.Closes s := by
  refine ⟨?_, fun before after heq => h.apart before (after ++ t) (by rw [heq, List.append_assoc, List.cons_append])⟩
  rw [← run_blank ht, ← run_append, h.ends]

/-- A closed text is closed without the white space around it. -/
theorem Closes.trim (h : start.Closes s) : start.Closes (Text.trim s) := by
  obtain ⟨before, after, heq, hbefore, hafter⟩ := Text.exists_around_trim s
  rw [heq] at h
  exact (h.of_blank_append hbefore).of_append_blank hafter

end Scan

/-! ## Splitting a join -/

/-- A text that may stand between commas: there is something, without white space around it, and it is closed. -/
structure IsArgument (s : Text) : Prop where
  nonempty : s ≠ []
  trimmed : Text.IsTrimmed s
  closed : Scan.start.Closes s

instance (s : Text) : Decidable (IsArgument s) :=
  decidable_of_iff (s ≠ [] ∧ Text.IsTrimmed s ∧ Scan.start.Closes s)
    ⟨fun h => ⟨h.1, h.2.1, h.2.2⟩, fun h => ⟨h.nonempty, h.trimmed, h.closed⟩⟩

/-- Arguments are got back from their join. -/
theorem pieces_join_of_isArgument {texts : List Text} (h : ∀ text ∈ texts, IsArgument text) :
    pieces ',' (Text.join ", " texts) = texts := by
  have hempty : ∀ c ∈ ([] : Text), Text.isBlank c = true := List.forall_mem_nil _
  have hpieces := pieces_join (fun text htext => (h text htext).closed.standsAlone)
    (fun text htext => (h text htext).trimmed) (fun text htext => (h text htext).nonempty) hempty hempty
  rwa [List.nil_append, List.append_nil] at hpieces

/-- The pieces of a text are arguments when its scan ends where it started. -/
theorem isArgument_of_mem_pieces (hs : Scan.start.run s = Scan.start) {piece : Text} (h : piece ∈ pieces ',' s) :
    IsArgument piece := by
  obtain ⟨hpiece, hnonempty⟩ := List.mem_filter.1 h
  obtain ⟨raw, hraw, rfl⟩ := List.mem_map.1 hpiece
  obtain ⟨hfirst, hrest⟩ := Scan.closes_pieces hs
  have hclosed : Scan.start.Closes raw := List.forall_mem_cons.2 ⟨hfirst, hrest⟩ raw hraw
  exact ⟨by simpa using hnonempty, Text.isTrimmed_trim raw, hclosed.trim⟩

/-- **Splitting undoes joining.**  Arguments are got back from their join with commas, and the pieces of a text
whose scan ends outside of strings and brackets are got back from theirs. -/
theorem pieces_undo_join :
    (∀ texts : List Text, (∀ text ∈ texts, IsArgument text) → pieces ',' (Text.join ", " texts) = texts) ∧
    ∀ text : Text, Scan.start.run text = Scan.start →
      pieces ',' (Text.join ", " (pieces ',' text)) = pieces ',' text :=
  ⟨fun _ => pieces_join_of_isArgument, fun _ h => pieces_join_of_isArgument fun _ => isArgument_of_mem_pieces h⟩

/-- Arguments with a bracket that closes nothing, an escaped quote and a comma in a string, and commas in
brackets. -/
def mixedArguments : List Text :=
  ["a) ]b", "'it\\'s, (\\\\'", "\x7b k: [1, \"\x7d, \"] \x7d", "\\"]

/-- A text with empty pieces, white space, a string and brackets that close nothing. -/
def crowdedText : Text :=
  " ,a ) , \n'x\\',' ,,[1, (2, 3]), b), c"

theorem pieces_undo_join_mixed :
    ((∀ text ∈ mixedArguments, IsArgument text) ∧ pieces ',' (Text.join ", " mixedArguments) = mixedArguments) ∧
      Scan.start.run crowdedText = Scan.start ∧
      pieces ',' (Text.join ", " (pieces ',' crowdedText)) = pieces ',' crowdedText := by
  have harguments : ∀ text ∈ mixedArguments, IsArgument text := by decide +kernel
  have hstart : Scan.start.run crowdedText = Scan.start := by decide +kernel
  exact ⟨⟨harguments, pieces_undo_join.1 mixedArguments harguments⟩, hstart, pieces_undo_join.2 crowdedText hstart⟩

end Helper

end TemplateAudit
