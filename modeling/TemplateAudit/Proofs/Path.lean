import TemplateAudit.Disk.Basic

/-!
# Paths and the texts that write them

An absolute path whose parts are names can be told from its text: `Path.ofText_toText` reads the text
back, so that two such paths with one text are one path (`Path.toText_inj`).  What a text leads to and
what a disk resolves are paths of this kind (`Path.clean_ofText`, `Disk.clean_resolve`).
-/

namespace TemplateAudit

namespace Text

/-! ## Splitting at a character -/

theorem splitAtChar_ne_nil (mark : Char) (s : Text) : splitAtChar mark s ≠ [] := by
  cases s with
  | nil => simp [splitAtChar]
  | cons c s =>
    rw [splitAtChar]
    split
    · simp
    · split <;> simp

theorem splitAtChar_cons_of_ne {mark c : Char} (h : c ≠ mark) (s : Text) :
    ∃ piece pieces, splitAtChar mark s = piece :: pieces ∧
      splitAtChar mark (c :: s) = (c :: piece) :: pieces := by
  cases hs : splitAtChar mark s with
  | nil => exact absurd hs (splitAtChar_ne_nil mark s)
  | cons piece pieces =>
    refine ⟨piece, pieces, rfl, ?_⟩
    rw [splitAtChar, if_neg h, hs]

/-- No piece holds the character that the text is split at. -/
theorem not_mem_of_mem_splitAtChar {mark : Char} {s piece : Text}
    (h : piece ∈ splitAtChar mark s) : mark ∉ piece := by
  induction s generalizing piece with
  | nil =>
    rw [splitAtChar, List.mem_singleton] at h
    rw [h]
    exact List.not_mem_nil
  | cons c s ih =>
    by_cases hc : c = mark
    · rw [splitAtChar, if_pos hc] at h
      rcases List.mem_cons.1 h with rfl | hrest
      · exact List.not_mem_nil
      · exact ih hrest
    · obtain ⟨first, pieces, hs, hcons⟩ := splitAtChar_cons_of_ne hc s
      rw [hcons] at h
      rcases List.mem_cons.1 h with rfl | hrest
      · intro hmem
        rcases List.mem_cons.1 hmem with rfl | hmem
        · exact hc rfl
        · exact ih (by rw [hs]; exact List.mem_cons_self) hmem
      · exact ih (by rw [hs]; exact List.mem_cons_of_mem _ hrest)

/-- Every character but the mark is in a piece. -/
theorem exists_mem_splitAtChar {mark c : Char} (hc : c ≠ mark) {s : Text} (h : c ∈ s) :
    ∃ piece ∈ splitAtChar mark s, c ∈ piece := by
  induction s with
  | nil => cases h
  | cons d s ih =>
    by_cases hd : d = mark
    · rw [splitAtChar, if_pos hd]
      obtain ⟨piece, hpiece, hin⟩ := ih ((List.mem_cons.1 h).resolve_left fun heq => hc (heq.trans hd))
      exact ⟨piece, List.mem_cons_of_mem _ hpiece, hin⟩
    · obtain ⟨first, pieces, hs, hcons⟩ := splitAtChar_cons_of_ne hd s
      rw [hcons]
      rcases List.mem_cons.1 h with rfl | h
      · exact ⟨_, List.mem_cons_self, List.mem_cons_self⟩
      · obtain ⟨piece, hpiece, hin⟩ := ih h
        rw [hs] at hpiece
        rcases List.mem_cons.1 hpiece with rfl | hpiece
        · exact ⟨_, List.mem_cons_self, List.mem_cons_of_mem _ hin⟩
        · exact ⟨piece, List.mem_cons_of_mem _ hpiece, hin⟩

theorem splitAtChar_of_not_mem {mark : Char} {s : Text} (h : mark ∉ s) : splitAtChar mark s = [s] := by
  induction s with
  | nil => rfl
  | cons c s ih =>
    obtain ⟨hc, hs⟩ := List.ne_and_not_mem_of_not_mem_cons h
    rw [splitAtChar, if_neg (Ne.symm hc), ih hs]

theorem splitAtChar_append {mark : Char} {s : Text} (h : mark ∉ s) (t : Text) :
    splitAtChar mark (s ++ mark :: t) = s :: splitAtChar mark t := by
  induction s with
  | nil => rw [List.nil_append, splitAtChar, if_pos rfl]
  | cons c s ih =>
    obtain ⟨hc, hs⟩ := List.ne_and_not_mem_of_not_mem_cons h
    rw [List.cons_append, splitAtChar, if_neg (Ne.symm hc), ih hs]

/-- Pieces that do not hold the character are found again between its places. -/
theorem splitAtChar_join {mark : Char} {piece : Text} {pieces : List Text}
    (h : ∀ p ∈ piece :: pieces, mark ∉ p) :
    splitAtChar mark (join [mark] (piece :: pieces)) = piece :: pieces := by
  induction pieces generalizing piece with
  | nil => exact splitAtChar_of_not_mem (h piece List.mem_cons_self)
  | cons next pieces ih =>
    rw [join, List.append_assoc, List.singleton_append,
      splitAtChar_append (h piece List.mem_cons_self),
      ih fun p hp => h p (List.mem_cons_of_mem _ hp)]
    exact List.cons_ne_nil _ _

/-- A character in no piece and not in the separator is not in the text. -/
theorem not_mem_join {c : Char} {separator : Text} {pieces : List Text} (hseparator : c ∉ separator)
    (hpieces : ∀ piece ∈ pieces, c ∉ piece) : c ∉ join separator pieces := by
  induction pieces with
  | nil => exact List.not_mem_nil
  | cons piece pieces ih =>
    obtain ⟨hpiece, hpieces⟩ := List.forall_mem_cons.1 hpieces
    cases pieces with
    | nil => exact hpiece
    | cons next pieces =>
      rw [join]
      · simp only [List.mem_append, not_or]
        exact ⟨⟨hpiece, hseparator⟩, ih hpieces⟩
      · exact fun hnil => List.cons_ne_nil _ _ hnil

end Text

namespace Path

/-! ## Parts -/

/-- What can stand between the slashes of a path and says something. -/
def IsPart (part : Text) : Prop :=
  part ≠ [] ∧ part ≠ ['.'] ∧ '/' ∉ part

/-- A path all of whose parts say something. -/
def Clean (path : Path) : Prop :=
  ∀ part ∈ path.parts, IsPart part

theorem isPart_of_mem_partsOf {s part : Text} (h : part ∈ partsOf s) : IsPart part := by
  obtain ⟨hmem, hkeep⟩ := List.mem_filter.1 h
  simp only [Bool.and_eq_true, Bool.not_eq_true', List.isEmpty_eq_false_iff, bne_iff_ne] at hkeep
  exact ⟨hkeep.1, hkeep.2, Text.not_mem_of_mem_splitAtChar hmem⟩

theorem clean_ofText (s : Text) : (ofText s).Clean :=
  fun _ hpart => isPart_of_mem_partsOf hpart

/-- Going up takes parts away and adds none. -/
theorem mem_of_mem_simplify {part : Text} {parts : List Text} (h : part ∈ simplify parts) :
    part ∈ parts := by
  have hfold : ∀ (parts above : List Text),
      part ∈ parts.foldl (fun above part => if part = "..".toList then above.tail else part :: above)
        above → part ∈ parts ∨ part ∈ above := by
    intro parts
    induction parts with
    | nil => exact fun above hmem => Or.inr hmem
    | cons first parts ih =>
      intro above hmem
      rw [List.foldl_cons] at hmem
      rcases ih _ hmem with hrest | habove
      · exact Or.inl (List.mem_cons_of_mem _ hrest)
      · split at habove
        · exact Or.inr (List.mem_of_mem_tail habove)
        · rcases List.mem_cons.1 habove with rfl | habove
          · exact Or.inl List.mem_cons_self
          · exact Or.inr habove
  rcases hfold parts [] (List.mem_reverse.1 h) with hmem | hnil
  · exact hmem
  · exact absurd hnil List.not_mem_nil

/-- Parts without `..` stay as they are. -/
theorem simplify_eq_self {parts : List Text} (h : "..".toList ∉ parts) : simplify parts = parts := by
  have hfold : ∀ (parts above : List Text), "..".toList ∉ parts →
      parts.foldl (fun above part => if part = "..".toList then above.tail else part :: above) above =
        parts.reverse ++ above := by
    intro parts
    induction parts with
    | nil => exact fun above _ => rfl
    | cons first parts ih =>
      intro above hmem
      obtain ⟨hfirst, hrest⟩ := List.ne_and_not_mem_of_not_mem_cons hmem
      rw [List.foldl_cons, if_neg (Ne.symm hfirst), ih _ hrest, List.reverse_cons, List.append_assoc,
        List.singleton_append]
  rw [simplify, hfold parts [] h, List.append_nil, List.reverse_reverse]

/-- After going up no `..` is left. -/
theorem not_mem_simplify (parts : List Text) : "..".toList ∉ simplify parts := by
  have hfold : ∀ (parts above : List Text), "..".toList ∉ above →
      "..".toList ∉ parts.foldl
        (fun above part => if part = "..".toList then above.tail else part :: above) above := by
    intro parts
    induction parts with
    | nil => exact fun above habove => habove
    | cons first parts ih =>
      intro above habove
      rw [List.foldl_cons]
      refine ih _ ?_
      split
      · exact fun hmem => habove (List.mem_of_mem_tail hmem)
      · rename_i hfirst
        exact List.not_mem_cons_of_ne_of_not_mem (Ne.symm hfirst) habove
  exact fun hmem => hfold parts [] List.not_mem_nil (List.mem_reverse.1 hmem)

/-! ## Reading a text back -/

theorem partsOf_cons_slash (s : Text) : partsOf ('/' :: s) = partsOf s := by
  simp [partsOf, Text.splitAtChar]

theorem partsOf_join {parts : List Text} (h : ∀ part ∈ parts, IsPart part) :
    partsOf (Text.join ['/'] parts) = parts := by
  cases parts with
  | nil => rfl
  | cons first parts =>
    rw [partsOf, Text.splitAtChar_join fun p hp => (h p hp).2.2]
    refine List.filter_eq_self.2 fun part hpart => ?_
    obtain ⟨hne, hdot, -⟩ := h part hpart
    simp [hne, hdot]

theorem head?_join {parts : List Text} (h : ∀ part ∈ parts, IsPart part) :
    (Text.join ['/'] parts).head? ≠ some '/' := by
  cases parts with
  | nil => simp [Text.join]
  | cons first parts =>
    obtain ⟨hne, -, hslash⟩ := h first List.mem_cons_self
    obtain ⟨c, s, rfl⟩ := List.exists_cons_of_ne_nil hne
    have hc : c ≠ '/' := fun hc => hslash (hc ▸ List.mem_cons_self)
    cases parts with
    | nil => simpa [Text.join] using hc
    | cons next parts => simpa [Text.join] using hc

theorem slashesOf_cons {s : Text} (h : s.head? ≠ some '/') : slashesOf ('/' :: s) = 1 := by
  cases s with
  | nil => rfl
  | cons c s =>
    have hc : c ≠ '/' := by simpa using h
    unfold slashesOf
    split <;> simp_all

/-- The text of an absolute path is read back as the path. -/
theorem ofText_toText {parts : List Text} (h : ∀ part ∈ parts, IsPart part) :
    ofText (toText ⟨1, parts⟩) = ⟨1, parts⟩ := by
  have htext : toText ⟨1, parts⟩ = '/' :: Text.join ['/'] parts := by simp [toText]
  rw [htext, ofText, slashesOf_cons (head?_join h), partsOf_cons_slash, partsOf_join h]

/-! ## Paths from the root on -/

/-- A path from the root on, all of whose parts say something. -/
def Rooted (path : Path) : Prop :=
  path.slashes = 1 ∧ path.Clean

theorem Rooted.eq {path : Path} (h : path.Rooted) : path = ⟨1, path.parts⟩ :=
  congrArg (Path.mk · path.parts) h.1

theorem Rooted.ofText_toText {path : Path} (h : path.Rooted) : ofText path.toText = path := by
  rw [h.eq]
  exact Path.ofText_toText h.2

theorem Rooted.toText_inj {path path' : Path} (h : path.Rooted) (h' : path'.Rooted)
    (htext : path.toText = path'.toText) : path = path' := by
  rw [← h.ofText_toText, htext, h'.ofText_toText]

/-- A path from the root on that nowhere goes up. -/
def Straight (path : Path) : Prop :=
  path.Rooted ∧ "..".toList ∉ path.parts

theorem Clean.parent {path : Path} (h : path.Clean) : path.parent.Clean :=
  fun part hpart => h part (List.dropLast_subset _ hpart)

theorem Clean.join {path next : Path} (h : path.Clean) (hnext : next.Clean) :
    (path.join next).Clean := by
  rw [Path.join]
  split
  · exact hnext
  · exact List.forall_mem_append.2 ⟨h, hnext⟩

theorem Clean.child {path : Path} (h : path.Clean) (s : Text) : (path.child s).Clean :=
  h.join (clean_ofText s)

end Path

namespace Disk

/-! ## Resolved paths -/

/-- The place that relative paths start from is made of names. -/
def HereClean (disk : Disk) : Prop :=
  ∀ part ∈ disk.here, Path.IsPart part

/-- What a disk resolves a path to is an absolute path of names. -/
theorem clean_resolve {disk : Disk} (hhere : disk.HereClean) {path : Path} (h : path.Clean) :
    (disk.resolve path).Clean := by
  intro part hpart
  have hmem := Path.mem_of_mem_simplify hpart
  split at hmem
  · exact h part hmem
  · rcases List.mem_append.1 hmem with hmem | hmem
    · exact hhere part hmem
    · exact h part hmem

theorem rooted_resolve {disk : Disk} (hhere : disk.HereClean) {path : Path} (h : path.Clean) :
    (disk.resolve path).Rooted :=
  ⟨rfl, clean_resolve hhere h⟩

theorem straight_resolve {disk : Disk} (hhere : disk.HereClean) {path : Path} (h : path.Clean) :
    (disk.resolve path).Straight :=
  ⟨rooted_resolve hhere h, Path.not_mem_simplify _⟩

/-- A path that is resolved already stays as it is. -/
theorem resolve_of_straight (disk : Disk) {path : Path} (h : path.Straight) :
    disk.resolve path = path := by
  obtain ⟨slashes, parts⟩ := path
  obtain ⟨⟨rfl, -⟩, hup⟩ := h
  exact congrArg (Path.mk 1) (Path.simplify_eq_self hup)

/-- Two resolved paths with one text are one path. -/
theorem resolve_eq_of_toText_eq {disk : Disk} (hhere : disk.HereClean) {path path' : Path}
    (h : path.Clean) (h' : path'.Clean)
    (htext : (disk.resolve path).toText = (disk.resolve path').toText) :
    disk.resolve path = disk.resolve path' :=
  (rooted_resolve hhere h).toText_inj (rooted_resolve hhere h') htext

end Disk

end TemplateAudit
