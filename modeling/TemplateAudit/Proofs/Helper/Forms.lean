import TemplateAudit.Proofs.Helper.Literals

/-!
# Calls with and without parentheses

The arguments of a call stand in parentheses or behind a space, and a block may be opened behind either form.  The
two are read by different scanners: the one looks for the parenthesis that closes, the other takes all that is left
in front of the block.  They come to the same call (`read?_parens_eq_bare`) whenever the parentheses would close
behind the arguments and the bare call does not open a block already.
-/

namespace TemplateAudit

namespace Helper

open Text (dropWhile_append_of_stop)

variable {c : Char} {s t u word rest arguments suffix : Text}

/-! ## The start of a block -/

theorem isBlockHead_of_blank (hs : Text.saysNothing s = true) : isBlockHead s = true := by
  have hstart := Text.trimStart_append_of_blank hs []
  rw [List.append_nil] at hstart
  rw [isBlockHead, hstart]
  rfl

/-- A text that ends no list of block parameters: behind a bar in it stands more than white space. -/
def EndsNoParams (t : Text) : Prop :=
  ∀ cut ∈ Text.cutAtChar '|' t, Text.saysNothing cut.2 = false

instance (t : Text) : Decidable (EndsNoParams t) :=
  inferInstanceAs (Decidable (∀ _ ∈ Text.cutAtChar '|' t, _))

theorem EndsNoParams.cons (h : EndsNoParams t) (hc : c ≠ '|') : EndsNoParams (c :: t) := by
  intro cut hcut
  rw [Text.cutAtChar, if_neg hc] at hcut
  obtain ⟨cut', hcut', rfl⟩ := Option.map_eq_some_iff.1 hcut
  exact h cut' hcut'

section Append

variable (ht : Text.saysNothing t = false) (hparams : EndsNoParams t)
include ht hparams

theorem EndsNoParams.append (s : Text) : EndsNoParams (s ++ t) := by
  induction s with
  | nil => exact hparams
  | cons c s ih =>
    intro cut hcut
    rw [List.cons_append, Text.cutAtChar] at hcut
    split at hcut
    · cases hcut
      simpa [Text.saysNothing] using fun _ => ht
    · obtain ⟨cut', hcut', rfl⟩ := Option.map_eq_some_iff.1 hcut
      exact ih cut' hcut'

/-- Block parameters that begin in front of such a text do not end in it. -/
theorem isBlockHead_append (hs : Text.saysNothing s = false) : isBlockHead (s ++ t) = false := by
  obtain ⟨c, more, -, hstart⟩ := Text.exists_trimStart_append hs t
  rw [isBlockHead, hstart]
  by_cases hc : c = '|'
  · subst hc
    have hcut := hparams.append ht more
    cases h : Text.cutAtChar '|' (more ++ t) with
    | none => simp [h]
    | some cut => simpa [h] using hcut cut h
  · simp [hc]

/-- A block that is opened in front of such a text was opened without it, or only white space stands in front. -/
theorem opensBlockHere_append (ho : ∀ c ∈ t.head?, c ≠ 'o') (h : opensBlockHere (u ++ t) = true) :
    Text.saysNothing u = true ∨
      opensBlockHere u = true ∧ ∃ space, Text.saysNothing space = true ∧ isBlockHead (space ++ t) = true := by
  cases u with
  | nil => exact .inl rfl
  | cons c u =>
    rw [List.cons_append, opensBlockHere, Bool.and_eq_true] at h
    obtain ⟨hc, h⟩ := h
    by_cases hu : Text.saysNothing u = true
    · exact .inl (by simpa [Text.saysNothing, hc] using hu)
    · obtain ⟨d, more, hstart, hstart'⟩ := Text.exists_trimStart_append (Bool.eq_false_iff.2 hu) t
      rw [hstart'] at h
      split at h
      · rename_i rest heq
        obtain ⟨rfl, hmore⟩ := List.cons.inj heq
        cases more with
        | nil =>
          rw [List.nil_append] at hmore
          exact absurd rfl (ho 'o' (by rw [hmore]; rfl))
        | cons e more =>
          rw [List.cons_append] at hmore
          obtain ⟨rfl, rfl⟩ := List.cons.inj hmore
          have hblank : Text.saysNothing more = true := by
            by_contra hblank
            rw [isBlockHead_append ht hparams (Bool.eq_false_iff.2 hblank)] at h
            cases h
          refine .inr ⟨?_, more, hblank, h⟩
          rw [opensBlockHere, hstart, hc]
          exact isBlockHead_of_blank hblank
      · cases h

end Append

/-- Code opens a block where one of its ends does. -/
theorem opensBlock_iff : opensBlock s = true ↔ ∃ u, u <:+ s ∧ opensBlockHere u = true := by
  rw [opensBlock]
  induction s with
  | nil => simp [beforeBlock?, opensBlockHere]
  | cons c s ih =>
    rw [beforeBlock?]
    split
    · rename_i hhere
      exact iff_of_true rfl ⟨c :: s, List.suffix_refl _, hhere⟩
    · rename_i hhere
      rw [Option.isSome_map, ih]
      constructor
      · rintro ⟨u, hend, hu⟩
        exact ⟨u, hend.trans (List.suffix_cons c s), hu⟩
      · rintro ⟨u, hend, hu⟩
        rcases List.suffix_cons_iff.1 hend with rfl | hend
        · exact absurd hu hhere
        · exact ⟨u, hend, hu⟩

/-- Where no end of a text opens a block with what stands behind it, the block is opened there. -/
theorem beforeBlock?_append (h : ∀ u, u <:+ s → u ≠ [] → opensBlockHere (u ++ t) = false) :
    beforeBlock? (s ++ t) = (beforeBlock? t).map (s ++ ·) := by
  induction s with
  | nil =>
    rw [List.nil_append]
    cases beforeBlock? t <;> rfl
  | cons c s ih =>
    have hhere := h (c :: s) (List.suffix_refl _) (List.cons_ne_nil c s)
    rw [List.cons_append] at hhere
    rw [List.cons_append, beforeBlock?, if_neg (by simp [hhere]),
      ih fun u hend => h u (hend.trans (List.suffix_cons c s)), Option.map_map]
    rfl

theorem isBlockHead_append_blank (ht : Text.saysNothing t = true) (h : isBlockHead s = true) :
    isBlockHead (s ++ t) = true := by
  by_cases hs : Text.saysNothing s = true
  · refine isBlockHead_of_blank ?_
    rw [Text.saysNothing] at hs ht ⊢
    rw [List.all_append, hs, ht, Bool.and_true]
  · obtain ⟨c, more, hstart, hstart'⟩ := Text.exists_trimStart_append (Bool.eq_false_iff.2 hs) t
    rw [isBlockHead, hstart] at h
    rw [isBlockHead, hstart']
    by_cases hc : c = '|'
    · subst hc
      cases hcut : Text.cutAtChar '|' more with
      | none => simp [hcut] at h
      | some cut =>
        have hblank : Text.saysNothing cut.2 = true := by simpa [hcut] using h
        rw [Text.saysNothing] at hblank ht
        simp [Text.cutAtChar_append_right hcut, Text.saysNothing, List.all_append, hblank, ht]
    · simp [hc] at h

/-- White space behind a block that is opened changes nothing. -/
theorem opensBlockHere_append_blank (ht : Text.saysNothing t = true) (h : opensBlockHere s = true) :
    opensBlockHere (s ++ t) = true := by
  cases s with
  | nil => cases h
  | cons c s =>
    rw [opensBlockHere, Bool.and_eq_true] at h
    obtain ⟨hc, h⟩ := h
    rw [List.cons_append, opensBlockHere, hc, Bool.true_and]
    by_cases hs : Text.saysNothing s = true
    · have hstart := Text.trimStart_append_of_blank hs []
      rw [List.append_nil] at hstart
      rw [hstart] at h
      cases h
    · obtain ⟨d, more, hstart, hstart'⟩ := Text.exists_trimStart_append (Bool.eq_false_iff.2 hs) t
      rw [hstart] at h
      rw [hstart']
      split at h
      · rename_i heq
        cases heq
        exact isBlockHead_append_blank ht h
      · cases h

theorem opensBlock_append_blank (ht : ∀ c ∈ t, Text.isBlank c = true) (h : opensBlock s = true) :
    opensBlock (s ++ t) = true := by
  obtain ⟨u, ⟨more, rfl⟩, hhere⟩ := opensBlock_iff.1 h
  rw [List.append_assoc]
  exact opensBlock_iff.2 ⟨u ++ t, ⟨more, rfl⟩, opensBlockHere_append_blank (List.all_eq_true.2 ht) hhere⟩

/-- A text opens no block when it ends in a character that ends no opening of a block. -/
theorem opensBlock_concat (hblank : Text.isBlank c = false) (ho : c ≠ 'o') (hbar : c ≠ '|') (s : Text) :
    opensBlock (s ++ [c]) = false := by
  have hhead : ∀ space, Text.saysNothing space = true → Text.trimStart (space ++ [c]) = [c] :=
    fun space hspace => by
      rw [Text.trimStart_append_of_blank hspace, Text.trimStart, List.dropWhile_cons_of_neg (by simp [hblank])]
  have hsays : Text.saysNothing [c] = false := by simp [Text.saysNothing, hblank]
  have hparams : EndsNoParams [c] := EndsNoParams.cons (by decide) hbar
  rw [opensBlock, beforeBlock?_append fun u _ hu => Bool.eq_false_iff.2 fun hhere => ?_]
  · have hend : opensBlockHere [c] = false := by rw [opensBlockHere, hblank, Bool.false_and]
    rw [beforeBlock?, hend]
    rfl
  · rcases opensBlockHere_append hsays hparams (by rintro d ⟨⟩; exact ho) hhere with
      hends | ⟨-, space, hspace, hblock⟩
    · cases u with
      | nil => exact hu rfl
      | cons d u =>
        rw [List.cons_append, opensBlockHere, hhead u (Bool.and_eq_true_iff.1 hends).2] at hhere
        simp at hhere
    · rw [isBlockHead, hhead space hspace] at hblock
      split at hblock
      · rename_i heq
        cases heq
      · rename_i heq
        cases heq
        exact hbar rfl
      · cases hblock

/-! ## What opens a block behind a call -/

/-- Nothing, or what opens a block, with parameters between bars or without any. -/
def IsBlockSuffix (suffix : Text) : Prop :=
  suffix = [] ∨ suffix = " do".toList ∨ ∃ params, '|' ∉ params ∧ suffix = " do |".toList ++ (params ++ ['|'])

/-- What opens a block is a space, the word for it, and perhaps a list of parameters. -/
theorem IsBlockSuffix.cases (h : IsBlockSuffix suffix) :
    suffix = [] ∨ ∃ rest, suffix = ' ' :: 'd' :: 'o' :: rest ∧ isBlockHead rest = true ∧ EndsNoParams rest ∧
      ∀ c ∈ rest.getLast?, Text.isBlank c = false := by
  rcases h with rfl | rfl | ⟨params, hparams, rfl⟩
  · exact .inl rfl
  · exact .inr ⟨[], rfl, rfl, by decide, by decide⟩
  · have hcut := Text.cutAtChar_append hparams []
    refine .inr ⟨' ' :: '|' :: (params ++ ['|']), rfl, ?_, ?_, ?_⟩
    · have hstart : Text.trimStart (' ' :: '|' :: (params ++ ['|'])) = '|' :: (params ++ ['|']) := rfl
      rw [isBlockHead, hstart]
      simp only [hcut]
      rfl
    · -- the second bar stands behind the first
      have hafter : Text.cutAtChar '|' (' ' :: '|' :: (params ++ ['|'])) = some ([' '], params ++ ['|']) := rfl
      rw [EndsNoParams, hafter]
      rintro cut ⟨⟩
      simp [Text.saysNothing, Text.isBlank]
    · rw [← List.cons_append, ← List.cons_append, List.getLast?_concat]
      rintro c ⟨⟩
      decide

section Opened

variable {space : Text} (hspace : ∀ c ∈ space, Text.isBlank c = true)
include hspace

theorem opensBlockHere_of_isBlockHead (hhead : isBlockHead rest = true) :
    opensBlockHere (space ++ ' ' :: 'd' :: 'o' :: rest) = true := by
  have hstart : ∀ {more : Text}, (∀ c ∈ more, Text.isBlank c = true) →
      Text.trimStart (more ++ 'd' :: 'o' :: rest) = 'd' :: 'o' :: rest := fun hmore =>
    dropWhile_append_of_stop hmore (by rintro c ⟨⟩; decide)
  have hspaced : ∀ {more : Text}, (∀ c ∈ more, Text.isBlank c = true) →
      ∀ c ∈ more ++ [' '], Text.isBlank c = true := fun hmore =>
    List.forall_mem_append.2 ⟨hmore, by decide⟩
  cases space with
  | nil => exact hhead
  | cons c space =>
    obtain ⟨hc, hspace⟩ := List.forall_mem_cons.1 hspace
    rw [List.cons_append, opensBlockHere, hc, List.append_cons, hstart (hspaced hspace)]
    exact hhead

/-- Where a block is opened behind code that opens none, all that code stands in front of it. -/
theorem beforeBlock?_opener (hlast : ∀ c ∈ s.getLast?, Text.isBlank c = false) (hopens : opensBlock s = false)
    (hhead : isBlockHead rest = true) (hparams : EndsNoParams rest) :
    beforeBlock? (s ++ (space ++ ' ' :: 'd' :: 'o' :: rest)) = some s := by
  have hopener : Text.saysNothing (' ' :: 'd' :: 'o' :: rest) = false := by simp [Text.saysNothing, Text.isBlank]
  have hparams' : EndsNoParams (space ++ ' ' :: 'd' :: 'o' :: rest) :=
    EndsNoParams.append hopener (((hparams.cons (by decide)).cons (by decide)).cons (by decide)) space
  have hsays : Text.saysNothing (space ++ ' ' :: 'd' :: 'o' :: rest) = false := by
    rw [Text.saysNothing] at hopener ⊢
    rw [List.all_append, hopener, Bool.and_false]
  have hfirst : ∀ c ∈ (space ++ ' ' :: 'd' :: 'o' :: rest).head?, c ≠ 'o' := by
    cases space with
    | nil =>
      rintro c ⟨⟩
      decide
    | cons d space =>
      rintro c ⟨⟩ rfl
      exact absurd (hspace 'o' List.mem_cons_self) (by decide)
  have hnone : ∀ u, u <:+ s → u ≠ [] → opensBlockHere (u ++ (space ++ ' ' :: 'd' :: 'o' :: rest)) = false := by
    intro u hend hu
    refine Bool.eq_false_iff.2 fun hhere => ?_
    rcases opensBlockHere_append hsays hparams' hfirst hhere with hblank | ⟨hhere, -⟩
    · -- the last character of the code is no white space
      obtain ⟨more, rfl⟩ := hend
      have hu' := hlast (u.getLast hu) (by rw [List.getLast?_append, List.getLast?_eq_some_getLast hu]; rfl)
      rw [List.all_eq_true.1 hblank _ (List.getLast_mem hu)] at hu'
      cases hu'
    · rw [opensBlock_iff.2 ⟨u, hend, hhere⟩] at hopens
      cases hopens
  have hhere := opensBlockHere_of_isBlockHead hspace hhead
  have hblock : beforeBlock? (space ++ ' ' :: 'd' :: 'o' :: rest) = some [] := by
    cases space with
    | nil => exact if_pos hhere
    | cons c space => exact if_pos hhere
  rw [beforeBlock?_append hnone, hblock, Option.map_some, List.append_nil]

/-- A call is read from the code in front of its block. -/
theorem read?_before_suffix {receiver : Option Text} {name : Text} (htrimmed : Text.IsTrimmed s) (hs : s ≠ [])
    (hopens : opensBlock s = false) (hsuffix : IsBlockSuffix suffix)
    (hhead : head? s = some (receiver, name, rest)) (harguments : argumentText? rest = some arguments) :
    Call.read? (s ++ (space ++ suffix)) =
      let found := (pieces ',' arguments).foldl addArgument ([], [])
      some ⟨receiver, name, found.1, found.2, !suffix.isEmpty⟩ := by
  obtain rfl | ⟨rest, rfl, hblock, hparams, hlast⟩ := hsuffix.cases
  · have hbefore : beforeBlock? s = none := by
      rwa [opensBlock, Option.isSome_eq_false_iff, Option.isNone_iff_eq_none] at hopens
    rw [List.append_nil, Call.read?]
    simp only [Text.trim_append_right hspace, htrimmed.trim_eq, hbefore, Option.map_none, Option.getD_none, hhead,
      harguments]
    rfl
  · have hopener : Text.IsTrimmed ('d' :: 'o' :: rest) := by
      refine ⟨by rintro c ⟨⟩; decide, fun c hc => ?_⟩
      cases rest with
      | nil =>
        cases hc
        decide
      | cons d rest => exact hlast c hc
    have hcode := (htrimmed.around hopener hs (List.cons_ne_nil _ _) (space ++ [' '])).trim_eq
    rw [← List.append_cons] at hcode
    have hbefore := beforeBlock?_opener hspace htrimmed.2 hopens hblock hparams
    rw [Call.read?]
    simp only [hcode, hbefore, Option.map_some, Option.getD_some, Text.trimEnd_eq_self htrimmed.2, hhead, harguments]
    rfl

end Opened

/-! ## The head of a call -/

/-- The name of a helper, or such a name with a question or exclamation mark behind it. -/
def IsMarkedName (name : Text) : Prop :=
  IsHelperName name ∨ ∃ mark ∈ ['?', '!'], name.getLast? = some mark ∧ IsHelperName name.dropLast

instance (name : Text) : Decidable (IsMarkedName name) :=
  inferInstanceAs (Decidable (_ ∨ _))

/-- The head of a call: perhaps a receiver, and a name. -/
structure CallHead where
  receiver : Option Text
  name : Text

/-- The head of a call as it is written. -/
def CallHead.print (head : CallHead) : Text :=
  (head.receiver.map (· ++ ['.'])).getD [] ++ head.name

/-- The receiver is a name, and only the name of the helper may have a mark. -/
structure CallHead.IsWritable (head : CallHead) : Prop where
  receiver : ∀ receiver ∈ head.receiver, IsHelperName receiver
  name : IsMarkedName head.name

theorem IsMarkedName.cases {name : Text} (h : IsMarkedName name) :
    ∃ word, IsHelperName word ∧ (name = word ∨ name = word ++ ['?'] ∨ name = word ++ ['!']) := by
  rcases h with hword | ⟨mark, hmark, hlast, hword⟩
  · exact ⟨name, hword, .inl rfl⟩
  · obtain ⟨word, rfl⟩ := List.getLast?_eq_some_iff.1 hlast
    rw [List.dropLast_concat] at hword
    simp only [List.mem_cons, List.not_mem_nil, or_false] at hmark
    exact ⟨word, hword, .inr (hmark.imp (fun h => by rw [h]) fun h => by rw [h])⟩

/-- The arguments of a call begin with a parenthesis or white space. -/
def BeginsArguments (rest : Text) : Prop :=
  ∀ c ∈ rest.head?, c = '(' ∨ Text.isBlank c = true

theorem BeginsArguments.stops (h : BeginsArguments rest) :
    ∀ c ∈ rest.head?, Text.isWordChar c = false ∧ c ≠ '?' ∧ c ≠ '!' ∧ c ≠ '.' := by
  intro c hc
  rcases h c hc with rfl | hblank
  · decide
  · refine ⟨?_, ?_, ?_, ?_⟩
    · refine Bool.eq_false_iff.2 fun hword => ?_
      rw [Text.isBlank_of_isWordChar hword] at hblank
      cases hblank
    all_goals
      rintro rfl
      exact absurd hblank (by decide)

theorem markedName?_of_isMarkedName {name : Text} (hname : IsMarkedName name) (hrest : BeginsArguments rest) :
    markedName? (name ++ rest) = some (name, rest) := by
  have hstops := hrest.stops
  obtain ⟨word, hword, rfl | rfl | rfl⟩ := hname.cases
  · rw [markedName?, name?_append hword fun c hc => (hstops c hc).1]
    split
    · rename_i heq
      cases heq
      exact absurd rfl (hstops '?' rfl).2.1
    · rename_i heq
      cases heq
      exact absurd rfl (hstops '!' rfl).2.2.1
    · rfl
  · rw [markedName?, List.append_assoc, name?_append hword (by rintro c ⟨⟩; decide)]
    rfl
  · rw [markedName?, List.append_assoc, name?_append hword (by rintro c ⟨⟩; decide)]
    rfl

/-- Behind the word that a name begins with stands no point. -/
theorem exists_name? {name : Text} (hname : IsMarkedName name) (hrest : BeginsArguments rest) :
    ∃ word after, name? (name ++ rest) = some (word, after) ∧ ∀ c ∈ after.head?, c ≠ '.' := by
  have hmark : ∀ {mark : Char} {after : Text}, mark ≠ '.' → ∀ c ∈ (mark :: after).head?, c ≠ '.' := by
    rintro mark after hmark c ⟨⟩
    exact hmark
  obtain ⟨word, hword, rfl | rfl | rfl⟩ := hname.cases
  · exact ⟨_, rest, name?_append hword fun c hc => (hrest.stops c hc).1, fun c hc => (hrest.stops c hc).2.2.2⟩
  · rw [List.append_assoc]
    exact ⟨word, '?' :: rest, name?_append hword (by rintro c ⟨⟩; decide), hmark (by decide)⟩
  · rw [List.append_assoc]
    exact ⟨word, '!' :: rest, name?_append hword (by rintro c ⟨⟩; decide), hmark (by decide)⟩

/-- The head of a call is read back. -/
theorem CallHead.head?_print {head : CallHead} (h : head.IsWritable) (hrest : BeginsArguments rest) :
    head? (head.print ++ rest) = some (head.receiver, head.name, rest) := by
  have hmarked := markedName?_of_isMarkedName h.name hrest
  cases hreceiver : head.receiver with
  | none =>
    obtain ⟨word, after, hplain, hafter⟩ := exists_name? h.name hrest
    rw [CallHead.print, hreceiver, Option.map_none, Option.getD_none, List.nil_append, head?, hmarked, hplain]
    split
    · rename_i heq
      cases heq
      exact absurd rfl (hafter '.' rfl)
    · rfl
  | some receiver =>
    have hdot := @name?_append receiver ('.' :: (head.name ++ rest)) (h.receiver receiver hreceiver)
      (by rintro c ⟨⟩; decide)
    rw [CallHead.print, hreceiver, Option.map_some, Option.getD_some, List.append_assoc, List.append_assoc,
      List.singleton_append, head?, hdot]
    simp only [hmarked]

theorem IsHelperName.isBlank (h : IsHelperName word) : ∀ c ∈ word, Text.isBlank c = false := by
  obtain ⟨c, more, rfl, hc, hmore⟩ := h.exists_cons
  refine List.forall_mem_cons.2 ⟨Text.isBlank_of_isWordChar ?_, fun d hd => Text.isBlank_of_isWordChar (hmore d hd)⟩
  refine Text.isWordChar_of_beginsIdentifier ?_
  simp only [beginsName, Bool.or_eq_true] at hc
  rw [Text.beginsIdentifier, Bool.or_eq_true]
  exact hc.imp_left fun hlower => Bool.or_eq_true_iff.2 (.inr hlower)

theorem IsMarkedName.isBlank {name : Text} (h : IsMarkedName name) : ∀ c ∈ name, Text.isBlank c = false := by
  obtain ⟨word, hword, rfl | rfl | rfl⟩ := h.cases
  · exact hword.isBlank
  · exact List.forall_mem_append.2 ⟨hword.isBlank, by decide⟩
  · exact List.forall_mem_append.2 ⟨hword.isBlank, by decide⟩

theorem IsMarkedName.ne_nil {name : Text} (h : IsMarkedName name) : name ≠ [] := by
  obtain ⟨word, hword, hname⟩ := h.cases
  obtain ⟨c, more, rfl, -, -⟩ := hword.exists_cons
  rcases hname with rfl | rfl | rfl <;> exact List.cons_ne_nil _ _

theorem argumentText?_of_paren (s : Text) : argumentText? ('(' :: s) =
    match closingParen? ('(' :: s) with
    | some index => some (s.take (index - 1))
    | none => none := rfl

/-- Arguments behind white space are all that follows, without the white space around it. -/
theorem argumentText?_of_blank (hc : Text.isBlank c = true) (hs : Text.saysNothing (c :: s) = false) :
    argumentText? (c :: s) = some (Text.trim (c :: s)) := by
  unfold argumentText?
  split
  · rename_i heq
    cases heq
    exact absurd hc (by decide)
  · rename_i heq
    cases heq
    rw [if_neg (by simp [hs]), if_pos hc]
  · rename_i heq
    cases heq

/-- Arguments behind a space are read as what they are parted into. -/
theorem exists_argumentText?_trimEnd (arguments : Text) :
    ∃ found, argumentText? (Text.trimEnd (' ' :: arguments)) = some found ∧
      pieces ',' found = pieces ',' arguments := by
  have hcomma : Text.isBlank ',' = false := by decide
  obtain ⟨space, hspaced, hspace⟩ := Text.exists_behind_trimEnd (' ' :: arguments)
  have hlast : ∀ c ∈ (Text.trimEnd (' ' :: arguments)).getLast?, Text.isBlank c = false := fun c =>
    Text.isBlank_of_getLast?_trimEnd
  generalize Text.trimEnd (' ' :: arguments) = rest at hspaced hlast
  have hpieces : pieces ',' rest = pieces ',' arguments := by
    have hempty : ∀ c ∈ ([] : Text), Text.isBlank c = true := by simp
    have hgap : ∀ c ∈ [' '], Text.isBlank c = true := by decide
    have hbehind := pieces_around hcomma hempty hspace rest
    have hfront := pieces_around hcomma hgap hempty arguments
    rw [List.nil_append, ← hspaced] at hbehind
    rw [List.append_nil, List.singleton_append, hbehind] at hfront
    exact hfront
  cases rest with
  | nil => exact ⟨[], rfl, hpieces⟩
  | cons c rest =>
    have hc : Text.isBlank c = true := by
      rw [List.cons_append, List.cons.injEq] at hspaced
      exact hspaced.1 ▸ rfl
    have hsays : Text.saysNothing (c :: rest) = false := by
      have hne := List.cons_ne_nil c rest
      refine Bool.eq_false_iff.2 fun hsays => ?_
      have hblank := List.all_eq_true.1 hsays _ (List.getLast_mem hne)
      rw [hlast _ (List.getLast?_eq_some_getLast hne)] at hblank
      cases hblank
    exact ⟨_, argumentText?_of_blank hc hsays, (pieces_trim hcomma _).trans hpieces⟩

namespace CallHead

variable {head : CallHead} (h : head.IsWritable)
include h

theorem print_ne_nil : head.print ≠ [] :=
  List.append_ne_nil_of_right_ne_nil _ h.name.ne_nil

/-- No white space stands in the head of a call. -/
theorem isBlank_print : ∀ c ∈ head.print, Text.isBlank c = false := by
  rw [print]
  refine List.forall_mem_append.2 ⟨?_, h.name.isBlank⟩
  cases hreceiver : head.receiver with
  | none => simp
  | some receiver => exact List.forall_mem_append.2 ⟨(h.receiver receiver hreceiver).isBlank, by decide⟩

theorem isTrimmed_print : Text.IsTrimmed head.print :=
  Text.IsTrimmed.of_forall (isBlank_print h)

/-- Arguments in parentheses are what stands between them. -/
theorem read?_parens (hclosing : closingParen? ('(' :: (arguments ++ [')'])) = some (arguments.length + 1))
    (hsuffix : IsBlockSuffix suffix) :
    Call.read? (head.print ++ '(' :: (arguments ++ ')' :: suffix)) =
      let found := (pieces ',' arguments).foldl addArgument ([], [])
      some ⟨head.receiver, head.name, found.1, found.2, !suffix.isEmpty⟩ := by
  have hcode : head.print ++ '(' :: (arguments ++ ')' :: suffix) =
      head.print ++ '(' :: (arguments ++ [')']) ++ ([] ++ suffix) := by simp
  have htrimmed : Text.IsTrimmed (head.print ++ '(' :: (arguments ++ [')'])) :=
    (isTrimmed_print h).around (t := [')']) (by decide) (print_ne_nil h) (by decide) ('(' :: arguments)
  have hopens : opensBlock (head.print ++ '(' :: (arguments ++ [')'])) = false := by
    rw [← List.cons_append, ← List.append_assoc]
    exact opensBlock_concat (by decide) (by decide) (by decide) _
  have hbegins : BeginsArguments ('(' :: (arguments ++ [')'])) := by
    rintro c ⟨⟩
    exact .inl rfl
  have harguments : argumentText? ('(' :: (arguments ++ [')'])) = some arguments := by
    rw [argumentText?_of_paren, hclosing]
    simp
  rw [hcode]
  exact read?_before_suffix (by simp) htrimmed (List.append_ne_nil_of_left_ne_nil (print_ne_nil h) _) hopens hsuffix
    (head?_print h hbegins) harguments

/-- Without parentheses the arguments are all that is left in front of the block. -/
theorem read?_bare (hopens : opensBlock (head.print ++ ' ' :: arguments) = false) (hsuffix : IsBlockSuffix suffix) :
    Call.read? (head.print ++ ' ' :: (arguments ++ suffix)) =
      let found := (pieces ',' arguments).foldl addArgument ([], [])
      some ⟨head.receiver, head.name, found.1, found.2, !suffix.isEmpty⟩ := by
  obtain ⟨space, hspaced, hspace⟩ := Text.exists_behind_trimEnd (' ' :: arguments)
  have hend := (isTrimmed_print h).append_trimEnd (print_ne_nil h) (' ' :: arguments)
  obtain ⟨found, hfound, hpieces⟩ := exists_argumentText?_trimEnd arguments
  generalize Text.trimEnd (' ' :: arguments) = rest at hspaced hend hfound
  have hcode : head.print ++ ' ' :: (arguments ++ suffix) = head.print ++ rest ++ (space ++ suffix) := by
    rw [← List.cons_append, hspaced, List.append_assoc, List.append_assoc]
  have hopens' : opensBlock (head.print ++ rest) = false := by
    refine Bool.eq_false_iff.2 fun hopens' => ?_
    have hblank := opensBlock_append_blank hspace hopens'
    rw [List.append_assoc, ← hspaced, hopens] at hblank
    cases hblank
  have hbegins : BeginsArguments rest := by
    intro c hc
    cases rest with
    | nil => cases hc
    | cons d rest =>
      cases hc
      rw [List.cons_append, List.cons.injEq] at hspaced
      exact .inr (hspaced.1 ▸ rfl)
  rw [hcode, ← hpieces]
  exact read?_before_suffix hspace hend (List.append_ne_nil_of_left_ne_nil (print_ne_nil h) _) hopens' hsuffix
    (head?_print h hbegins) hfound

/-- Whether its arguments stand in parentheses or behind a space, a call is read as the same call: its receiver and
its name are those of the head, and it has a block just when one is opened behind it. -/
theorem read?_parens_eq_bare
    (hclosing : closingParen? ('(' :: (arguments ++ [')'])) = some (arguments.length + 1))
    (hopens : opensBlock (head.print ++ ' ' :: arguments) = false) (hsuffix : IsBlockSuffix suffix) :
    Call.read? (head.print ++ '(' :: (arguments ++ ')' :: suffix)) =
        Call.read? (head.print ++ ' ' :: (arguments ++ suffix)) ∧
      ∃ call, Call.read? (head.print ++ ' ' :: (arguments ++ suffix)) = some call ∧
        call.receiver = head.receiver ∧ call.name = head.name ∧ call.block = !suffix.isEmpty := by
  have hparens := read?_parens h hclosing hsuffix
  have hbare := read?_bare h hopens hsuffix
  exact ⟨hparens.trans hbare.symm, _, hbare, rfl, rfl, rfl⟩

omit h

/-- A head with a receiver and a mark. -/
def marked : CallHead where
  receiver := some "form"
  name := "field?"

/-- Arguments with parentheses, bars and the start of a block in strings, with a call, a list and a hash among them,
and with white space around them. -/
def mixed : Text :=
  "  \"a) do |x|\", 'it\\'s ('.b(c, [1]) do |d|, class: \"#\x7be\x7d\", data: \x7b on: 2 \x7d\t"

/-- They come to the same call in front of a block. -/
theorem read?_parens_eq_bare_mixed :
    Call.read? (marked.print ++ '(' :: (mixed ++ ')' :: " do |f, g|")) =
        Call.read? (marked.print ++ ' ' :: (mixed ++ " do |f, g|")) ∧
      ∃ call, Call.read? (marked.print ++ ' ' :: (mixed ++ " do |f, g|")) = some call ∧
        call.receiver = some "form".toList ∧ call.name = "field?".toList ∧ call.block = true :=
  have hhead : marked.IsWritable := ⟨by decide, by decide⟩
  read?_parens_eq_bare hhead (by decide +kernel) (by decide +kernel)
    (.inr (.inr ⟨"f, g", by decide, rfl⟩))

end CallHead

end Helper

end TemplateAudit
