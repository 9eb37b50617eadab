import TemplateAudit.Disk.Change
import TemplateAudit.Proofs.Disk.Proper

/-!
# What changes leave alone

Entering one thing on a disk leaves everything else where it is (`at?_put`), and a path that led
somewhere still leads there as long as nothing is removed and no file takes the place of a directory
(`Keeps.walk?`).  A path that leads somewhere leads to the place it names (`parts_resolve`), so a file
that is written elsewhere does not change what the path leads to (`content?_put`).
-/

namespace TemplateAudit

namespace Disk

variable {disk disk' : Disk} {place : Place}

/-! ## Single entries -/

theorem at?_put (hne : place ≠ []) (p : Place) (entry : Entry) :
    (disk.put place entry).at? p = if place = p then some entry else disk.at? p := by
  cases p with
  | nil => exact (if_neg hne).symm
  | cons name names => exact Pairs.get?_put place (name :: names) entry disk.entries

/-- What does not stand below a removed place stays. -/
theorem at?_remove {p : Place} (h : ¬place.isPrefixOf p) : (disk.remove place).at? p = disk.at? p := by
  cases p with
  | nil => rfl
  | cons name names =>
    have hkeep : (!place.isPrefixOf (name :: names)) = true := by
      rw [Bool.not_eq_true', Bool.eq_false_iff]
      exact h
    exact Pairs.get?_filter (p := fun p => !place.isPrefixOf p) hkeep disk.entries

/-- A file can be written at a place in a directory where no directory stands. -/
structure TakesFile (disk : Disk) (place : Place) : Prop where
  named : Named place
  inDirectory : disk.isDirectoryAt place.dropLast
  free : ¬disk.isDirectoryAt place

theorem TakesFile.ne_nil (h : disk.TakesFile place) : place ≠ [] :=
  fun hnil => h.free (hnil ▸ isDirectoryAt_nil)

theorem mem_places_put {entry : Entry} {p : Place} :
    p ∈ (disk.put place entry).entries.map Prod.fst ↔ p = place ∨ p ∈ disk.entries.map Prod.fst := by
  rw [put, Pairs.keys_put]
  split
  · exact ⟨.inr, fun h => h.elim (fun heq => heq ▸ ‹_›) id⟩
  · rw [List.mem_append, List.mem_singleton, or_comm]

/-- Where something is entered in a directory, and a directory is replaced by no file, the disk stays
proper. -/
theorem Proper.put (h : disk.Proper) {entry : Entry} (hne : place ≠ []) (hnamed : Named place)
    (hdir : disk.isDirectoryAt place.dropLast)
    (hkind : disk.isDirectoryAt place → entry.isDirectory) : (disk.put place entry).Proper := by
  have hplaces : ∀ p ∈ (disk.put place entry).entries.map Prod.fst,
      p ≠ [] ∧ Named p ∧ disk.isDirectoryAt p.dropLast := by
    intro p hp
    rcases mem_places_put.1 hp with rfl | hold
    · exact ⟨hne, hnamed, hdir⟩
    · obtain ⟨old, hmem, rfl⟩ := List.mem_map.1 hold
      exact ⟨(h.named old hmem).1, (h.named old hmem).2, h.inDirectory old hmem⟩
  refine ⟨h.here, fun e he => ?_, fun e he => ?_, Pairs.nodup_keys_put h.distinct⟩
  · obtain ⟨hne', hnamed', -⟩ := hplaces e.1 (List.mem_map_of_mem he)
    exact ⟨hne', hnamed'⟩
  · obtain ⟨-, -, hdir'⟩ := hplaces e.1 (List.mem_map_of_mem he)
    rw [isDirectoryAt, at?_put hne]
    split
    · rename_i hsame
      exact hkind (hsame ▸ hdir')
    · exact hdir'

theorem Proper.put_file (h : disk.Proper) (hplace : disk.TakesFile place) (content : ByteArray)
    (time : Time) : (disk.put place (.file content time)).Proper :=
  h.put hplace.ne_nil hplace.named hplace.inDirectory fun hdir => absurd hdir hplace.free

theorem Proper.remove (h : disk.Proper) (place : Place) : (disk.remove place).Proper := by
  have hsub : (disk.remove place).entries.Sublist disk.entries := List.filter_sublist
  refine ⟨h.here, fun e he => h.named e (hsub.subset he), fun e he => ?_,
    (hsub.map Prod.fst).nodup h.distinct⟩
  obtain ⟨hmem, hkeep⟩ := List.mem_filter.1 he
  have hnot : ¬place.isPrefixOf e.1.dropLast := by
    intro hbelow
    have hprefix := (List.isPrefixOf_iff_prefix.1 hbelow).trans (List.dropLast_prefix e.1)
    rw [List.isPrefixOf_iff_prefix.2 hprefix] at hkeep
    cases hkeep
  rw [isDirectoryAt, at?_remove hnot]
  exact h.inDirectory e hmem

/-- Whatever stands above something that is there is there. -/
theorem Proper.isSome_of_prefix (h : disk.Proper) {above : Place} (habove : above <+: place)
    (hat : (disk.at? place).isSome) : (disk.at? above).isSome := by
  obtain ⟨names, rfl⟩ := habove
  induction names using List.reverseRecOn with
  | nil => rwa [List.append_nil] at hat
  | append_singleton names name ih =>
    refine ih (isSome_at?_of_isDirectoryAt ?_)
    have hdir := h.isDirectoryAt_dropLast hat
    rwa [← List.append_assoc, List.dropLast_concat] at hdir

/-! ## What stays -/

/-- One part of a path leads on as before where the directory and what it leads to are there. -/
theorem step?_of_step? {part : Text} {next : Place}
    (hdir : disk.isDirectoryAt place → disk'.isDirectoryAt place)
    (hat : (disk.at? next).isSome → (disk'.at? next).isSome)
    (h : disk.step? place part = some next) : disk'.step? place part = some next := by
  rw [step?] at h ⊢
  by_cases hold : disk.isDirectoryAt place
  · rw [if_pos hold] at h
    rw [if_pos (hdir hold)]
    by_cases hstay : part.isEmpty || part == ['.']
    · rwa [if_pos hstay] at h ⊢
    · rw [if_neg hstay] at h ⊢
      by_cases hup : part == ['.', '.']
      · rwa [if_pos hup] at h ⊢
      · rw [if_neg hup] at h ⊢
        obtain ⟨entry, hentry, rfl⟩ := Option.map_eq_some_iff.1 h
        obtain ⟨entry', hentry'⟩ := Option.isSome_iff_exists.1 (hat (by rw [hentry]; rfl))
        rw [hentry']
        rfl
  · rw [if_neg hold] at h
    cases h

/-- What stands on the first disk stands on the second one, directories as directories and files as
files. -/
structure Keeps (disk disk' : Disk) : Prop where
  here : disk'.here = disk.here
  kinds : ∀ {place entry}, disk.at? place = some entry →
    ∃ entry', disk'.at? place = some entry' ∧ entry'.isDirectory = entry.isDirectory

namespace Keeps

theorem isDirectoryAt (h : Keeps disk disk') (hdir : disk.isDirectoryAt place) :
    disk'.isDirectoryAt place := by
  obtain ⟨entry, hentry, hkind⟩ := (Option.any_eq_true _ _).1 hdir
  obtain ⟨entry', hentry', hsame⟩ := h.kinds hentry
  rw [Disk.isDirectoryAt, hentry', Option.any_some, hsame, hkind]

theorem step? (h : Keeps disk disk') {part : Text} {next : Place}
    (hstep : disk.step? place part = some next) : disk'.step? place part = some next := by
  refine step?_of_step? (fun hdir => h.isDirectoryAt hdir) (fun hat => ?_) hstep
  obtain ⟨entry, hentry⟩ := Option.isSome_iff_exists.1 hat
  obtain ⟨entry', hentry', -⟩ := h.kinds hentry
  rw [hentry']
  rfl

/-- A path that led somewhere leads there. -/
theorem walk? (h : Keeps disk disk') {parts : List Text} {next : Place}
    (hwalk : disk.walk? place parts = some next) : disk'.walk? place parts = some next := by
  induction parts generalizing place with
  | nil => exact hwalk
  | cons part parts ih =>
    rw [Disk.walk?] at hwalk ⊢
    cases hstep : disk.step? place part with
    | none =>
      rw [hstep] at hwalk
      cases hwalk
    | some first =>
      rw [hstep] at hwalk
      rw [h.step? hstep]
      exact ih hwalk

theorem locate? (h : Keeps disk disk') {path : Path} (hlocate : disk.locate? path = some place) :
    disk'.locate? path = some place := by
  rw [Disk.locate?, startOf] at hlocate ⊢
  rw [h.here]
  exact h.walk? hlocate

end Keeps

/-- A file in a directory, written where no directory stands, leaves everything else in place. -/
theorem keeps_put_file (hplace : disk.TakesFile place) (content : ByteArray) (time : Time) :
    Keeps disk (disk.put place (.file content time)) where
  here := rfl
  kinds := fun {p entry} hentry => by
    rw [at?_put hplace.ne_nil]
    by_cases hsame : place = p
    · subst hsame
      refine ⟨_, if_pos rfl, ?_⟩
      cases entry with
      | file _ _ => rfl
      | directory _ => exact absurd (by rw [isDirectoryAt, hentry]; rfl) hplace.free
    · exact ⟨entry, by rw [if_neg hsame, hentry], rfl⟩

/-! ## Where paths lead -/

/-- What a path that something can stand at has between its slashes. -/
theorem isName_or_up {path : Path} (hclean : path.Clean) (hpossible : path.isPossible) :
    ∀ part ∈ path.parts, IsName part ∨ part = "..".toList := by
  intro part hpart
  by_cases hup : part = "..".toList
  · exact .inr hup
  · refine .inl ⟨hclean part hpart, hup, fun hzero => ?_⟩
    rw [Path.isPossible, Bool.not_eq_true', List.any_eq_false] at hpossible
    exact hpossible part hpart (List.contains_iff_mem.2 hzero)

theorem step?_up (hdir : disk.isDirectoryAt place) :
    disk.step? place "..".toList = some place.dropLast := by
  rw [step?, if_pos hdir]
  rfl

/-- One part of a path leads up or to what has its name. -/
theorem step?_eq_some {part : Text} {next : Place} (hpart : Path.IsPart part)
    (h : disk.step? place part = some next) :
    disk.isDirectoryAt place ∧
      next = (if part = "..".toList then place.dropLast else place ++ [part]) := by
  obtain ⟨hne, hdot, -⟩ := hpart
  rw [step?] at h
  split at h
  · rename_i hdir
    refine ⟨hdir, ?_⟩
    rw [if_neg (by simp [hne, hdot])] at h
    by_cases hup : part = "..".toList
    · rw [if_pos hup]
      rw [if_pos (by rw [hup]; rfl)] at h
      exact (Option.some.inj h).symm
    · have hup' : ¬(part == ['.', '.']) = true := fun heq => hup (beq_iff_eq.1 heq)
      rw [if_neg hup]
      rw [if_neg hup'] at h
      obtain ⟨entry, -, rfl⟩ := Option.map_eq_some_iff.1 h
      rfl
  · cases h

/-- A path that leads somewhere leads to the place it names. -/
theorem reverse_eq_of_walk? {parts : List Text} (hparts : ∀ part ∈ parts, Path.IsPart part)
    {next : Place} (h : disk.walk? place parts = some next) :
    parts.foldl (fun above part => if part = "..".toList then above.tail else part :: above)
      place.reverse = next.reverse := by
  induction parts generalizing place with
  | nil =>
    obtain rfl := Option.some.inj h
    rfl
  | cons part parts ih =>
    obtain ⟨hpart, hparts⟩ := List.forall_mem_cons.1 hparts
    rw [walk?] at h
    cases hstep : disk.step? place part with
    | none =>
      rw [hstep] at h
      cases h
    | some first =>
      rw [hstep] at h
      have hfirst : first.reverse =
          if part = "..".toList then place.reverse.tail else part :: place.reverse := by
        rw [(step?_eq_some hpart hstep).2]
        split
        · exact (List.tail_reverse ..).symm
        · exact List.reverse_concat ..
      rw [List.foldl_cons, ← hfirst]
      exact ih hparts h

theorem parts_resolve (hproper : disk.Proper) {path : Path} (hclean : path.Clean)
    (h : disk.locate? path = some place) : (disk.resolve path).parts = place := by
  have hwalk := reverse_eq_of_walk? hclean h
  have hup : "..".toList ∉ disk.here := fun hmem => (hproper.here _ hmem).2.1 rfl
  have hhere := congrArg List.reverse (Path.simplify_eq_self hup)
  rw [Path.simplify, List.reverse_reverse] at hhere
  rw [startOf] at hwalk
  rw [resolve, Path.simplify]
  split
  · rename_i habsolute
    rw [if_pos habsolute] at hwalk
    exact (congrArg List.reverse hwalk).trans (List.reverse_reverse place)
  · rename_i hrelative
    rw [if_neg hrelative, ← hhere] at hwalk
    rw [List.foldl_append, hwalk, List.reverse_reverse]

/-! ## Files written elsewhere -/

/-- No path leads on through a file. -/
theorem eq_of_walk?_file {parts : List Text} {next : Place} (hfile : ¬disk.isDirectoryAt place)
    (h : disk.walk? place parts = some next) : next = place := by
  cases parts with
  | nil => exact (Option.some.inj h).symm
  | cons part parts =>
    rw [walk?, step?_of_not_isDirectoryAt part hfile] at h
    cases h

/-- Where a file is written, no path but that of the file leads anywhere new. -/
theorem walk?_put_file {start : Place} {parts : List Text} {next : Place}
    (hplace : disk.TakesFile place) {content : ByteArray} {time : Time}
    (h : (disk.put place (.file content time)).walk? start parts = some next) :
    next = place ∨ disk.walk? start parts = some next := by
  have hne := hplace.ne_nil
  have hfile : ¬(disk.put place (.file content time)).isDirectoryAt place := by
    rw [isDirectoryAt, at?_put hne, if_pos rfl]
    exact Bool.false_ne_true
  induction parts generalizing start with
  | nil => exact .inr h
  | cons part parts ih =>
    rw [walk?] at h
    cases hstep : (disk.put place (.file content time)).step? start part with
    | none =>
      rw [hstep] at h
      cases h
    | some first =>
      rw [hstep] at h
      by_cases hfirst : first = place
      · subst hfirst
        exact .inl (eq_of_walk?_file hfile h)
      · have hstep' : disk.step? start part = some first := by
          refine step?_of_step? (fun hdir => ?_) (fun hat => ?_) hstep
          · have hstart : place ≠ start := fun heq => hfile (heq ▸ hdir)
            rwa [isDirectoryAt, at?_put hne, if_neg hstart] at hdir
          · rwa [at?_put hne, if_neg (Ne.symm hfirst)] at hat
        rw [walk?, hstep']
        exact ih h

/-- A file that is written elsewhere than a path says changes nothing about what the path leads to. -/
theorem content?_put (hproper : disk.Proper) {path : Path} (hclean : path.Clean)
    (hplace : disk.TakesFile place) (hne : place ≠ (disk.resolve path).parts) (content : ByteArray)
    (time : Time) : (disk.put place (.file content time)).content? path = disk.content? path := by
  have hlocate : (disk.put place (.file content time)).locate? path = disk.locate? path := by
    cases hold : disk.locate? path with
    | some next => exact (keeps_put_file hplace content time).locate? hold
    | none =>
      by_contra hsome
      obtain ⟨next, hnext⟩ := Option.ne_none_iff_exists'.1 hsome
      have hsame : (disk.resolve path).parts = next :=
        parts_resolve (hproper.put_file hplace content time) hclean hnext
      rcases walk?_put_file hplace hnext with heq | hwalk
      · exact hne (heq ▸ hsame.symm)
      · exact absurd (hold.symm.trans hwalk) (by simp)
  rw [content?, content?, find?, find?, hlocate]
  cases hold : disk.locate? path with
  | none => rfl
  | some next =>
    have hnext : place ≠ next := parts_resolve hproper hclean hold ▸ hne
    rw [Option.bind_some, Option.bind_some, at?_put hplace.ne_nil, if_neg hnext]

end Disk

end TemplateAudit
