import TemplateAudit.Proofs.Disk.Directories

/-!
# Removing files

What is removed is gone, and what is left was there before (`at?_of_at?_remove`).  Where a file is removed
that a path does not lead to, the path leads to what it led to (`content?_remove_file`).
-/

namespace TemplateAudit

namespace Disk

variable {disk disk' : Disk} {place : Place}

/-- What is left when something is removed was there before. -/
theorem at?_of_at?_remove (h : disk.Proper) {p : Place} {entry : Entry}
    (hat : (disk.remove place).at? p = some entry) : disk.at? p = some entry := by
  by_cases hp : p = []
  · subst hp
    exact hat
  · rw [at?_of_ne_nil hp] at hat
    exact h.at?_of_mem (List.mem_of_mem_filter (Pairs.mem_of_get? hat))

theorem at?_remove_self (hne : place ≠ []) : (disk.remove place).at? place = none := by
  rw [at?_of_ne_nil hne]
  exact Pairs.get?_filter_eq_none (p := fun p => !place.isPrefixOf p)
    (by simp [List.isPrefixOf_iff_prefix]) disk.entries

/-- When what is new at a place is removed again, everything stands as before. -/
theorem at?_remove_new (h : disk.Proper) (hne : place ≠ []) (hfree : disk.at? place = none)
    (hother : ∀ p, place ≠ p → disk'.at? p = disk.at? p) (p : Place) : (disk'.remove place).at? p = disk.at? p := by
  by_cases hbelow : place.isPrefixOf p
  · have hprefix := List.isPrefixOf_iff_prefix.1 hbelow
    have hp : p ≠ [] := by
      rintro rfl
      exact hne (List.prefix_nil.1 hprefix)
    have hgone : (disk'.remove place).at? p = none := by
      by_contra hsome
      obtain ⟨entry, hentry, rfl⟩ := exists_mem_of_at? hp (Option.isSome_iff_ne_none.2 hsome)
      have hkeep := (List.mem_filter.1 hentry).2
      rw [hbelow] at hkeep
      cases hkeep
    have hnothing : disk.at? p = none := by
      by_contra hsome
      have habove := h.isSome_of_prefix hprefix (Option.isSome_iff_ne_none.2 hsome)
      rw [hfree] at habove
      cases habove
    rw [hgone, hnothing]
  · have hother' : place ≠ p := by
      rintro rfl
      exact hbelow (List.isPrefixOf_iff_prefix.2 (List.prefix_refl _))
    rw [at?_remove hbelow, hother p hother']

/-- What a path leads to is not there any more when it was removed. -/
theorem content?_remove_located (h : disk.Proper) {path : Path} (hne : place ≠ [])
    (hlocate : disk.locate? path = some place) : (disk.remove place).content? path = none := by
  have hkeeps : Keeps (disk.remove place) disk :=
    ⟨rfl, fun {p entry} hat => ⟨entry, at?_of_at?_remove h hat, rfl⟩⟩
  rw [content?, find?]
  cases hnow : (disk.remove place).locate? path with
  | none => rfl
  | some next =>
    obtain rfl := Option.some.inj (hlocate.symm.trans (hkeeps.locate? hnow))
    rw [Option.bind_some, at?_remove_self hne]
    rfl

/-- Nothing stands below a file. -/
theorem Proper.eq_of_file (h : disk.Proper) {content : ByteArray} {time : Time}
    (hfile : disk.at? place = some (.file content time)) {p : Place} (hbelow : place <+: p)
    (hat : (disk.at? p).isSome) : p = place := by
  obtain ⟨names, rfl⟩ := hbelow
  cases names with
  | nil => rw [List.append_nil]
  | cons name names =>
    have hprefix : place ++ [name] <+: place ++ name :: names := ⟨names, by simp⟩
    have habove := h.isSome_of_prefix hprefix hat
    have hdir := h.isDirectoryAt_dropLast habove
    rw [List.dropLast_concat, isDirectoryAt, hfile] at hdir
    cases hdir

/-- A file that is removed elsewhere than a path says changes nothing about what the path leads to. -/
theorem content?_remove_file (h : disk.Proper) {path : Path} (hclean : path.Clean)
    {content : ByteArray} {time : Time} (hfile : disk.at? place = some (.file content time))
    (hne : place ≠ (disk.resolve path).parts) :
    (disk.remove place).content? path = disk.content? path := by
  have hroot : place ≠ [] := by
    rintro rfl
    cases hfile
  have hnamed : Named place := h.named_of_at? (by rw [hfile]; rfl)
  have habove : ¬place.isPrefixOf place.dropLast := by
    intro hprefix
    have hlength := (List.isPrefixOf_iff_prefix.1 hprefix).length_le
    have hpos := List.length_pos_iff.2 hroot
    rw [List.length_dropLast] at hlength
    omega
  have hplace : (disk.remove place).TakesFile place := by
    refine ⟨hnamed, ?_, ?_⟩
    · rw [isDirectoryAt, at?_remove habove]
      exact h.isDirectoryAt_dropLast (by rw [hfile]; rfl)
    · rw [isDirectoryAt, at?_remove_self hroot]
      exact Bool.false_ne_true
  -- when the file is put back, everything stands as before
  have hat : ∀ p, ((disk.remove place).put place (.file content time)).at? p = disk.at? p := by
    intro p
    rw [at?_put hroot]
    by_cases hp : place = p
    · rw [if_pos hp, ← hp, hfile]
    · rw [if_neg hp]
      by_cases hbelow : place.isPrefixOf p
      · have hnone : disk.at? p = none := by
          by_contra hsome
          exact hp (h.eq_of_file hfile (List.isPrefixOf_iff_prefix.1 hbelow)
            (Option.isSome_iff_ne_none.2 hsome)).symm
        rw [hnone, Option.eq_none_iff_forall_ne_some]
        intro entry hentry
        rw [at?_of_at?_remove h hentry] at hnone
        cases hnone
      · exact at?_remove hbelow
  have hforth : Extends disk ((disk.remove place).put place (.file content time)) :=
    ⟨rfl, fun hentry => (hat _).trans hentry⟩
  have hback : Extends ((disk.remove place).put place (.file content time)) disk :=
    ⟨rfl, fun hentry => (hat _).symm.trans hentry⟩
  have hsame := content?_put (h.remove place) hclean hplace hne content time
  rw [← hsame]
  exact Option.ext fun bytes => ⟨hback.content?, hforth.content?⟩

/-- No name on a disk has the character `\0`, so no path with it leads anywhere. -/
theorem Proper.not_mem_of_walk? (h : disk.Proper) {parts : List Text} {start next : Place}
    (hwalk : disk.walk? start parts = some next) : ∀ part ∈ parts, '\x00' ∉ part := by
  induction parts generalizing start with
  | nil => exact fun part hpart => nomatch hpart
  | cons part parts ih =>
    rw [walk?] at hwalk
    cases hstep : disk.step? start part with
    | none =>
      rw [hstep] at hwalk
      cases hwalk
    | some first =>
      rw [hstep] at hwalk
      refine List.forall_mem_cons.2 ⟨fun hzero => ?_, ih hwalk⟩
      rw [step?] at hstep
      split at hstep
      · split at hstep
        · rename_i hstay
          rcases Bool.or_eq_true_iff.1 hstay with hempty | hdot
          · rw [List.isEmpty_iff.1 hempty] at hzero
            cases hzero
          · rw [beq_iff_eq.1 hdot] at hzero
            revert hzero
            decide
        · split at hstep
          · rename_i hup
            rw [beq_iff_eq.1 hup] at hzero
            revert hzero
            decide
          · obtain ⟨entry, hentry, -⟩ := Option.map_eq_some_iff.1 hstep
            have hnamed := h.named_of_at? (by rw [hentry]; rfl : (disk.at? (start ++ [part])).isSome)
            exact (named_concat.1 hnamed).2.2.2 hzero
      · cases hstep

theorem Proper.not_mem_of_findText? (h : disk.Proper) {s : Text} (hfind : (disk.findText? s).isSome) :
    '\x00' ∉ s := by
  rw [findText?] at hfind
  split at hfind
  · cases hfind
  · obtain ⟨entry, hentry⟩ := Option.isSome_iff_exists.1 hfind
    obtain ⟨place, hwalk, -⟩ := Option.bind_eq_some_iff.1 hentry
    intro hzero
    obtain ⟨piece, hpiece, hin⟩ := Text.exists_mem_splitAtChar (by decide : '\x00' ≠ '/') hzero
    exact h.not_mem_of_walk? hwalk piece hpiece hin

end Disk

end TemplateAudit
