import Mathlib.Data.List.Nodup
import Mathlib.Data.List.Perm.Subperm
import TemplateAudit.Proofs.Decimal.Digits
import TemplateAudit.Proofs.Disk.Change

/-!
# Making directories and temporary names

Making the directories of a path removes nothing, and afterwards the path leads to what was found or
made (`makeDirectories_spec`).  A temporary name is free, since there are more of them than there are
entries on the disk (`at?_freshName`).
-/

namespace TemplateAudit

namespace Disk

variable {disk disk' disk'' : Disk} {place : Place}

/-! ## Directories -/

/-- Whatever stands on the first disk stands unchanged on the second one. -/
structure Extends (disk disk' : Disk) : Prop where
  here : disk'.here = disk.here
  kept : ∀ {place entry}, disk.at? place = some entry → disk'.at? place = some entry

namespace Extends

theorem refl (disk : Disk) : Extends disk disk :=
  ⟨rfl, id⟩

theorem trans (h : Extends disk disk') (h' : Extends disk' disk'') : Extends disk disk'' :=
  ⟨h'.here.trans h.here, fun hentry => h'.kept (h.kept hentry)⟩

theorem keeps (h : Extends disk disk') : Keeps disk disk' :=
  ⟨h.here, fun hentry => ⟨_, h.kept hentry, rfl⟩⟩

/-- What a path led to is still there. -/
theorem find? (h : Extends disk disk') {path : Path} {entry : Entry}
    (hfind : disk.find? path = some entry) : disk'.find? path = some entry := by
  obtain ⟨place, hlocate, hentry⟩ := Option.bind_eq_some_iff.1 hfind
  rw [Disk.find?, h.keeps.locate? hlocate]
  exact h.kept hentry

theorem content? (h : Extends disk disk') {path : Path} {bytes : ByteArray}
    (hcontent : disk.content? path = some bytes) : disk'.content? path = some bytes := by
  obtain ⟨entry, hfind, hbytes⟩ := Option.bind_eq_some_iff.1 hcontent
  rw [Disk.content?, h.find? hfind]
  exact hbytes

end Extends

/-- Something new in a free place. -/
theorem extends_put (hne : place ≠ []) (hfree : disk.at? place = none) (entry : Entry) :
    Extends disk (disk.put place entry) where
  here := rfl
  kept := fun {p old} hold => by
    have hother : place ≠ p := by
      rintro rfl
      rw [hfree] at hold
      cases hold
    rw [at?_put hne, if_neg hother, hold]

/-- One part of a path, after a directory was made for it where nothing stood. -/
theorem makeStep_spec (h : disk.Proper) (place : Place) {part : Text}
    (hpart : IsName part ∨ part = "..".toList) :
    (makeStep (disk, some place) part).1.Proper ∧
      Extends disk (makeStep (disk, some place) part).1 ∧
      (makeStep (disk, some place) part).1.step? place part = (makeStep (disk, some place) part).2 := by
  rw [makeStep]
  cases hstep : disk.step? place part with
  | some next => exact ⟨h, .refl disk, hstep⟩
  | none =>
    simp only
    split
    · rename_i hdir
      have hname : IsName part := by
        rcases hpart with hname | rfl
        · exact hname
        · rw [step?_up hdir] at hstep
          cases hstep
      have hne : place ++ [part] ≠ [] := List.append_ne_nil_of_right_ne_nil _ (List.cons_ne_nil _ _)
      have hnamed := named_concat.2 ⟨h.named_of_at? (isSome_at?_of_isDirectoryAt hdir), hname⟩
      have hfree : disk.at? (place ++ [part]) = none := by
        rw [step?_name hdir hname] at hstep
        exact Option.map_eq_none_iff.1 hstep
      have hextends := extends_put hne hfree (.directory noTime)
      refine ⟨h.put hne hnamed (by rwa [List.dropLast_concat]) fun _ => rfl, hextends, ?_⟩
      rw [step?_name (hextends.keeps.isDirectoryAt hdir) hname, at?_put hne, if_pos rfl]
      rfl
    · exact ⟨h, .refl disk, hstep⟩

theorem foldl_makeStep_none (disk : Disk) (parts : List Text) :
    parts.foldl makeStep (disk, none) = (disk, none) := by
  induction parts with
  | nil => rfl
  | cons part parts ih => exact ih

/-- Several parts of a path: the steps go where the path leads in the end. -/
theorem foldl_makeStep (h : disk.Proper) (place : Place) {parts : List Text}
    (hparts : ∀ part ∈ parts, IsName part ∨ part = "..".toList) :
    (parts.foldl makeStep (disk, some place)).1.Proper ∧
      Extends disk (parts.foldl makeStep (disk, some place)).1 ∧
      (parts.foldl makeStep (disk, some place)).1.walk? place parts =
        (parts.foldl makeStep (disk, some place)).2 := by
  induction parts generalizing disk place with
  | nil => exact ⟨h, .refl disk, rfl⟩
  | cons part parts ih =>
    obtain ⟨hpart, hparts⟩ := List.forall_mem_cons.1 hparts
    obtain ⟨hproper, hextends, hstep⟩ := makeStep_spec h place hpart
    rw [List.foldl_cons]
    generalize makeStep (disk, some place) part = made at *
    obtain ⟨made, next⟩ := made
    simp only at hproper hextends hstep
    cases next with
    | none =>
      rw [foldl_makeStep_none]
      refine ⟨hproper, hextends, ?_⟩
      rw [walk?, hstep]
    | some next =>
      obtain ⟨hproper', hextends', hwalk⟩ := ih hproper next hparts
      refine ⟨hproper', hextends.trans hextends', ?_⟩
      rw [walk?, hextends'.keeps.step? hstep]
      exact hwalk

/-- **Making directories.**  Nothing is lost, and the path leads to the directory that is found. -/
theorem makeDirectories_spec (h : disk.Proper) {path : Path} (hclean : path.Clean)
    (hpossible : path.isPossible) :
    (disk.makeDirectories path).1.Proper ∧ Extends disk (disk.makeDirectories path).1 ∧
      (disk.makeDirectories path).2 = ((disk.makeDirectories path).1.locate? path).filter
        (disk.makeDirectories path).1.isDirectoryAt := by
  obtain ⟨hproper, hextends, hwalk⟩ :=
    foldl_makeStep h (disk.startOf path) (isName_or_up hclean hpossible)
  refine ⟨hproper, hextends, ?_⟩
  have hhere : (disk.makeDirectories path).1.here = disk.here := hextends.here
  have hstart : (disk.makeDirectories path).1.startOf path = disk.startOf path := by
    rw [startOf, startOf, hhere]
  rw [locate?, hstart]
  exact congrArg (Option.filter (disk.makeDirectories path).1.isDirectoryAt) hwalk.symm

/-! ## Temporary names -/

theorem temporaryName_inj {name : Text} {m n : Nat} (h : temporaryName name m = temporaryName name n) :
    m = n := by
  have htext : ∀ k, temporaryName name k =
      ('.' :: name ++ ['.']) ++ Text.ofNat k ++ ".tmp".toList := by
    intro k
    simp [temporaryName]
  rw [htext, htext] at h
  have hdigits := List.append_cancel_left (List.append_cancel_right h)
  rw [← Decimal.natOfDigits_ofNat m, hdigits, Decimal.natOfDigits_ofNat]

/-- Where the first name that is not taken is taken after all, all of them are. -/
theorem isSome_of_freshNameFrom {name : Text} {fuel number : Nat}
    (h : (disk.at? (place ++ [disk.freshNameFrom place name fuel number])).isSome) :
    ∀ k, number ≤ k → k ≤ number + fuel →
      (disk.at? (place ++ [temporaryName name k])).isSome := by
  induction fuel generalizing number with
  | zero =>
    intro k hlow hhigh
    obtain rfl : k = number := Nat.le_antisymm hhigh hlow
    exact h
  | succ fuel ih =>
    intro k hlow hhigh
    rw [freshNameFrom] at h
    split at h
    · rename_i htaken
      rcases Nat.eq_or_lt_of_le hlow with rfl | hlt
      · exact htaken
      · exact ih h k hlt (by omega)
    · rename_i hfree
      exact absurd h hfree

/-- A temporary name is not taken. -/
theorem at?_freshName (disk : Disk) (place : Place) (name : Text) :
    disk.at? (place ++ [disk.freshName place name]) = none := by
  by_contra hsome
  have htaken := isSome_of_freshNameFrom (Option.isSome_iff_ne_none.2 hsome)
  -- there would be more taken places than entries
  have hplaces : (List.range (disk.entries.length + 1)).map (fun k => place ++ [temporaryName name k]) ⊆
      disk.entries.map Prod.fst := by
    intro p hp
    obtain ⟨k, hk, rfl⟩ := List.mem_map.1 hp
    have hne : place ++ [temporaryName name k] ≠ [] :=
      List.append_ne_nil_of_right_ne_nil _ (List.cons_ne_nil _ _)
    obtain ⟨entry, hentry, hplace⟩ := exists_mem_of_at? hne
      (htaken k (Nat.zero_le k) (by have := List.mem_range.1 hk; omega))
    exact hplace ▸ List.mem_map_of_mem hentry
  have hnodup : ((List.range (disk.entries.length + 1)).map
      fun k => place ++ [temporaryName name k]).Nodup := by
    refine List.nodup_range.map fun m n hsame => ?_
    exact temporaryName_inj (List.cons.inj (List.append_cancel_left hsame)).1
  have hlength := (List.subperm_of_subset hnodup hplaces).length_le
  rw [List.length_map, List.length_map, List.length_range] at hlength
  omega

theorem freshNameFrom_eq (disk : Disk) (place : Place) (name : Text) (fuel number : Nat) :
    ∃ k, disk.freshNameFrom place name fuel number = temporaryName name k := by
  induction fuel generalizing number with
  | zero => exact ⟨number, rfl⟩
  | succ fuel ih =>
    rw [freshNameFrom]
    split
    · exact ih (number + 1)
    · exact ⟨number, rfl⟩

/-- A temporary name can be given to a file. -/
theorem isName_freshName (disk : Disk) (place : Place) {name : Text} (hslash : '/' ∉ name)
    (hzero : '\x00' ∉ name) : IsName (disk.freshName place name) := by
  obtain ⟨k, hk⟩ := disk.freshNameFrom_eq place name disk.entries.length 0
  have hmem : ∀ c : Char, c.isDigit = false → c ∉ name → c ∉ ".tmp".toList →
      c ∉ temporaryName name k := by
    intro c hdigit hname hending hc
    have hdot : c ≠ '.' := fun heq => hending (heq ▸ by decide)
    rcases List.mem_append.1 hc with hc | hc
    · rcases List.mem_append.1 hc with hc | hc
      · exact (List.mem_cons.1 hc).elim hdot hname
      · rcases List.mem_cons.1 hc with hc | hc
        · exact hdot hc
        · rw [Decimal.allDigits_ofNat k c hc] at hdigit
          cases hdigit
    · exact hending hc
  have hlength : 4 < (temporaryName name k).length := by
    have hending : ".tmp".toList.length = 4 := rfl
    rw [temporaryName, List.length_append, List.length_append, List.length_cons, List.length_cons,
      hending]
    omega
  rw [freshName, hk]
  refine ⟨⟨List.cons_ne_nil _ _, fun hsame => ?_, hmem '/' rfl hslash (by decide)⟩,
    fun hsame => ?_, hmem '\x00' rfl hzero (by decide)⟩
  · rw [hsame] at hlength
    exact absurd hlength (by decide)
  · rw [hsame] at hlength
    exact absurd hlength (by decide)

end Disk

end TemplateAudit
