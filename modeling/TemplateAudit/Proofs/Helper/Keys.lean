import Mathlib.Data.List.TakeWhile
import TemplateAudit.Helper.Catalogue
import TemplateAudit.Proofs.Helper.Calls
import TemplateAudit.Proofs.Markup.Context

/-!
# The names of written attributes

The key of an option is a word, with hyphens where it stands in quotes, and so is every key in a hash,
however deep it lies (`keyed_of_read?`).  So no option has a name that could end the tag it is written in
or begin a value there (`allKeyNamed_optionAttributes`).
-/

namespace TemplateAudit

namespace Helper

variable {s key value text piece code : Text} {entries options : List (Text × Value)}
  {attrs : List (Text × Text)} {call : Call}

/-! ## Keys of entries -/

theorem isKeyChar_of_isWordChar {c : Char} (h : Text.isWordChar c = true) : isKeyChar c = true := by
  rw [isKeyChar, h, Bool.true_or]

theorem isKeyChar_of_identifier? {rest : Text} (h : Text.identifier? s = some (key, rest)) :
    ∀ c ∈ key, isKeyChar c = true := by
  unfold Text.identifier? at h
  split at h
  · cases h
  · split at h
    · rename_i hc
      obtain ⟨rfl, -⟩ := Prod.mk.inj (Option.some.inj h)
      refine List.forall_mem_cons.2 ⟨?_, fun d hd => ?_⟩
      · exact isKeyChar_of_isWordChar (Text.isWordChar_of_beginsIdentifier hc)
      · exact isKeyChar_of_isWordChar (List.mem_takeWhile_imp hd)
    · cases h

/-- The key of an entry is made of letters, numerals, underscores and hyphens. -/
theorem isKeyChar_of_keyed? (h : keyed? piece = some (key, value)) : ∀ c ∈ key, isKeyChar c = true := by
  rcases Option.or_eq_some_iff.1 h with h | ⟨-, h⟩
  · unfold keyedByLabel? at h
    split at h
    · cases h
    · rename_i hkey
      cases h
      exact isKeyChar_of_identifier? hkey
    · cases h
  · rcases Option.or_eq_some_iff.1 h with h | ⟨-, h⟩
    · unfold keyedBySymbol? at h
      split at h
      · split at h
        · rename_i hkey
          obtain ⟨_, -, hpair⟩ := Option.map_eq_some_iff.1 h
          cases hpair
          exact isKeyChar_of_identifier? hkey
        · cases h
      · cases h
    · unfold keyedByString? at h
      split at h
      · dsimp only at h
        split at h
        · split at h
          · split at h
            · cases h
              exact fun c hc => List.mem_takeWhile_imp hc
            · obtain ⟨_, -, hpair⟩ := Option.map_eq_some_iff.1 h
              cases hpair
              exact fun c hc => List.mem_takeWhile_imp hc
          · cases h
        · cases h
      · cases h

/-! ## Entries that were read -/

/-- The keys are made of letters, numerals, underscores and hyphens, and the values were read. -/
def Keyed (entries : List (Text × Value)) : Prop :=
  ∀ entry ∈ entries, (∀ c ∈ entry.1, isKeyChar c = true) ∧ ∃ text, entry.2 = Value.read text

theorem keyed_readEntries (body : Text) : Keyed (readEntries body) := by
  intro entry hentry
  obtain ⟨piece, -, hpiece⟩ := List.mem_filterMap.1 (Pairs.mem_of_mem_ofEntries hentry)
  obtain ⟨⟨key, value⟩, hkeyed, rfl⟩ := Option.map_eq_some_iff.1 hpiece
  exact ⟨isKeyChar_of_keyed? hkeyed, value, rfl⟩

/-- A hash that was read has such entries, and so has every hash in it. -/
theorem keyed_of_read (h : Value.read text = .hash entries) : Keyed entries := by
  rw [read_eq] at h
  split at h
  · cases h
  · split at h
    · cases h
    · split at h
      · cases h
      · split at h
        · obtain rfl := Value.hash.inj h
          exact keyed_readEntries _
        · exfalso
          split_ifs at h

theorem keyed_nil : Keyed [] :=
  List.forall_mem_nil _

theorem Keyed.putAll {more : List (Text × Value)} (hmore : Keyed more) (h : Keyed options) :
    Keyed (Pairs.putAll more options) :=
  fun entry hentry => (Pairs.mem_of_mem_putAll hentry).elim (hmore entry) (h entry)

theorem keyed_addArgument {found : List Value × List (Text × Value)} (h : Keyed found.2) (piece : Text) :
    Keyed (addArgument found piece).2 := by
  rw [addArgument]
  split
  · rename_i entry hentry
    intro option hoption
    rcases Pairs.mem_of_mem_put hoption with hold | rfl
    · exact h option hold
    · exact ⟨isKeyChar_of_keyed? hentry, entry.2, rfl⟩
  · split
    · rename_i entries hentries
      exact (keyed_of_read hentries).putAll h
    · exact h

/-- The options of a call that was read. -/
theorem keyed_of_read? (h : Call.read? code = some call) : Keyed call.options := by
  simp only [Call.read?] at h
  split at h
  · cases h
  · split at h
    · cases h
    · rename_i arguments _
      obtain rfl := Option.some.inj h
      exact List.foldlRecOn (motive := fun found => Keyed found.2) (b := ([], [])) (pieces ',' arguments)
        addArgument keyed_nil fun found hfound piece _ => keyed_addArgument hfound piece

/-! ## Names of attributes -/

/-- A name of letters, numerals, underscores and hyphens, and at least one of them. -/
def IsKeyName (name : Text) : Prop :=
  name ≠ [] ∧ ∀ c ∈ name, isKeyChar c = true

/-- Every option that is written as an attribute of its own has such a name. -/
theorem isKeyName_of_mem_writtenOptions {name : Text} (h : name ∈ writtenOptions) : IsKeyName name := by
  have hall : ∀ name ∈ writtenOptions, name ≠ [] ∧ name.all Char.isAlphanum = true := by decide
  obtain ⟨hne, halphanum⟩ := hall name h
  refine ⟨hne, fun c hc => isKeyChar_of_isWordChar (Text.isWordChar_of_isAlphanum ?_)⟩
  exact List.all_eq_true.1 halphanum c hc

/-- All attributes have such names. -/
def AllKeyNamed (attrs : List (Text × Text)) : Prop :=
  ∀ attr ∈ attrs, IsKeyName attr.1

theorem allKeyNamed_nil : AllKeyNamed [] :=
  List.forall_mem_nil _

/-- An attribute that a helper writes by itself has the name of an option. -/
theorem AllKeyNamed.cons (h : AllKeyNamed attrs) {name : Text} (hname : name ∈ writtenOptions) (value : Text) :
    AllKeyNamed ((name, value) :: attrs) :=
  List.forall_mem_cons.2 ⟨isKeyName_of_mem_writtenOptions hname, h⟩

/-- Such a name ends no tag and begins no value. -/
theorem AllKeyNamed.allNamed (h : AllKeyNamed attrs) : Markup.AllNamed attrs := by
  intro attr hattr c hc
  have hkey := (h attr hattr).2 c hc
  constructor <;> rintro rfl <;> revert hkey <;> decide

/-- The name of an attribute for an entry of a hash. -/
theorem isKeyName_nestedName {entry : Text} (hkey : ∀ c ∈ key, isKeyChar c = true)
    (hentry : ∀ c ∈ entry, isKeyChar c = true) : IsKeyName (nestedName key entry) := by
  refine ⟨by simp [nestedName], fun c hc => ?_⟩
  simp only [nestedName, Text.replaceChar, List.mem_append, List.mem_map] at hc
  rcases hc with (hc | hc) | ⟨d, hd, rfl⟩
  · exact hkey c hc
  · obtain rfl := List.mem_singleton.1 hc
    decide
  · split
    · decide
    · exact hentry d hd

theorem allKeyNamed_putValue (hkey : IsKeyName key) (h : AllKeyNamed attrs) (value : Value) :
    AllKeyNamed (putValue key value attrs) := by
  rw [putValue]
  split
  · intro attr hattr
    rcases Pairs.mem_of_mem_put hattr with hold | rfl
    · exact h attr hold
    · exact hkey
  · exact h

theorem allKeyNamed_putOption {option : Text × Value} (hkey : ∀ c ∈ option.1, isKeyChar c = true)
    (hvalue : ∃ text, option.2 = Value.read text) (h : AllKeyNamed attrs) :
    AllKeyNamed (putOption attrs option) := by
  obtain ⟨key, value⟩ := option
  obtain ⟨text, htext⟩ := hvalue
  simp only [putOption]
  split
  · rename_i entries
    have hentries : Keyed entries := keyed_of_read htext.symm
    split
    · exact List.foldlRecOn (motive := AllKeyNamed) entries _ h fun attrs hattrs entry hentry =>
        allKeyNamed_putValue (isKeyName_nestedName hkey (hentries entry hentry).1) hattrs entry.2
    · exact h
  · split
    · rename_i hwritten
      have hne : key ≠ [] := by
        rintro rfl
        exact absurd hwritten (by decide)
      exact allKeyNamed_putValue ⟨hne, hkey⟩ h _
    · exact h

theorem allKeyNamed_optionAttributes (h : Keyed options) : AllKeyNamed (optionAttributes options) :=
  List.foldlRecOn (motive := AllKeyNamed) options putOption allKeyNamed_nil
    fun _ hattrs option hoption =>
      allKeyNamed_putOption (h option hoption).1 (h option hoption).2 hattrs

/-- The attributes of a call that was read have such names. -/
theorem allKeyNamed_attributesOver (h : Keyed call.options) (hattrs : AllKeyNamed attrs) :
    AllKeyNamed (call.attributesOver attrs) :=
  fun attr hattr => (Pairs.mem_of_mem_putAll hattr).elim (allKeyNamed_optionAttributes h attr) (hattrs attr)

end Helper

end TemplateAudit
