import TemplateAudit.Text.Basic

/-!
# Pairs in order of first entry

A table whose order matters is a list of pairs.  A key keeps the place of its first entry, and a
later entry under the same key replaces the value only.
-/

namespace TemplateAudit

namespace Pairs

variable {κ α : Type} [DecidableEq κ]

/-- The value under a key. -/
def get? (key : κ) : List (κ × α) → Option α
  | [] => none
  | (k, a) :: pairs => if k = key then some a else get? key pairs

/-- The table with `a` under `key`. -/
def put (key : κ) (a : α) : List (κ × α) → List (κ × α)
  | [] => [(key, a)]
  | (k, b) :: pairs => if k = key then (k, a) :: pairs else (k, b) :: put key a pairs

/-- The table with every pair of `more` entered in order. -/
def putAll (more : List (κ × α)) (pairs : List (κ × α)) : List (κ × α) :=
  more.foldl (fun table pair => put pair.1 pair.2 table) pairs

/-- The table of pairs entered in the given order. -/
def ofEntries (entries : List (κ × α)) : List (κ × α) :=
  putAll entries []

/-- The table with the number under `key` raised by one; a missing number counts as zero. -/
def tally (key : κ) (counts : List (κ × Nat)) : List (κ × Nat) :=
  put key ((get? key counts).getD 0 + 1) counts

/-- How often each key occurs, in order of first occurrence. -/
def counts (keys : List κ) : List (κ × Nat) :=
  keys.foldl (fun table key => tally key table) []

/-- Each of some things with the number of things in front of it that have its key, where `seen` says
how many there were before all of them. -/
def numberedFrom (key : α → κ) (seen : List (κ × Nat)) : List α → List (α × Nat)
  | [] => []
  | a :: as =>
    (a, (get? (key a) seen).getD 0) :: numberedFrom key (tally (key a) seen) as

/-- Each of some things with the number of things in front of it that have its key. -/
def numbered (key : α → κ) (things : List α) : List (α × Nat) :=
  numberedFrom key [] things

/-! ## Looking a key up -/

@[simp]
theorem get?_nil (key : κ) : get? key ([] : List (κ × α)) = none := rfl

theorem get?_map {β : Type} (f : α → β) (key : κ) (pairs : List (κ × α)) :
    get? key (pairs.map fun pair => (pair.1, f pair.2)) = (get? key pairs).map f := by
  induction pairs with
  | nil => rfl
  | cons pair pairs ih =>
    rw [List.map_cons, get?, get?]
    split
    · rfl
    · exact ih

/-- A table that gives some keys their values gives others none. -/
theorem get?_filterMap (f : κ → Option α) (key : κ) (keys : List κ) :
    get? key (keys.filterMap fun k => (f k).map (k, ·)) = if key ∈ keys then f key else none := by
  induction keys with
  | nil => rfl
  | cons k keys ih =>
    rw [List.filterMap_cons]
    by_cases hsame : k = key
    · subst hsame
      cases hf : f k <;> simp [get?, ih, hf]
    · cases f k <;> simp [get?, ih, hsame, Ne.symm hsame]

/-- What is found under a key is in the table. -/
theorem mem_of_get? {key : κ} {a : α} {pairs : List (κ × α)} (h : get? key pairs = some a) :
    (key, a) ∈ pairs := by
  induction pairs with
  | nil => cases h
  | cons pair pairs ih =>
    rw [get?] at h
    split at h
    · rename_i hkey
      obtain rfl := Option.some.inj h
      exact hkey ▸ List.mem_cons_self
    · exact List.mem_cons_of_mem _ (ih h)

/-- Where no key has two entries, each entry is found. -/
theorem get?_of_mem {key : κ} {a : α} {pairs : List (κ × α)} (hkeys : (pairs.map Prod.fst).Nodup)
    (h : (key, a) ∈ pairs) : get? key pairs = some a := by
  induction pairs with
  | nil => cases h
  | cons pair pairs ih =>
    obtain ⟨hnew, hkeys⟩ := List.nodup_cons.1 hkeys
    rcases List.mem_cons.1 h with rfl | h
    · exact if_pos rfl
    · have hne : pair.1 ≠ key := fun hkey => hnew (hkey ▸ List.mem_map_of_mem h)
      rw [get?, if_neg hne]
      exact ih hkeys h

/-- Nothing is found under a key without an entry. -/
theorem get?_eq_none {key : κ} {pairs : List (κ × α)} (h : key ∉ pairs.map Prod.fst) :
    get? key pairs = none := by
  rw [Option.eq_none_iff_forall_ne_some]
  exact fun a ha => h (List.mem_map_of_mem (mem_of_get? ha))

/-- Where no key has two entries, values can be made anew, and those of which nothing is made left out. -/
theorem get?_filterMap_value {β : Type} (f : α → Option β) (key : κ) {pairs : List (κ × α)}
    (hkeys : (pairs.map Prod.fst).Nodup) :
    get? key (pairs.filterMap fun pair => (f pair.2).map (pair.1, ·)) = (get? key pairs).bind f := by
  induction pairs with
  | nil => rfl
  | cons pair pairs ih =>
    obtain ⟨hnew, hkeys⟩ := List.nodup_cons.1 hkeys
    rw [List.filterMap_cons, get?]
    by_cases hkey : pair.1 = key
    · have hrest : (get? key pairs).bind f = none := by
        rw [get?_eq_none fun hmem => hnew (hkey ▸ hmem), Option.bind_none]
      cases hf : f pair.2 <;> simp [get?, hkey, hf, ih hkeys, hrest]
    · cases f pair.2 <;> simp [get?, hkey, ih hkeys]

/-- What was entered last under a key is found there, and nothing else is disturbed. -/
theorem get?_put (key k : κ) (a : α) (pairs : List (κ × α)) :
    get? k (put key a pairs) = if key = k then some a else get? k pairs := by
  induction pairs with
  | nil => simp [put, get?]
  | cons pair pairs ih =>
    obtain ⟨k', b⟩ := pair
    by_cases h : k' = key
    · subst h
      by_cases hk : k' = k <;> simp [put, get?, hk]
    · by_cases hk : k' = k
      · subst hk
        simp [put, get?, h, Ne.symm h]
      · simp [put, get?, h, hk, ih]

/-- A new key goes to the end, and a known key keeps its place. -/
theorem keys_put (key : κ) (a : α) (pairs : List (κ × α)) :
    (put key a pairs).map Prod.fst =
      if key ∈ pairs.map Prod.fst then pairs.map Prod.fst else pairs.map Prod.fst ++ [key] := by
  induction pairs with
  | nil => simp [put]
  | cons pair pairs ih =>
    obtain ⟨k, b⟩ := pair
    by_cases h : k = key
    · simp [put, h]
    · have h' : ¬key = k := fun e => h e.symm
      by_cases hm : key ∈ pairs.map Prod.fst
      · simp only [put, h, if_false, List.map_cons, ih, hm, if_true, List.mem_cons, or_true]
      · simp [put, h, h', ih, hm]

theorem nodup_keys_put {key : κ} {a : α} {pairs : List (κ × α)} (h : (pairs.map Prod.fst).Nodup) :
    ((put key a pairs).map Prod.fst).Nodup := by
  rw [keys_put]
  split
  · exact h
  · rename_i hnew
    refine List.nodup_append.2 ⟨h, List.pairwise_singleton _ key, ?_⟩
    rintro k hk _ hkey rfl
    exact hnew (List.mem_singleton.1 hkey ▸ hk)

/-- After an entry everything is old or the new pair. -/
theorem mem_of_mem_put {key : κ} {a : α} {pair : κ × α} {pairs : List (κ × α)}
    (h : pair ∈ put key a pairs) : pair ∈ pairs ∨ pair = (key, a) := by
  induction pairs with
  | nil => exact .inr (List.mem_singleton.1 h)
  | cons first pairs ih =>
    rw [put] at h
    split at h
    · rename_i hkey
      rcases List.mem_cons.1 h with rfl | h
      · exact .inr (hkey ▸ rfl)
      · exact .inl (List.mem_cons_of_mem _ h)
    · rcases List.mem_cons.1 h with rfl | h
      · exact .inl List.mem_cons_self
      · exact (ih h).imp_left (List.mem_cons_of_mem _)

theorem mem_of_mem_putAll {more pairs : List (κ × α)} {pair : κ × α} (h : pair ∈ putAll more pairs) :
    pair ∈ more ∨ pair ∈ pairs := by
  induction more generalizing pairs with
  | nil => exact .inr h
  | cons first more ih =>
    rcases ih h with h | h
    · exact .inl (List.mem_cons_of_mem _ h)
    · rcases mem_of_mem_put h with h | rfl
      · exact .inr h
      · exact .inl List.mem_cons_self

/-- A new key is entered at the end. -/
theorem put_of_not_mem {key : κ} {a : α} {pairs : List (κ × α)} (h : key ∉ pairs.map Prod.fst) :
    put key a pairs = pairs ++ [(key, a)] := by
  induction pairs with
  | nil => rfl
  | cons pair pairs ih =>
    obtain ⟨hne, hrest⟩ := List.ne_and_not_mem_of_not_mem_cons h
    rw [put, if_neg (Ne.symm hne), ih hrest, List.cons_append]

/-! ## Tables of entries -/

theorem nodup_keys_ofEntries (entries : List (κ × α)) :
    ((ofEntries entries).map Prod.fst).Nodup := by
  have hputAll : ∀ (entries pairs : List (κ × α)), (pairs.map Prod.fst).Nodup →
      ((putAll entries pairs).map Prod.fst).Nodup := by
    intro entries
    induction entries with
    | nil => exact fun pairs h => h
    | cons entry entries ih => exact fun pairs h => ih _ (nodup_keys_put h)
  exact hputAll entries [] List.nodup_nil

/-- Every pair of a table is an entry. -/
theorem mem_of_mem_ofEntries {entries : List (κ × α)} {pair : κ × α} (h : pair ∈ ofEntries entries) :
    pair ∈ entries :=
  (mem_of_mem_putAll h).elim id fun hnil => nomatch hnil

/-- The keys of a table are those of its entries. -/
theorem mem_keys_ofEntries {key : κ} {entries : List (κ × α)} :
    key ∈ (ofEntries entries).map Prod.fst ↔ key ∈ entries.map Prod.fst := by
  have hputAll : ∀ (entries pairs : List (κ × α)), key ∈ (putAll entries pairs).map Prod.fst ↔
      key ∈ entries.map Prod.fst ∨ key ∈ pairs.map Prod.fst := by
    intro entries
    induction entries with
    | nil => simp [putAll]
    | cons entry entries ih =>
      intro pairs
      rw [putAll, List.foldl_cons, ← putAll, ih, keys_put, List.map_cons, List.mem_cons]
      split
      · rename_i hold
        grind
      · rw [List.mem_append, List.mem_singleton]
        grind
  rw [ofEntries, hputAll, List.map_nil, or_iff_left List.not_mem_nil]

theorem get?_append (key : κ) (pairs pairs' : List (κ × α)) :
    get? key (pairs ++ pairs') = (get? key pairs).or (get? key pairs') := by
  induction pairs with
  | nil => rfl
  | cons pair pairs ih =>
    rw [List.cons_append, get?, get?, ih]
    split <;> rfl

/-- What is found in a table of entries is the last of them under the key. -/
theorem get?_ofEntries (key : κ) (entries : List (κ × α)) :
    get? key (ofEntries entries) = get? key entries.reverse := by
  have hputAll : ∀ (entries pairs : List (κ × α)),
      get? key (putAll entries pairs) = (get? key entries.reverse).or (get? key pairs) := by
    intro entries
    induction entries with
    | nil => exact fun pairs => rfl
    | cons entry entries ih =>
      intro pairs
      rw [putAll, List.foldl_cons, ← putAll, ih, get?_put, List.reverse_cons, get?_append]
      cases get? key entries.reverse <;> simp only [get?, Option.or] <;> split <;> rfl
  rw [ofEntries, hputAll, get?_nil, Option.or_none]

/-- Entries under different keys are a table as they stand. -/
theorem ofEntries_eq_self {entries : List (κ × α)} (h : (entries.map Prod.fst).Nodup) :
    ofEntries entries = entries := by
  have hputAll : ∀ (entries pairs : List (κ × α)), ((pairs ++ entries).map Prod.fst).Nodup →
      putAll entries pairs = pairs ++ entries := by
    intro entries
    induction entries with
    | nil => exact fun pairs _ => (List.append_nil pairs).symm
    | cons entry entries ih =>
      intro pairs h
      have hnew : entry.1 ∉ pairs.map Prod.fst := by
        rw [List.map_append, List.map_cons] at h
        exact fun hmem => (List.nodup_append.1 h).2.2 _ hmem _ List.mem_cons_self rfl
      rw [List.append_cons] at h
      rw [putAll, List.foldl_cons, put_of_not_mem hnew, ← putAll, ih _ h, ← List.append_cons]
  exact hputAll entries [] h

/-- In which order a table stands does not matter for looking a key up. -/
theorem get?_eq_of_perm {pairs pairs' : List (κ × α)} (hkeys : (pairs.map Prod.fst).Nodup)
    (h : pairs.Perm pairs') (key : κ) : get? key pairs' = get? key pairs := by
  have hkeys' : (pairs'.map Prod.fst).Nodup := (h.map Prod.fst).nodup_iff.1 hkeys
  cases hfound : get? key pairs with
  | some a => exact get?_of_mem hkeys' (h.mem_iff.1 (mem_of_get? hfound))
  | none =>
    cases hfound' : get? key pairs' with
    | none => rfl
    | some a =>
      rw [get?_of_mem hkeys (h.mem_iff.2 (mem_of_get? hfound'))] at hfound
      cases hfound

/-- What passes a test on its key is still found. -/
theorem get?_filter {p : κ → Bool} {key : κ} (hkey : p key = true) (pairs : List (κ × α)) :
    get? key (pairs.filter fun pair => p pair.1) = get? key pairs := by
  induction pairs with
  | nil => rfl
  | cons pair pairs ih =>
    rw [List.filter_cons]
    split
    · rw [get?, get?, ih]
    · rename_i hfails
      have hne : pair.1 ≠ key := fun heq => hfails (heq ▸ hkey)
      rw [get?, if_neg hne, ih]

/-- What fails a test on its key is not found. -/
theorem get?_filter_eq_none {p : κ → Bool} {key : κ} (hkey : p key = false) (pairs : List (κ × α)) :
    get? key (pairs.filter fun pair => p pair.1) = none := by
  rw [Option.eq_none_iff_forall_ne_some]
  intro a ha
  have hpasses := (List.mem_filter.1 (mem_of_get? ha)).2
  rw [hkey] at hpasses
  cases hpasses

end Pairs

end TemplateAudit
