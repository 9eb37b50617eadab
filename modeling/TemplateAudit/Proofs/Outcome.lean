/-!
# Outcomes of steps that may fail

What comes of steps taken one after the other, each of which may fail: `bind_eq_ok` takes a computation
that went well apart into its steps.
-/

namespace TemplateAudit

namespace Outcome

variable {ε ε' α β : Type}

@[simp]
theorem pure_eq_ok (a : α) : (pure a : Except ε α) = .ok a := rfl

@[simp]
theorem ok_bind (a : α) (f : α → Except ε β) : Except.ok a >>= f = f a := rfl

@[simp]
theorem error_bind (e : ε) (f : α → Except ε β) : Except.error e >>= f = .error e := rfl

/-- Two steps go well when the first one does, and the second one with what the first one gave. -/
theorem bind_eq_ok {x : Except ε α} {f : α → Except ε β} {b : β} :
    x >>= f = .ok b ↔ ∃ a, x = .ok a ∧ f a = .ok b := by
  cases x with
  | error e => simp
  | ok a => simp

/-- Two steps fail when the first one does, or the second one with what the first one gave. -/
theorem bind_eq_error {x : Except ε α} {f : α → Except ε β} {e : ε} :
    x >>= f = .error e ↔ x = .error e ∨ ∃ a, x = .ok a ∧ f a = .error e := by
  cases x with
  | error e' => simp
  | ok a => simp

@[simp]
theorem mapError_ok (f : ε → ε') (a : α) : (Except.ok a).mapError f = .ok a := rfl

/-- A step whose outcome passes a test went well. -/
theorem exists_of_toOption_any {x : Except ε α} {p : α → Bool} (h : x.toOption.any p) :
    ∃ a, x = .ok a ∧ p a := by
  cases x with
  | error e => cases h
  | ok a => exact ⟨a, rfl, h⟩

/-- What a step gave is taken further. -/
theorem map_eq_ok {x : Except ε α} {f : α → β} {b : β} : x.map f = .ok b ↔ ∃ a, x = .ok a ∧ f a = b := by
  cases x with
  | error e => simp [Except.map]
  | ok a => simp [Except.map]

/-- Another name for the failure changes nothing about success. -/
theorem mapError_eq_ok {f : ε → ε'} {x : Except ε α} {a : α} :
    x.mapError f = .ok a ↔ x = .ok a := by
  cases x with
  | error e => exact ⟨fun h => (nomatch h), fun h => (nomatch h)⟩
  | ok b => rw [mapError_ok, Except.ok.injEq, Except.ok.injEq]

/-- Steps over a list that all go well give the list of what they give. -/
theorem mapM_eq_ok_map {f : α → Except ε β} {g : α → β} {as : List α}
    (h : ∀ a ∈ as, f a = .ok (g a)) : as.mapM f = .ok (as.map g) := by
  induction as with
  | nil => rfl
  | cons a as ih =>
    rw [List.mapM_cons, h a List.mem_cons_self, ih fun b hb => h b (List.mem_cons_of_mem _ hb)]
    rfl

/-- Steps over a list go well when each of them does. -/
theorem exists_mapM_eq_ok {f : α → Except ε β} {as : List α} (h : ∀ a ∈ as, ∃ b, f a = .ok b) :
    ∃ bs, as.mapM f = .ok bs := by
  induction as with
  | nil => exact ⟨[], rfl⟩
  | cons a as ih =>
    obtain ⟨⟨b, hb⟩, has⟩ := List.forall_mem_cons.1 h
    obtain ⟨bs, hbs⟩ := ih has
    exact ⟨b :: bs, by simp [hb, hbs]⟩

/-- Steps over a list that went well gave what each of them gives. -/
theorem mem_of_mapM_eq_ok {f : α → Except ε β} {as : List α} {bs : List β} (h : as.mapM f = .ok bs)
    (b : β) : b ∈ bs ↔ ∃ a ∈ as, f a = .ok b := by
  induction as generalizing bs with
  | nil =>
    obtain rfl := Except.ok.inj h
    simp
  | cons a as ih =>
    rw [List.mapM_cons] at h
    obtain ⟨first, hfirst, h⟩ := bind_eq_ok.1 h
    obtain ⟨rest, hrest, h⟩ := bind_eq_ok.1 h
    obtain rfl := Except.ok.inj h
    rw [List.mem_cons, ih hrest]
    simp [hfirst, eq_comm]

/-- Steps over a list that went well all went well. -/
theorem exists_of_mapM_eq_ok {f : α → Except ε β} {as : List α} {bs : List β}
    (h : as.mapM f = .ok bs) {a : α} (ha : a ∈ as) : ∃ b, f a = .ok b := by
  induction as generalizing bs with
  | nil => cases ha
  | cons first as ih =>
    rw [List.mapM_cons] at h
    obtain ⟨b, hfirst, h⟩ := bind_eq_ok.1 h
    obtain ⟨rest, hrest, -⟩ := bind_eq_ok.1 h
    rcases List.mem_cons.1 ha with rfl | ha
    · exact ⟨b, hfirst⟩
    · exact ih hrest ha

/-- What stays of a list are the items that pass a test. -/
theorem mem_of_filterM_eq_ok {f : α → Except ε Bool} {as bs : List α} (h : as.filterM f = .ok bs)
    (a : α) : a ∈ bs ↔ a ∈ as ∧ f a = .ok true := by
  have haux : ∀ (as acc : List α) {cs : List α}, as.filterAuxM f acc = .ok cs →
      (a ∈ cs ↔ (a ∈ as ∧ f a = .ok true) ∨ a ∈ acc) := by
    intro as
    induction as with
    | nil =>
      intro acc cs hcs
      obtain rfl := Except.ok.inj hcs
      simp
    | cons first as ih =>
      intro acc cs hcs
      obtain ⟨passes, hpasses, hrest⟩ := bind_eq_ok.1 hcs
      rw [ih _ hrest]
      cases passes <;> grind
  obtain ⟨cs, hcs, hbs⟩ := bind_eq_ok.1 h
  obtain rfl := Except.ok.inj hbs
  rw [List.mem_reverse, haux as [] hcs]
  simp

end Outcome

end TemplateAudit
