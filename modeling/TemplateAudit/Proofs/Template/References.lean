import TemplateAudit.Proofs.Template.Render
import TemplateAudit.Proofs.Text.Search

/-!
# The order of references

A template refers to a partial wherever a call in its running code names one.  It is said here where these
calls are (`Inclusion.In`), with the token and the place in it, in terms of what stands in the source.  The
references of a template are what its inclusions name, each once, in the order in which the inclusions are
looked for: token after token, in a token form after form, and for a form from left to right
(`references_ordered`).  That is the order of the source as long as no call of a later form stands in front of
one of an earlier form in a token.
-/

namespace TemplateAudit

namespace Template

open Text (Reading)

variable {code source : Text} {form : Form}

/-! ## Inclusions -/

/-- The reference that a call makes. -/
def Form.reference : Form → Text → Reference
  | .name, called => [called]
  | .key, called => [called]
  | .model, called => modelReference called

/-- The forms in the order in which they are looked for. -/
def Form.all : List Form :=
  [.name, .key, .model]

/-- The position of a form in this order. -/
def Form.rank : Form → Nat
  | .name => 0
  | .key => 1
  | .model => 2

/-- A call of the form stands in code, at the place of the reading. -/
def Form.StandsIn (form : Form) (code : Text) (call : Reading Text) : Prop :=
  form.Shows (code.take call.place).getLast? call.value call.rest (code.drop call.place)

/-- The calls of a form in code: what is found from the left and without overlap.  Anything may stand between
`render` and the key, so that the call is the last `render` from which the key is reached. -/
def Form.Calls (form : Form) (code : Text) (call : Reading Text) : Prop :=
  ∃ found, Reading.Found (form.StandsIn code) code.length 0 found ∧
    Reading.IsLastOf (form.StandsIn code) found call

/-- A call in a token of a template, the tokens counted from nought. -/
structure Inclusion where
  token : Nat
  form : Form
  call : Reading Text
  deriving DecidableEq, Repr

namespace Inclusion

/-- The reference that an inclusion makes. -/
def reference (i : Inclusion) : Reference :=
  i.form.reference i.call.value

/-- The inclusion is one of the template: its token holds running code, and its call stands in it. -/
def In (source : Text) (i : Inclusion) : Prop :=
  ∃ token, (tokenize source)[i.token]? = some token ∧ token.isCode = true ∧ i.form.Calls token.value i.call

/-- One inclusion is looked for before the other. -/
def SearchedBefore (i j : Inclusion) : Prop :=
  i.token < j.token ∨ i.token = j.token ∧
    (i.form.rank < j.form.rank ∨ i.form = j.form ∧ i.call.place < j.call.place)

/-- One inclusion stands in front of the other in the source. -/
def StandsBefore (i j : Inclusion) : Prop :=
  i.token < j.token ∨ i.token = j.token ∧ i.call.place < j.call.place

end Inclusion

/-- The first inclusion that makes one reference comes before all that make the other. -/
def Precedes (before : Inclusion → Inclusion → Prop) (source : Text) (r r' : Reference) : Prop :=
  ∃ i : Inclusion, i.In source ∧ i.reference = r ∧
    ∀ j : Inclusion, j.In source → j.reference = r' → before i j

/-- In each token the calls stand in the order of their forms. -/
def FormsInOrder (source : Text) : Prop :=
  ∀ i j : Inclusion, i.In source → j.In source → i.token = j.token → i.form.rank < j.form.rank →
    i.call.place < j.call.place

/-! ## The search for calls -/

theorem Form.consumes (form : Form) : Text.Consumes form.read :=
  fun hread => (form.read_eq_some_iff.1 hread).length_lt

/-- Readings by the reader of a form are the calls that stand in the code. -/
theorem Form.readingOf_eq (form : Form) (code : Text) : Reading.Of form.read code = form.StandsIn code := by
  funext call
  refine propext ((and_congr_right fun _ => form.read_eq_some_iff).trans (and_iff_right_of_imp fun h => ?_))
  have hless := h.length_lt
  rw [List.length_drop] at hless
  omega

/-- The calls of a form in code, from left to right. -/
def Form.calls (form : Form) (code : Text) : List (Reading Text) :=
  (Text.search form.read code).map (·.lastOf form.read code)

theorem Form.mem_calls_iff {call : Reading Text} : call ∈ form.calls code ↔ form.Calls code call := by
  rw [Form.calls, Text.mem_map_lastOf_iff form.consumes, form.readingOf_eq, Form.Calls]

theorem referencesIn_eq (code : Text) :
    referencesIn code =
      Form.all.flatMap fun form => (form.calls code).map fun call => form.reference call.value := by
  have hcalls : ∀ form : Form, (form.calls code).map (fun call => form.reference call.value) =
      (Text.readAll form.read code).map form.reference := fun form => by
    rw [Form.calls, Text.readAll_eq_map, List.map_map, List.map_map]
    rfl
  simp only [hcalls, Form.all, List.flatMap_cons, List.flatMap_nil, List.append_nil, ← List.append_assoc]
  rfl

/-! ## The inclusions of a template -/

/-- The tokens that hold running code, each with its number. -/
def codeTokens (source : Text) : List (Token × Nat) :=
  (tokenize source).zipIdx.filter (·.1.isCode)

/-- The inclusions of a token, in the order in which they are looked for. -/
def inclusionsOf (token : Token × Nat) : List Inclusion :=
  Form.all.flatMap fun form => (form.calls token.1.value).map fun call => ⟨token.2, form, call⟩

/-- The inclusions of a template, in the order in which they are looked for. -/
def inclusions (source : Text) : List Inclusion :=
  (codeTokens source).flatMap inclusionsOf

theorem mem_inclusionsOf_iff {token : Token × Nat} {i : Inclusion} :
    i ∈ inclusionsOf token ↔ i.token = token.2 ∧ i.form.Calls token.1.value i.call := by
  have hall : ∀ form, form ∈ Form.all := by
    rintro (_ | _ | _) <;> decide
  obtain ⟨number, form, call⟩ := i
  simp only [inclusionsOf, List.mem_flatMap, List.mem_map, hall, true_and, Form.mem_calls_iff, Inclusion.mk.injEq]
  constructor
  · rintro ⟨_, _, hcall, rfl, rfl, rfl⟩
    exact ⟨rfl, hcall⟩
  · rintro ⟨rfl, hcall⟩
    exact ⟨form, call, hcall, rfl, rfl, rfl⟩

theorem mem_inclusions_iff {i : Inclusion} : i ∈ inclusions source ↔ i.In source := by
  simp only [inclusions, codeTokens, List.mem_flatMap, List.mem_filter, mem_inclusionsOf_iff, Inclusion.In,
    Prod.exists, List.mk_mem_zipIdx_iff_getElem?]
  constructor
  · rintro ⟨token, number, ⟨htoken, hcode⟩, rfl, hcall⟩
    exact ⟨token, htoken, hcode, hcall⟩
  · rintro ⟨token, htoken, hcode, hcall⟩
    exact ⟨token, _, ⟨htoken, hcode⟩, rfl, hcall⟩

instance (source : Text) : Decidable (FormsInOrder source) :=
  decidable_of_iff
    (∀ i ∈ inclusions source, ∀ j ∈ inclusions source, i.token = j.token → i.form.rank < j.form.rank →
      i.call.place < j.call.place)
    (by
      simp only [mem_inclusions_iff, FormsInOrder]
      exact forall_congr' fun _ => forall_comm)

theorem references_eq (source : Text) :
    references source = ((inclusions source).map Inclusion.reference).eraseDups := by
  have hfragments : codeFragments source = (codeTokens source).map Prod.fst := by
    rw [codeFragments, codeTokens, ← List.zipIdx_map_fst 0 (tokenize source), List.filter_map,
      List.zipIdx_map_fst]
    rfl
  rw [references, hfragments, inclusions, List.flatMap_map, List.map_flatMap]
  congr 2
  funext token
  rw [referencesIn_eq, inclusionsOf, List.map_flatMap]
  simp only [List.map_map]
  rfl

/-- The inclusions of a token are listed as they are looked for. -/
theorem pairwise_inclusionsOf (token : Token × Nat) :
    (inclusionsOf token).Pairwise Inclusion.SearchedBefore := by
  refine List.pairwise_flatMap.2 ⟨fun form _ => ?_, ?_⟩
  · rw [List.pairwise_map]
    exact (Text.pairwise_lastOf form.consumes).imp fun h => .inr ⟨rfl, .inr ⟨rfl, h⟩⟩
  · have hforms : Form.all.Pairwise fun form form' => form.rank < form'.rank := by decide
    refine hforms.imp fun hrank i hi j hj => ?_
    obtain ⟨_, _, rfl⟩ := List.mem_map.1 hi
    obtain ⟨_, _, rfl⟩ := List.mem_map.1 hj
    exact .inr ⟨rfl, .inl hrank⟩

/-- The inclusions of a template are listed as they are looked for. -/
theorem pairwise_inclusions (source : Text) : (inclusions source).Pairwise Inclusion.SearchedBefore := by
  refine List.pairwise_flatMap.2 ⟨fun token _ => pairwise_inclusionsOf token, ?_⟩
  have htokens : (tokenize source).zipIdx.Pairwise fun token token' => token.2 < token'.2 := by
    rw [← List.pairwise_map (f := Prod.snd) (R := (· < ·)), List.zipIdx_map_snd]
    exact List.pairwise_lt_range'
  refine (htokens.filter _).imp fun hless i hi j hj => .inl ?_
  rwa [(mem_inclusionsOf_iff.1 hi).1, (mem_inclusionsOf_iff.1 hj).1]

/-! ## Each once -/

section Once

variable {α β : Type} [BEq β] [LawfulBEq β] {R : α → α → Prop} {f : α → β}

theorem nodup_eraseDups (l : List β) : l.eraseDups.Nodup := by
  induction hlength : l.length using Nat.strongRecOn generalizing l with
  | ind length ih =>
    cases l with
    | nil => exact List.nodup_nil
    | cons b l =>
      rw [List.eraseDups_cons, List.nodup_cons, List.mem_eraseDups]
      refine ⟨by simp, ih _ ?_ _ rfl⟩
      rw [← hlength, List.length_cons]
      exact Nat.lt_succ_of_le (List.length_filter_le _ _)

/-- Of what makes the same value the first one stays, so that it comes before all that make a later value. -/
theorem pairwise_eraseDups_map {l : List α} (h : l.Pairwise R) :
    (l.map f).eraseDups.Pairwise fun b b' => ∃ a ∈ l, f a = b ∧ ∀ a' ∈ l, f a' = b' → R a a' := by
  -- what follows the first is what makes other values, which is no longer than the rest of the list
  induction hlength : l.length using Nat.strongRecOn generalizing l with
  | ind length ih =>
    cases l with
    | nil => exact .nil
    | cons a l =>
      obtain ⟨hfirst, hrest⟩ := List.pairwise_cons.1 h
      have hother : ∀ {b}, b ∈ ((l.map f).filter fun b => !b == f a).eraseDups → b ≠ f a := fun hb => by
        simpa using (List.mem_filter.1 (List.mem_eraseDups.1 hb)).2
      have hless : (l.filter fun a' => !f a' == f a).length < length := by
        rw [← hlength, List.length_cons]
        exact Nat.lt_succ_of_le (List.length_filter_le _ _)
      have hlater := ih _ hless (hrest.filter _) rfl
      rw [List.map_cons, List.eraseDups_cons]
      refine .cons (fun b hb => ⟨a, List.mem_cons_self, rfl, fun a' ha' heq => ?_⟩) ?_
      · rcases List.mem_cons.1 ha' with rfl | ha'
        · exact absurd heq.symm (hother hb)
        · exact hfirst a' ha'
      · rw [List.filter_map] at hother ⊢
        refine hlater.imp_of_mem fun {b b'} hb hb' => ?_
        rintro ⟨c, hc, rfl, hbefore⟩
        refine ⟨c, List.mem_cons_of_mem _ (List.mem_filter.1 hc).1, rfl, fun a' ha' heq => ?_⟩
        have hne := heq ▸ hother hb'
        rcases List.mem_cons.1 ha' with rfl | ha'
        · exact absurd rfl hne
        · exact hbefore a' (List.mem_filter.2 ⟨ha', by simpa using hne⟩) heq

end Once

/-! ## The order -/

/-- The references of a template are what its inclusions name, each once, in the order in which these are looked
for; if in each token the calls stand in the order of their forms, then in the order of the source. -/
theorem references_ordered (source : Text) :
    (references source).Nodup ∧
      (∀ r, r ∈ references source ↔ ∃ i : Inclusion, i.In source ∧ i.reference = r) ∧
      (references source).Pairwise (Precedes Inclusion.SearchedBefore source) ∧
      (FormsInOrder source → (references source).Pairwise (Precedes Inclusion.StandsBefore source)) := by
  have hsearched : (references source).Pairwise (Precedes Inclusion.SearchedBefore source) := by
    rw [references_eq]
    refine (pairwise_eraseDups_map (pairwise_inclusions source)).imp ?_
    rintro r r' ⟨i, hi, hr, hbefore⟩
    exact ⟨i, mem_inclusions_iff.1 hi, hr, fun j hj => hbefore j (mem_inclusions_iff.2 hj)⟩
  refine ⟨nodup_eraseDups _, fun r => ?_, hsearched, fun horder => hsearched.imp ?_⟩
  · simp only [references_eq, List.mem_eraseDups, List.mem_map, mem_inclusions_iff]
  · rintro r r' ⟨i, hi, hr, hbefore⟩
    refine ⟨i, hi, hr, fun j hj hr' => ?_⟩
    -- only where the form decides could the search and the source disagree
    rcases hbefore j hj hr' with htoken | ⟨htoken, hrank | ⟨-, hplace⟩⟩
    · exact .inl htoken
    · exact .inr ⟨htoken, horder i j hi hj htoken hrank⟩
    · exact .inr ⟨htoken, hplace⟩

/-- Calls of all forms in one tag, with a reference made again further on. -/
def mixed : Text :=
  "<p>render \"x\"</p><%# render \"y\" %>".toList ++
    "<%= render(\"a\") + render(partial: \"b\") + render(@users) %><% render :partial => \"a\" %>".toList

theorem references_ordered_mixed :
    FormsInOrder mixed ∧ references mixed = [["a".toList], ["b".toList], ["users/user".toList, "user".toList]] ∧
      (references mixed).Pairwise (Precedes Inclusion.StandsBefore mixed) :=
  have horder : FormsInOrder mixed := by decide +kernel
  ⟨horder, by decide +kernel, (references_ordered mixed).2.2.2 horder⟩

/-- A call by name is looked for before a call by model that stands in front of it. -/
example : references "<%= render(@users) + render(\"a\") %>" =
    [["a".toList], ["users/user".toList, "user".toList]] := by
  decide +kernel

end Template

end TemplateAudit
