import TemplateAudit.Proofs.Decimal.Canonical
import TemplateAudit.Proofs.Json.Numbers
import TemplateAudit.Proofs.Json.Strings
import TemplateAudit.Proofs.Outcome
import TemplateAudit.Proofs.Path

/-!
# Objects of numbers are read back

An object whose fields are canonical numbers, written as a file with a line for each field, is read back
with all its fields in order (`read_write_fields`).  Any text is read as an object when it has entries,
which are what stands in it before repetitions are sorted out (`entries?`, `read_eq_obj`).
-/

namespace TemplateAudit

open Decimal Outcome

namespace Json

/-- Fields that are numbers. -/
def floats (fields : List (Text × Double)) : List (Text × Json) :=
  fields.map fun field => (field.1, .float field.2)

/-! ## One field -/

/-- A character that begins no value but a name or a number. -/
def IsPlainStart (c : Char) : Prop :=
  isGap c = false ∧ c ≠ '"' ∧ c ≠ '[' ∧ c ≠ '\x7b'

theorem isPlainStart_of_isDigit {c : Char} (hc : c.isDigit) : IsPlainStart c := by
  have hne : ∀ d : Char, d.isDigit = false → c ≠ d := by
    rintro d hd rfl
    rw [hc] at hd
    cases hd
  refine ⟨?_, hne '"' rfl, hne '[' rfl, hne '\x7b' rfl⟩
  simp only [isGap, beq_eq_false_iff_ne.2 (hne ' ' rfl), beq_eq_false_iff_ne.2 (hne '\t' rfl),
    beq_eq_false_iff_ne.2 (hne '\n' rfl), beq_eq_false_iff_ne.2 (hne '\r' rfl), Bool.or_self]

/-- What is written for a number begins like a name or a number. -/
theorem write_eq_cons {x : Double} (hx : x.Canonical) :
    ∃ c s, fileLayout.write x = c :: s ∧ IsPlainStart c := by
  cases x with
  | nan => exact ⟨'N', _, rfl, by decide, by decide, by decide, by decide⟩
  | infinite negative =>
    cases negative with
    | false => exact ⟨'I', _, rfl, by decide, by decide, by decide, by decide⟩
    | true => exact ⟨'-', _, rfl, by decide, by decide, by decide, by decide⟩
  | finite negative m e =>
    have hunsigned : ∃ c s, (if m = 0 then "0.0".toList
        else fileLayout.digits (shortest m e).1 (shortest m e).2) = c :: s ∧ c.isDigit := by
      by_cases hm : m = 0
      · exact ⟨'0', _, if_pos hm, rfl⟩
      · have hne := (shortest_rounds (Nat.pos_of_ne_zero hm) hx).2
        have hsign : fileLayout.positiveSign = ['+'] := rfl
        rw [if_neg hm]
        exact (isSetOut_digits hsign hne _).eq_cons
    obtain ⟨c, s, htext, hc⟩ := hunsigned
    have hwrite : fileLayout.write (.finite negative m e) =
        (if negative then ['-'] else []) ++ c :: s := by
      rw [← htext, Layout.write]
      split <;> rfl
    rw [hwrite]
    cases negative with
    | false => exact ⟨c, s, rfl, isPlainStart_of_isDigit hc⟩
    | true => exact ⟨'-', c :: s, rfl, by decide, by decide, by decide, by decide⟩

theorem skipGap_cons {c : Char} {s : Text} (hc : isGap c = false) : skipGap (c :: s) = c :: s := by
  rw [skipGap, List.dropWhile_cons, hc]
  rfl

theorem skipGap_gap {c : Char} {s : Text} (hc : isGap c = true) : skipGap (c :: s) = skipGap s := by
  rw [skipGap, List.dropWhile_cons, if_pos hc, ← skipGap]

/-- A number is read back where a value is read. -/
theorem readValue_write {x : Double} (hx : x.Canonical) {rest : Text} (hrest : EndsNumber rest)
    (fuel : Nat) : readValue (fuel + 1) (fileLayout.write x ++ rest) = .ok (.float x, rest) := by
  have hread := readPlain_write hx hrest
  obtain ⟨c, s, htext, -, hquote, hbracket, hbrace⟩ := write_eq_cons hx
  rw [htext, List.cons_append] at hread ⊢
  rw [readValue, hread]
  · exact fun t h => hquote (List.cons.inj h).1
  · exact fun t h => hbracket (List.cons.inj h).1
  · exact fun t h => hbrace (List.cons.inj h).1

/-- A field as it is written. -/
def fieldText (field : Text × Double) : Text :=
  writeString true field.1 ++ (':' :: ' ' :: fileLayout.write field.2)

/-- The end of one line and the beginning of the next. -/
def lineBreak : Text :=
  fileStyle.newline 1

/-- A field is read up to what stands behind its value. -/
theorem readFields_fieldText {field : Text × Double} (hfield : field.2.Canonical) {rest : Text}
    (hrest : EndsNumber rest) (fuel : Nat) :
    readFields (fuel + 2) (fieldText field ++ rest) =
      match skipGap rest with
      | ',' :: s => do
        let (fields, s) ← readFields (fuel + 1) (skipGap s)
        return ((field.1, .float field.2) :: fields, s)
      | '\x7d' :: s => return ([(field.1, .float field.2)], s)
      | _ => .error .malformed := by
  obtain ⟨c, s, htext, hgap, -⟩ := write_eq_cons hfield
  have hskip : skipGap (' ' :: (fileLayout.write field.2 ++ rest)) = fileLayout.write field.2 ++ rest := by
    rw [skipGap_gap rfl, htext, List.cons_append, skipGap_cons hgap]
  have htext' : fieldText field ++ rest = '"' :: (field.1.flatMap (writeChar true) ++
      '"' :: (':' :: ' ' :: (fileLayout.write field.2 ++ rest))) := by
    simp [fieldText, writeString]
  have hlength : field.1.length < (field.1.flatMap (writeChar true) ++
      '"' :: (':' :: ' ' :: (fileLayout.write field.2 ++ rest))).length + 1 := by
    have := length_le_length_flatMap_writeChar true field.1
    rw [List.length_append]
    omega
  have hcolon : isGap ':' = false := rfl
  rw [htext', readFields, readString_writeString _ _ hlength, ok_bind]
  simp only [skipGap_cons hcolon, hskip, readValue_write hfield hrest, ok_bind] <;> rfl

/-! ## All fields -/

theorem lineBreak_eq : lineBreak = "\n  ".toList := by
  decide

/-- Fields on lines of their own are read back in order. -/
theorem readFields_join {field : Text × Double} {fields : List (Text × Double)}
    (hfields : ∀ f ∈ field :: fields, f.2.Canonical) {fuel : Nat} (hfuel : fields.length < fuel)
    (rest : Text) :
    readFields (fuel + 1) (Text.join (',' :: lineBreak) ((field :: fields).map fieldText) ++
      ('\n' :: '\x7d' :: rest)) = .ok (floats (field :: fields), rest) := by
  induction fields generalizing field fuel with
  | nil =>
    obtain ⟨fuel, rfl⟩ := Nat.exists_eq_add_one_of_ne_zero (Nat.ne_zero_of_lt hfuel)
    have hends : EndsNumber ('\n' :: '\x7d' :: rest) := by
      intro c hc
      obtain rfl := Option.some.inj hc
      decide
    rw [List.map_singleton, Text.join, readFields_fieldText (hfields field List.mem_cons_self) hends,
      skipGap_gap rfl, skipGap_cons rfl]
    rfl
  | cons next fields ih =>
    obtain ⟨fuel, rfl⟩ := Nat.exists_eq_add_one_of_ne_zero (Nat.ne_zero_of_lt hfuel)
    obtain ⟨others, hothers⟩ : ∃ others, others =
        Text.join (',' :: lineBreak) ((next :: fields).map fieldText) ++ ('\n' :: '\x7d' :: rest) :=
      ⟨_, rfl⟩
    have hjoin : Text.join (',' :: lineBreak) ((field :: next :: fields).map fieldText) ++
        ('\n' :: '\x7d' :: rest) = fieldText field ++ (',' :: (lineBreak ++ others)) := by
      rw [hothers, List.map_cons, List.map_cons, Text.join, List.append_assoc, List.append_assoc]
      · rfl
      · exact fun h => List.cons_ne_nil _ _ h
    have hends : EndsNumber (',' :: (lineBreak ++ others)) := by
      intro c hc
      obtain rfl := Option.some.inj hc
      decide
    -- the next line begins with the quote of a name
    have hskip : skipGap (lineBreak ++ others) = others := by
      obtain ⟨s, hs⟩ : ∃ s, others = '"' :: s := by
        rw [hothers]
        cases fields <;> exact ⟨_, rfl⟩
      rw [lineBreak_eq, hs]
      rfl
    rw [hjoin, readFields_fieldText (hfields field List.mem_cons_self) hends, skipGap_cons rfl]
    simp only [hskip]
    rw [hothers, ih (fun f hf => hfields f (List.mem_cons_of_mem _ hf)) (Nat.lt_of_succ_lt_succ hfuel)]
    rfl

theorem writeFields_floats (fields : List (Text × Double)) :
    writeFields fileStyle 1 (floats fields) = fields.map fieldText := by
  induction fields with
  | nil => rfl
  | cons field fields ih =>
    rw [floats, List.map_cons, writeFields, ← floats, ih, List.map_cons, fieldText, List.append_assoc]
    rfl

/-- A text with separators is at least as long as there are separators. -/
theorem length_le_length_join {separator : Text} (h : separator ≠ []) (pieces : List Text) :
    pieces.length ≤ (Text.join separator pieces).length + 1 := by
  have hpos := List.length_pos_iff.2 h
  induction pieces with
  | nil => exact Nat.zero_le _
  | cons piece pieces ih =>
    cases pieces with
    | nil => exact Nat.le_add_left _ _
    | cons next pieces =>
      rw [Text.join, List.length_append, List.length_append, List.length_cons]
      · omega
      · exact fun hnil => List.cons_ne_nil _ _ hnil

/-- **An object of numbers is read back.** -/
theorem read_write_fields {fields : List (Text × Double)} (hfields : ∀ f ∈ fields, f.2.Canonical) :
    read (write fileStyle (.obj (floats fields))) = .ok (.obj (Pairs.ofEntries (floats fields))) := by
  cases fields with
  | nil => rfl
  | cons field fields =>
    obtain ⟨lines, hlines⟩ : ∃ lines, lines =
        Text.join (',' :: lineBreak) ((field :: fields).map fieldText) ++ ['\n', '\x7d'] := ⟨_, rfl⟩
    have htext : write fileStyle (.obj (floats (field :: fields))) = '\x7b' :: (lineBreak ++ lines) := by
      rw [write, writeAt, writeFields_floats, Style.enclose, if_neg (by simp), hlines,
        List.append_assoc, List.append_assoc]
      rfl
    obtain ⟨s, hquote⟩ : ∃ s, lines = '"' :: s := by
      rw [hlines]
      cases fields <;> exact ⟨_, rfl⟩
    have hskip : skipGap (lineBreak ++ lines) = lines := by
      rw [lineBreak_eq, hquote]
      rfl
    have hfuel : fields.length < lines.length + 3 := by
      have hlength := length_le_length_join (List.cons_ne_nil ',' lineBreak)
        ((field :: fields).map fieldText)
      rw [List.length_map, List.length_cons] at hlength
      rw [hlines, List.length_append]
      omega
    have hread := readFields_join hfields hfuel []
    rw [← hlines] at hread
    have hlength : ('\x7b' :: (lineBreak ++ lines)).length + 1 = lines.length + 3 + 1 + 1 := by
      have hbreak : lineBreak.length = 3 := by decide
      rw [List.length_cons, List.length_append, hbreak]
      omega
    have hvalue : readValue (lines.length + 3 + 1 + 1) ('\x7b' :: (lineBreak ++ lines)) =
        .ok (.obj (Pairs.ofEntries (floats (field :: fields))), []) := by
      rw [readValue, hskip]
      rw [hquote] at hread ⊢
      exact congrArg (Except.map _) hread
    rw [read, htext, skipGap_cons rfl, hlength, hvalue]
    rfl

/-- What is written for an object of numbers holds no carriage return. -/
theorem not_mem_write_fields {fields : List (Text × Double)} (hfields : ∀ f ∈ fields, f.2.Canonical) :
    '\r' ∉ write fileStyle (.obj (floats fields)) := by
  have hlines : '\r' ∉ Text.join (',' :: lineBreak) (fields.map fieldText) := by
    refine Text.not_mem_join (by decide) (List.forall_mem_map.2 fun field hfield hmem => ?_)
    rcases List.mem_append.1 hmem with hname | hmem
    · exact not_mem_writeString _ hname
    · refine List.not_mem_cons_of_ne_of_not_mem (by decide)
        (List.not_mem_cons_of_ne_of_not_mem (by decide) ?_) hmem
      exact not_mem_write (hfields field hfield)
  rw [write, writeAt, writeFields_floats, Style.enclose]
  split
  · decide
  · refine List.not_mem_cons_of_ne_of_not_mem (by decide) ?_
    simp only [List.mem_append, not_or]
    exact ⟨⟨⟨by decide, hlines⟩, by decide⟩, by decide⟩

/-! ## What is read -/

/-- A name or a number, which is canonical if it is no integer. -/
def IsPlain : Json → Prop
  | .float x => x.Canonical
  | .arr _ => False
  | .obj _ => False
  | _ => True

theorem isPlain_of_readUnsigned {negative : Bool} {s rest : Text} {value : Json}
    (h : readUnsigned negative s = .ok (value, rest)) : IsPlain value := by
  rw [readUnsigned] at h
  split at h
  · cases h
  · simp only at h
    split at h
    · split at h
      · cases h
      · obtain ⟨rfl, -⟩ := Prod.mk.inj (Except.ok.inj h)
        trivial
    · obtain ⟨rfl, -⟩ := Prod.mk.inj (Except.ok.inj h)
      exact Double.canonical_ofDecimal ..

theorem isPlain_of_readPlain {s rest : Text} {value : Json} (h : readPlain s = .ok (value, rest)) :
    IsPlain value := by
  unfold readPlain at h
  split at h
  · rename_i found hfound
    obtain rfl := Except.ok.inj h
    obtain ⟨named, hnamed, hvalue⟩ := List.exists_of_findSome?_eq_some hfound
    obtain ⟨rest', -, hvalue⟩ := Option.map_eq_some_iff.1 hvalue
    obtain ⟨rfl, -⟩ := Prod.mk.inj hvalue
    simp only [namedValues, List.mem_cons, List.not_mem_nil, or_false] at hnamed
    rcases hnamed with rfl | rfl | rfl | rfl | rfl | rfl <;> trivial
  · split at h
    · exact isPlain_of_readUnsigned h
    · exact isPlain_of_readUnsigned h

/-- The entries of an object from behind its first brace on, and the text after the brace that closes it. -/
def readEntries (fuel : Nat) (s : Text) : Except ReadError (List (Text × Json) × Text) :=
  match skipGap s with
  | '\x7d' :: rest => .ok ([], rest)
  | s => readFields fuel s

theorem readValue_brace (fuel : Nat) (s : Text) :
    readValue (fuel + 1) ('\x7b' :: s) =
      (readEntries fuel s).map fun found => (obj (Pairs.ofEntries found.1), found.2) := by
  rw [readValue]
  fun_cases readEntries fuel s with
  | case1 rest hrest =>
    simp only [hrest]
    rfl
  | case2 hnot =>
    split
    · rename_i hrest
      exact (hnot _ hrest).elim
    · rfl

/-- A value that is read is a string, an array, an object whose entries were read, or plain. -/
theorem readValue_cases {fuel : Nat} {s rest : Text} {value : Json}
    (h : readValue fuel s = .ok (value, rest)) :
    (∃ text, value = .str text) ∨ (∃ items, value = .arr items) ∨
      (∃ fuel' body entries, fuel = fuel' + 1 ∧ s = '\x7b' :: body ∧
        readEntries fuel' body = .ok (entries, rest) ∧ value = .obj (Pairs.ofEntries entries)) ∨
      IsPlain value := by
  unfold readValue at h
  split at h
  · cases h
  · obtain ⟨found, -, h⟩ := map_eq_ok.1 h
    exact .inl ⟨found.1, (congrArg Prod.fst h).symm⟩
  · refine .inr (.inl ?_)
    split at h
    · exact ⟨[], (congrArg Prod.fst (Except.ok.inj h)).symm⟩
    · obtain ⟨found, -, h⟩ := map_eq_ok.1 h
      exact ⟨found.1, (congrArg Prod.fst h).symm⟩
  · rename_i fuel' body
    rw [← readValue, readValue_brace] at h
    obtain ⟨⟨entries, rest'⟩, hentries, h⟩ := map_eq_ok.1 h
    obtain ⟨rfl, rfl⟩ := Prod.mk.inj h
    exact .inr (.inr (.inl ⟨fuel', body, entries, rfl, rfl, hentries, rfl⟩))
  · exact .inr (.inr (.inr (isPlain_of_readPlain h)))

/-- A number that is read is canonical. -/
theorem canonical_of_readValue {fuel : Nat} {s rest : Text} {x : Double}
    (h : readValue fuel s = .ok (.float x, rest)) : x.Canonical := by
  rcases readValue_cases h with ⟨_, hvalue⟩ | ⟨_, hvalue⟩ | ⟨_, _, _, -, -, -, hvalue⟩ | hplain
  · cases hvalue
  · cases hvalue
  · cases hvalue
  · exact hplain

/-- The numbers among the fields that are read are canonical. -/
theorem canonical_of_readFields {fuel : Nat} {s rest : Text} {fields : List (Text × Json)}
    (h : readFields fuel s = .ok (fields, rest)) :
    ∀ field ∈ fields, ∀ x, field.2 = .float x → x.Canonical := by
  induction fuel generalizing s fields with
  | zero => cases h
  | succ fuel ih =>
    unfold readFields at h
    split at h
    · cases h
    · rename_i heq
      obtain rfl := Nat.succ.inj heq
      obtain ⟨⟨name, s⟩, -, h⟩ := bind_eq_ok.1 h
      simp only at h
      split at h
      · obtain ⟨⟨value, s⟩, hvalue, h⟩ := bind_eq_ok.1 h
        have hfirst : ∀ x, value = .float x → x.Canonical := fun x hx =>
          canonical_of_readValue (hx ▸ hvalue)
        simp only at h
        split at h
        · obtain ⟨⟨others, s⟩, hothers, h⟩ := bind_eq_ok.1 h
          obtain ⟨rfl, rfl⟩ := Prod.mk.inj (Except.ok.inj h)
          exact List.forall_mem_cons.2 ⟨hfirst, ih hothers⟩
        · obtain ⟨rfl, -⟩ := Prod.mk.inj (Except.ok.inj h)
          exact List.forall_mem_singleton.2 hfirst
        · cases h
      · cases h
    · cases h

theorem canonical_of_readEntries {fuel : Nat} {s rest : Text} {entries : List (Text × Json)}
    (h : readEntries fuel s = .ok (entries, rest)) :
    ∀ entry ∈ entries, ∀ x, entry.2 = .float x → x.Canonical := by
  rw [readEntries] at h
  split at h
  · obtain ⟨rfl, -⟩ := Prod.mk.inj (Except.ok.inj h)
    exact fun entry hentry => nomatch hentry
  · exact canonical_of_readFields h

/-! ## Entries -/

/-- The entries of the object that a text writes, in order and with all repetitions; a text that writes no
object has none. -/
def entries? (s : Text) : Option (List (Text × Json)) :=
  match skipGap s with
  | '\x7b' :: body =>
    match readEntries s.length body with
    | .ok (entries, rest) => if (skipGap rest).isEmpty then some entries else none
    | .error _ => none
  | _ => none

theorem entries?_eq_some {s : Text} {entries : List (Text × Json)} :
    entries? s = some entries ↔ ∃ body rest, skipGap s = '\x7b' :: body ∧
      readEntries s.length body = .ok (entries, rest) ∧ (skipGap rest).isEmpty := by
  rw [entries?]
  constructor
  · intro h
    split at h
    · rename_i body hbody
      split at h
      · rename_i rest hread
        obtain ⟨hrest, h⟩ := Option.ite_none_right_eq_some.1 h
        obtain rfl := Option.some.inj h
        exact ⟨body, rest, hbody, hread, hrest⟩
      · cases h
    · cases h
  · rintro ⟨body, rest, hbody, hread, hrest⟩
    simp only [hbody, hread, hrest, if_true]

theorem read_eq_ok {s : Text} {value : Json} :
    read s = .ok value ↔ ∃ rest, readValue (s.length + 1) (skipGap s) = .ok (value, rest) ∧
      (skipGap rest).isEmpty := by
  rw [read]
  split
  · rename_i heq
    simp [heq]
  · rename_i heq
    rw [heq]
    split <;> simp_all

/-- **A text is read as an object when it has entries, and the object is the table of them.** -/
theorem read_eq_obj {s : Text} {fields : List (Text × Json)} :
    read s = .ok (.obj fields) ↔
      ∃ entries, entries? s = some entries ∧ fields = Pairs.ofEntries entries := by
  simp only [read_eq_ok, entries?_eq_some]
  constructor
  · rintro ⟨rest, hvalue, hrest⟩
    rcases readValue_cases hvalue with
      ⟨_, hobj⟩ | ⟨_, hobj⟩ | ⟨_, body, entries, hfuel, hbody, hentries, hobj⟩ | hplain
    · cases hobj
    · cases hobj
    · obtain rfl := Nat.succ.inj hfuel
      exact ⟨entries, ⟨body, rest, hbody, hentries, hrest⟩, Json.obj.inj hobj⟩
    · exact hplain.elim
  · rintro ⟨entries, ⟨body, rest, hbody, hentries, hrest⟩, rfl⟩
    refine ⟨rest, ?_, hrest⟩
    rw [hbody, readValue_brace, hentries]
    rfl

/-- The fields of an object that is read have different names, and the numbers among them are
canonical. -/
theorem fields_of_read {s : Text} {fields : List (Text × Json)} (h : read s = .ok (.obj fields)) :
    (fields.map Prod.fst).Nodup ∧ ∀ field ∈ fields, ∀ x, field.2 = .float x → x.Canonical := by
  obtain ⟨entries, hentries, rfl⟩ := read_eq_obj.1 h
  obtain ⟨_, _, -, hread, -⟩ := entries?_eq_some.1 hentries
  refine ⟨Pairs.nodup_keys_ofEntries entries, fun field hfield => ?_⟩
  exact canonical_of_readEntries hread field (Pairs.mem_of_mem_ofEntries hfield)

end Json

end TemplateAudit
