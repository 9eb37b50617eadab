import TemplateAudit.Proofs.Helper.Pieces
import TemplateAudit.Proofs.Text.Letter
import TemplateAudit.Proofs.Text.Parts

/-!
# Reading literals back

A literal that was written is read as its value (`read_print`), and an entry of a hash that was written
is read as its key and its value (`keyed?_entry`).
-/

namespace TemplateAudit

namespace Helper

open Text (takeWhile_append_of_stop dropWhile_append_of_stop)

variable {mark c : Char} {s text word rest : Text}

/-! ## Words -/

theorem IsWord.exists_cons {begins : Char → Bool} (h : IsWord begins word) :
    ∃ c s, word = c :: s ∧ begins c = true ∧ ∀ d ∈ s, Text.isWordChar d = true := by
  cases word with
  | nil => cases h
  | cons c s => exact ⟨c, s, rfl, h⟩

/-- An identifier is read up to the first character that cannot go on with it. -/
theorem identifier?_append (hword : IsKey word) (hrest : ∀ c ∈ rest.head?, Text.isWordChar c = false) :
    Text.identifier? (word ++ rest) = some (word, rest) := by
  obtain ⟨c, s, rfl, hc, hs⟩ := hword.exists_cons
  rw [List.cons_append, Text.identifier?, if_pos hc, takeWhile_append_of_stop hs hrest,
    dropWhile_append_of_stop hs hrest]

theorem identifier?_word (hword : IsKey word) : Text.identifier? word = some (word, []) := by
  have hread := @identifier?_append word [] hword (by decide)
  rwa [List.append_nil] at hread

/-- A name is read up to the first character that cannot go on with it. -/
theorem name?_append (hword : IsHelperName word)
    (hrest : ∀ c ∈ rest.head?, Text.isWordChar c = false) :
    name? (word ++ rest) = some (word, rest) := by
  obtain ⟨c, s, rfl, hc, hs⟩ := hword.exists_cons
  rw [List.cons_append, name?, if_pos hc, takeWhile_append_of_stop hs hrest,
    dropWhile_append_of_stop hs hrest]

theorem IsKey.isWordChar (h : IsKey word) : ∀ c ∈ word, Text.isWordChar c = true := by
  obtain ⟨c, s, rfl, hc, hs⟩ := h.exists_cons
  exact List.forall_mem_cons.2 ⟨Text.isWordChar_of_beginsIdentifier hc, hs⟩

theorem IsKey.ne_nil (h : IsKey word) : word ≠ [] := by
  obtain ⟨c, s, rfl, -, -⟩ := h.exists_cons
  exact List.cons_ne_nil c s

/-! ## Strings -/

theorem stringBody?_escape (hmark : mark ≠ '\\') (text : Text) :
    stringBody? mark (escape mark text ++ [mark]) = some (escape mark text) := by
  induction text with
  | nil => rw [escape_nil, List.nil_append, stringBody?.eq_3 _ _ _ (by grind), if_pos rfl]; rfl
  | cons c text ih =>
    rw [escape_cons, List.append_assoc]
    by_cases hc : c = mark ∨ c = '\\'
    · rw [quoteChar, if_pos hc, List.cons_append, List.singleton_append, stringBody?, ih]
      rfl
    · obtain ⟨hne, hslash⟩ := not_or.1 hc
      rw [quoteChar, if_neg hc, List.singleton_append, stringBody?.eq_3 _ _ _ (by grind), if_neg hne,
        if_neg hslash, ih]
      rfl

theorem quoted?_quote (hmark : mark ≠ '\\') (text : Text) :
    quoted? mark (quote mark text) = some (escape mark text) := by
  rw [quote, quoted?, if_pos rfl, stringBody?_escape hmark]

/-- A text that begins otherwise is no string in these marks. -/
theorem quoted?_of_head (h : c ≠ mark) (s : Text) : quoted? mark (c :: s) = none :=
  if_neg h

theorem unescape_escape (hmark : mark ≠ '\n') (text : Text) : unescape (escape mark text) = text := by
  induction text with
  | nil => rfl
  | cons c text ih =>
    rw [escape_cons]
    by_cases hc : c = mark ∨ c = '\\'
    · have hnewline : c ≠ '\n' := by
        rcases hc with rfl | rfl
        · exact hmark
        · decide
      rw [quoteChar, if_pos hc, List.cons_append, List.singleton_append, unescape, if_neg hnewline, ih]
    · rw [quoteChar, if_neg hc, List.singleton_append, unescape.eq_3 _ _ (by grind), ih]

/-- No expression `#{…}` stands in the text: behind its beginning there is no end. -/
def HoldsNoExpression (text : Text) : Prop :=
  ∀ before after, text = before ++ '#' :: '\x7b' :: after → '\x7d' ∉ after

theorem holdsNoExpression_of_no_beginning (h : ¬['#', '\x7b'] <:+: text) : HoldsNoExpression text :=
  fun before after heq => absurd ⟨before, after, by simp [heq]⟩ h

/-- Where no expression stands, nothing is filled in. -/
theorem fillInterpolations_of_holdsNoExpression (h : HoldsNoExpression text) : fillInterpolations text = text := by
  rw [fillInterpolations]
  induction text with
  | nil => rfl
  | cons c text ih =>
    have hrest : HoldsNoExpression text := fun before after heq => h (c :: before) after (by rw [heq, List.cons_append])
    by_cases hbegins : ∃ s, c = '#' ∧ text = '\x7b' :: s
    · obtain ⟨s, rfl, rfl⟩ := hbegins
      have hcut := Text.cutAtChar_eq_none (h [] s rfl)
      rw [fillFrom, hcut]
      exact congrArg ('#' :: ·) (ih hrest)
    · rw [fillFrom.eq_4, ih hrest]
      rintro s rfl rfl
      exact hbegins ⟨s, rfl, rfl⟩

/-- Where no expression begins, nothing is filled in. -/
theorem fillInterpolations_eq_self (h : ¬['#', '\x7b'] <:+: text) : fillInterpolations text = text :=
  fillInterpolations_of_holdsNoExpression (holdsNoExpression_of_no_beginning h)

/-! ## Written texts as pieces -/

/-- A text that is a piece of its own among the arguments of a call. -/
structure IsPiece (text : Text) : Prop where
  whole : StaysWhole ',' 0 text
  inside : StaysInside text
  trimmed : Text.IsTrimmed text
  nonempty : text ≠ []

theorem IsPiece.quote (hmark : isQuote mark = true) (text : Text) : IsPiece (quote mark text) := by
  have hblank : Text.IsTrimmed [mark] := by
    refine Text.IsTrimmed.of_forall fun c hc => ?_
    rw [isQuote, Bool.or_eq_true, beq_iff_eq, beq_iff_eq] at hmark
    rw [List.mem_singleton.1 hc]
    rcases hmark with rfl | rfl <;> decide
  exact ⟨StaysWhole.quote hmark text, StaysInside.quote hmark text,
    hblank.around hblank (List.cons_ne_nil _ _) (List.cons_ne_nil _ _) (escape mark text),
    List.cons_ne_nil _ _⟩

/-- The characters that part arguments or hold them together. -/
def structural : Text :=
  ['\'', '"', '(', ')', '[', ']', '\x7b', '\x7d', ',']

/-- A text of characters of one class, to which neither white space nor structural characters belong. -/
theorem IsPiece.of_class {p : Char → Bool} (hblank : ∀ c, p c = true → Text.isBlank c = false)
    (hclass : ∀ c ∈ structural, p c = false) (hnonempty : text ≠ []) (h : ∀ c ∈ text, p c = true) :
    IsPiece text := by
  have hmarks : ∀ c ∈ text, c ≠ '\'' ∧ c ≠ '"' ∧ c ≠ '(' ∧ c ≠ ')' ∧ c ≠ '[' ∧ c ≠ ']' ∧ c ≠ '\x7b' ∧
      c ≠ '\x7d' ∧ c ≠ ',' := by
    intro c hc
    have hplain : c ∉ structural := fun hin => by simpa [h c hc] using hclass c hin
    simpa [structural] using hplain
  refine ⟨StaysWhole.of_plain fun c hc => ?_, StaysInside.of_forall fun c hc => ?_,
    Text.IsTrimmed.of_forall fun c hc => hblank c (h c hc), hnonempty⟩
  · have := hmarks c hc
    simp [IsPlain, isQuote, isOpening, isClosing, this]
  · have := hmarks c hc
    simp [isQuote, this]

/-- Does the character stand in a symbol? -/
def isSymbolChar (c : Char) : Bool :=
  Text.isWordChar c || c == ':' || c == '?' || c == '!'

/-- A word, or a symbol with its colon and the mark that may end it. -/
theorem IsPiece.of_symbolChars (hnonempty : text ≠ []) (h : ∀ c ∈ text, isSymbolChar c = true) :
    IsPiece text := by
  refine IsPiece.of_class (fun c hc => ?_) (by decide) hnonempty h
  simp only [isSymbolChar, Bool.or_eq_true, beq_iff_eq] at hc
  rcases hc with ((hword | rfl) | rfl) | rfl
  · exact Text.isBlank_of_isWordChar hword
  all_goals decide

/-- Does the character stand in a number? -/
def isNumberChar (c : Char) : Bool :=
  Text.isDecimalDigit c || c == '-' || c == '.'

theorem isUnsigned_cases {unsigned : Text} (h : (match Text.cutAtChar '.' unsigned with
      | some cut => isDigits cut.1 && isDigits cut.2
      | none => isDigits unsigned) = true) : isDigits unsigned = true ∨
    ∃ before after, unsigned = before ++ '.' :: after ∧ isDigits before = true ∧
      isDigits after = true := by
  split at h
  · rename_i cut hcut
    exact .inr ⟨cut.1, cut.2, Text.cutAtChar_eq_some hcut, Bool.and_eq_true_iff.1 h⟩
  · exact .inl h

/-- A number is one run of digits or two with a point between, after a minus or none. -/
theorem isNumber_cases (h : isNumber text = true) : ∃ unsigned,
    (text = unsigned ∨ text = '-' :: unsigned) ∧ (isDigits unsigned = true ∨
      ∃ before after, unsigned = before ++ '.' :: after ∧ isDigits before = true ∧
        isDigits after = true) := by
  unfold isNumber at h
  split at h
  · exact ⟨_, .inr rfl, isUnsigned_cases h⟩
  · exact ⟨_, .inl rfl, isUnsigned_cases h⟩

theorem forall_of_isDigits (h : isDigits text = true) :
    text ≠ [] ∧ ∀ c ∈ text, isNumberChar c = true := by
  simp only [isDigits, Bool.and_eq_true, Bool.not_eq_true', List.isEmpty_eq_false_iff,
    List.all_eq_true] at h
  exact ⟨h.1, fun c hc => by simp [isNumberChar, h.2 c hc]⟩

/-- A number is not empty and consists of digits, a minus sign and a point. -/
theorem forall_isNumberChar (h : isNumber text = true) :
    text ≠ [] ∧ ∀ c ∈ text, isNumberChar c = true := by
  obtain ⟨unsigned, htext, hdigits⟩ := isNumber_cases h
  have hunsigned : unsigned ≠ [] ∧ ∀ c ∈ unsigned, isNumberChar c = true := by
    rcases hdigits with hdigits | ⟨before, after, rfl, hbefore, hafter⟩
    · exact forall_of_isDigits hdigits
    · refine ⟨by simp, List.forall_mem_append.2 ⟨(forall_of_isDigits hbefore).2, ?_⟩⟩
      exact List.forall_mem_cons.2 ⟨rfl, (forall_of_isDigits hafter).2⟩
  rcases htext with rfl | rfl
  · exact hunsigned
  · exact ⟨List.cons_ne_nil _ _, List.forall_mem_cons.2 ⟨rfl, hunsigned.2⟩⟩

theorem IsPiece.of_isNumber (h : isNumber text = true) : IsPiece text := by
  obtain ⟨hnonempty, hall⟩ := forall_isNumberChar h
  refine IsPiece.of_class (fun c hc => ?_) (by decide) hnonempty hall
  simp only [isNumberChar, Bool.or_eq_true, beq_iff_eq] at hc
  rcases hc with (hdigit | rfl) | rfl
  · exact Text.isBlank_of_isDecimalDigit hdigit
  all_goals decide

/-! ## Reading one literal -/

/-- How a text is read as a value. -/
theorem read_eq (text : Text) : Value.read text =
    match quoted? '"' (Text.trim text) with
    | some body => .str (fillInterpolations (unescape body))
    | none =>
      match quoted? '\'' (Text.trim text) with
      | some body => .str (unescape body)
      | none =>
        match symbol? (Text.trim text) with
        | some name => .sym name
        | none =>
          match braced? (Text.trim text) with
          | some body => .hash (readEntries body)
          | none =>
            if isNumber (Text.trim text) then .str (Text.trim text)
            else if Text.trim text = "true" then .bool true
            else if Text.trim text = "false" then .bool false
            else if Text.trim text = "nil" then .nil
            else .dynamic (Text.trim text) := by
  rw [Value.read]
  split
  · simp only [*]
  · split
    · simp only [*]
    · split
      · simp only [*]
      · split
        · rename_i body _
          simp only [*]
          rw [readEntries]
          rw [← List.attach_map_subtype_val (pieces ',' body), List.filterMap_map,
            List.attach_map_subtype_val]
          congr 3
          funext piece
          rw [Function.comp_apply]
          split <;> simp only [*, Option.map_some, Option.map_none]
        · simp only [*]

/-- A string in double quotes is what it says, with its expressions filled in. -/
theorem read_quote (text : Text) : Value.read (quote '"' text) = .str (fillInterpolations text) := by
  have hpiece : IsPiece (quote '"' text) := IsPiece.quote (by decide) text
  have hmark : '"' ≠ '\\' ∧ '"' ≠ '\n' := by decide
  rw [read_eq, hpiece.trimmed.trim_eq, quoted?_quote hmark.1]
  simp only [unescape_escape hmark.2]

theorem read_symbol {name : Text} (h : symbol? (':' :: name) = some name)
    (htrimmed : Text.IsTrimmed (':' :: name)) : Value.read (':' :: name) = .sym name := by
  rw [read_eq, htrimmed.trim_eq, quoted?_of_head (by decide), quoted?_of_head (by decide), h]

theorem read_number (h : isNumber text = true) : Value.read text = .str text := by
  obtain ⟨hnonempty, hall⟩ := forall_isNumberChar h
  obtain ⟨c, s, rfl⟩ := List.exists_cons_of_ne_nil hnonempty
  have hc := hall c List.mem_cons_self
  have hne : c ≠ '"' ∧ c ≠ '\'' ∧ c ≠ ':' ∧ c ≠ '\x7b' := by
    refine ⟨?_, ?_, ?_, ?_⟩ <;> (rintro rfl; revert hc; decide)
  have hsymbol : symbol? (c :: s) = none := by simp [symbol?, hne]
  have hbraced : braced? (c :: s) = none := by simp [braced?, hne]
  rw [read_eq, (IsPiece.of_isNumber h).trimmed.trim_eq, quoted?_of_head hne.1, quoted?_of_head hne.2.1,
    hsymbol, hbraced]
  exact if_pos h

/-- A text in braces is read as a hash. -/
theorem read_braces (body : Text) :
    Value.read ('\x7b' :: (body ++ ['\x7d'])) = .hash (readEntries body) := by
  have htrimmed : Text.IsTrimmed ('\x7b' :: (body ++ ['\x7d'])) :=
    Text.IsTrimmed.around (s := ['\x7b']) (t := ['\x7d']) (by decide) (by decide) (by decide)
      (by decide) body
  have hbraced : braced? ('\x7b' :: (body ++ ['\x7d'])) = some body := by simp [braced?]
  rw [read_eq, htrimmed.trim_eq, quoted?_of_head (by decide), quoted?_of_head (by decide), hbraced]
  rfl

/-! ## Atoms -/

/-- The name of a symbol is a word, or a word and the mark after it. -/
theorem exists_word_of_isWritable {name : Text} (h : (Atom.sym name).IsWritable) :
    ∃ word, IsKey word ∧ (name = word ∨ name = word ++ ['?'] ∨ name = word ++ ['!']) := by
  rcases h with hword | ⟨mark, hmark, hlast, hword⟩
  · exact ⟨name, hword, .inl rfl⟩
  · obtain ⟨word, rfl⟩ := List.getLast?_eq_some_iff.1 hlast
    rw [List.dropLast_concat] at hword
    simp only [List.mem_cons, List.not_mem_nil, or_false] at hmark
    exact ⟨word, hword, .inr (hmark.imp (fun h => by rw [h]) fun h => by rw [h])⟩

/-- The name of a symbol is read to its end. -/
theorem symbol?_of_isWritable {name : Text} (h : (Atom.sym name).IsWritable) :
    symbol? (':' :: name) = some name := by
  obtain ⟨word, hword, rfl | rfl | rfl⟩ := exists_word_of_isWritable h
  · rw [symbol?, identifier?_word hword]
  · rw [symbol?, identifier?_append hword (by decide)]
    rfl
  · rw [symbol?, identifier?_append hword (by decide)]
    rfl

theorem isSymbolChar_of_isWritable {name : Text} (h : (Atom.sym name).IsWritable) :
    ∀ c ∈ name, isSymbolChar c = true := by
  obtain ⟨word, hword, hname⟩ := exists_word_of_isWritable h
  have hchars : ∀ c ∈ word, isSymbolChar c = true := fun c hc => by
    simp [isSymbolChar, hword.isWordChar c hc]
  rcases hname with rfl | rfl | rfl
  · exact hchars
  · exact List.forall_mem_append.2 ⟨hchars, by decide⟩
  · exact List.forall_mem_append.2 ⟨hchars, by decide⟩

/-- A written atom is a piece of its own. -/
theorem Atom.isPiece_print {atom : Atom} (h : atom.IsWritable) : IsPiece atom.print := by
  cases atom with
  | nil => exact IsPiece.of_symbolChars (by decide) (by decide)
  | bool holds => cases holds <;> exact IsPiece.of_symbolChars (by decide) (by decide)
  | str text => exact IsPiece.quote (by decide) text
  | number digits => exact IsPiece.of_isNumber h
  | sym name =>
    exact IsPiece.of_symbolChars (List.cons_ne_nil _ _)
      (List.forall_mem_cons.2 ⟨rfl, isSymbolChar_of_isWritable h⟩)

/-- A written atom is read as its value. -/
theorem Atom.read_print {atom : Atom} (h : atom.IsWritable) : Value.read atom.print = atom.value := by
  cases atom with
  | nil => rw [read_eq]; rfl
  | bool holds => cases holds <;> (rw [read_eq]; rfl)
  | str text => exact (read_quote text).trans (congrArg Value.str (fillInterpolations_eq_self h))
  | number digits => exact read_number h
  | sym name => exact read_symbol (symbol?_of_isWritable h) (Atom.isPiece_print h).trimmed

/-! ## Entries -/

/-- An entry that was written is read as its key and the text of its value. -/
theorem keyed?_entry {key : Text} (hkey : IsKey key) (htrimmed : Text.IsTrimmed text) :
    keyed? (key ++ ':' :: ' ' :: text) = some (key, text) := by
  have hstart : Text.trimStart (' ' :: text) = text := by
    rw [Text.trimStart, List.dropWhile_cons_of_pos (by decide)]
    cases text with
    | nil => rfl
    | cons c s => exact List.dropWhile_cons_of_neg (by simp [htrimmed.1 c rfl])
  have hlabel : keyedByLabel? (key ++ ':' :: ' ' :: text) = some (key, text) := by
    have hcolon : ∀ c ∈ (':' :: ' ' :: text).head?, Text.isWordChar c = false := by
      rintro c ⟨⟩
      decide
    rw [keyedByLabel?, identifier?_append hkey hcolon]
    simp [hstart]
  rw [keyed?, hlabel, Option.some_or]

/-- An entry is a piece of its own when its value is one. -/
theorem IsPiece.entry {key : Text} (hkey : IsKey key) (h : IsPiece text) :
    IsPiece (key ++ ':' :: ' ' :: text) := by
  have hword : IsPiece key := IsPiece.of_symbolChars hkey.ne_nil fun c hc => by
    simp [isSymbolChar, hkey.isWordChar c hc]
  have hcolon : StaysWhole ',' 0 [':', ' '] := StaysWhole.of_plain (by decide)
  have hcolon' : StaysInside [':', ' '] := StaysInside.of_forall (by decide)
  exact ⟨hword.whole.append (hcolon.append h.whole), hword.inside.append (hcolon'.append h.inside),
    hword.trimmed.around h.trimmed hword.nonempty h.nonempty [':', ' '], by simp⟩

/-! ## Hashes -/

/-- Braces around pieces make a piece. -/
theorem IsPiece.hash {texts : List Text} (h : ∀ text ∈ texts, IsPiece text) :
    IsPiece ('\x7b' :: ' ' :: (Text.join ", " texts ++ [' ', '\x7d'])) := by
  have hwritten : '\x7b' :: ' ' :: (Text.join ", " texts ++ [' ', '\x7d']) =
      '\x7b' :: (([' '] ++ (Text.join ", " texts ++ [' '])) ++ ['\x7d']) := by simp
  have hspace : StaysWhole ',' 1 [' '] := StaysWhole.plain (by decide)
  have hwhole := hspace.append ((StaysWhole.join fun text htext =>
    (h text htext).whole.mono (Nat.zero_le 1)).append hspace)
  have hopens : StaysInside ['\x7b', ' '] := StaysInside.of_forall (by decide)
  have hcloses : StaysInside [' ', '\x7d'] := StaysInside.of_forall (by decide)
  have hinside := hopens.append
    ((StaysInside.join fun text htext => (h text htext).inside).append hcloses)
  refine ⟨hwritten ▸ hwhole.braces, hinside, ?_, List.cons_ne_nil _ _⟩
  rw [hwritten]
  exact Text.IsTrimmed.around (s := ['\x7b']) (t := ['\x7d']) (by decide) (by decide) (by decide)
    (by decide) ([' '] ++ (Text.join ", " texts ++ [' ']))

mutual

/-- A written literal is a piece of its own. -/
theorem Literal.isPiece_print : ∀ {literal : Literal}, literal.IsWritable → IsPiece literal.print
  | .atom _, h => Atom.isPiece_print h
  | .hash _, h => IsPiece.hash (isPiece_of_mem_printEntries h.2)

/-- Written entries are pieces of their own. -/
theorem isPiece_of_mem_printEntries : ∀ {entries : List (Text × Literal)}, AllWritable entries →
    ∀ text ∈ printEntries entries, IsPiece text
  | [], _ => fun text htext => by cases htext
  | (_, _) :: _, h => List.forall_mem_cons.2
    ⟨IsPiece.entry h.1 (Literal.isPiece_print h.2.1), isPiece_of_mem_printEntries h.2.2⟩

end

theorem pieces_join_of_isPiece {texts : List Text} (h : ∀ text ∈ texts, IsPiece text)
    {before after : Text} (hbefore : ∀ c ∈ before, Text.isBlank c = true)
    (hafter : ∀ c ∈ after, Text.isBlank c = true) :
    pieces ',' (before ++ (Text.join ", " texts ++ after)) = texts :=
  pieces_join (fun text htext => (h text htext).whole.standsAlone) (fun text htext => (h text htext).trimmed)
    (fun text htext => (h text htext).nonempty) hbefore hafter

/-- The keys of entries stay what they are. -/
theorem map_fst_entryValues (entries : List (Text × Literal)) :
    (entryValues entries).map Prod.fst = entries.map Prod.fst := by
  induction entries with
  | nil => rfl
  | cons entry entries ih => rw [entryValues, List.map_cons, List.map_cons, ih]

mutual

/-- A written literal is read as its value. -/
theorem Literal.read_print : ∀ {literal : Literal}, literal.IsWritable →
    Value.read literal.print = literal.value
  | .atom _, h => Atom.read_print h
  | .hash entries, h => by
    have hspace : ∀ c ∈ [' '], Text.isBlank c = true := by decide
    have hpieces := pieces_join_of_isPiece (isPiece_of_mem_printEntries h.2) hspace hspace
    have hbody : (Literal.hash entries).print =
        '\x7b' :: (([' '] ++ (Text.join ", " (printEntries entries) ++ [' '])) ++ ['\x7d']) := by
      simp [Literal.print]
    rw [hbody, read_braces, readEntries, hpieces, filterMap_printEntries h.2,
      Pairs.ofEntries_eq_self (by rw [map_fst_entryValues]; exact h.1), Literal.value]

/-- Written entries are read as their keys and values. -/
theorem filterMap_printEntries : ∀ {entries : List (Text × Literal)}, AllWritable entries →
    (printEntries entries).filterMap
      (fun piece => (keyed? piece).map fun entry => (entry.1, Value.read entry.2)) = entryValues entries
  | [], _ => rfl
  | (_, _) :: _, h => by
    rw [printEntries, List.filterMap_cons, keyed?_entry h.1 (Literal.isPiece_print h.2.1).trimmed,
      entryValues, ← filterMap_printEntries h.2.2, ← Literal.read_print h.2.1]
    rfl

end

end Helper

end TemplateAudit
