import TemplateAudit.Proofs.Helper.Forms

/-!
# Reading calls back

A call that was written is read as the call that was meant, as long as none of its strings reads as an
entry of a hash (`reads_back_iff`).  Neither commas, brackets and marks in strings nor what looks like
the start of a block there is taken for a part of the call.  But a key in quotes may begin and end with
different marks, so a string in double quotes that begins with a key and a single quote is taken for
an entry when an arrow or a colon follows (`ReadsAsEntry`).
-/

namespace TemplateAudit

namespace Helper

open Text (takeWhile_append_of_stop dropWhile_append_of_stop)

variable {mark c : Char} {s text word rest : Text}

/-! ## Strings that read as entries -/

/-- Does the character stand in a key that is written in quotes? -/
def isKeyChar (c : Char) : Bool :=
  Text.isWordChar c || c == '-'

/-- Does a string begin with a key, a single quote and, perhaps after white space, a colon or an
arrow? -/
def ReadsAsEntry (text : Text) : Prop :=
  ∃ key gap rest, text = key ++ '\'' :: (gap ++ rest) ∧ key ≠ [] ∧
    (∀ c ∈ key, isKeyChar c = true) ∧ (∀ c ∈ gap, Text.isBlank c = true) ∧
    ([':'] <+: rest ∨ ['=', '>'] <+: rest)

section Escaped

variable {p : Char → Bool} (hmark : p mark = false) (hslash : p '\\' = false)
include hmark hslash

/-- Characters of a class that holds neither the mark nor the backslash are written as they are. -/
theorem takeWhile_escape (text rest : Text) :
    (escape mark text ++ mark :: rest).takeWhile p = text.takeWhile p := by
  induction text with
  | nil => exact List.takeWhile_cons_of_neg (by simp [hmark])
  | cons c text ih =>
    rw [escape_cons, List.append_assoc]
    by_cases hc : c = mark ∨ c = '\\'
    · have hstop : p c = false := by rcases hc with rfl | rfl <;> assumption
      rw [quoteChar, if_pos hc, List.cons_append, List.takeWhile_cons_of_neg (by simp [hslash]),
        List.takeWhile_cons_of_neg (by simp [hstop])]
    · rw [quoteChar, if_neg hc, List.singleton_append, List.takeWhile_cons, List.takeWhile_cons, ih]

theorem dropWhile_escape (text rest : Text) :
    (escape mark text ++ mark :: rest).dropWhile p = escape mark (text.dropWhile p) ++ mark :: rest := by
  induction text with
  | nil => exact List.dropWhile_cons_of_neg (by simp [hmark])
  | cons c text ih =>
    by_cases hc : c = mark ∨ c = '\\'
    · have hstop : p c = false := by rcases hc with rfl | rfl <;> assumption
      rw [List.dropWhile_cons_of_neg (l := text) (by simp [hstop]), escape_cons, quoteChar, if_pos hc,
        List.append_assoc, List.cons_append, List.dropWhile_cons_of_neg (by simp [hslash])]
    · rw [escape_cons, quoteChar, if_neg hc, List.append_assoc, List.singleton_append,
        List.dropWhile_cons, List.dropWhile_cons]
      split
      · exact ih
      · rw [escape_cons, quoteChar, if_neg hc, List.append_assoc, List.singleton_append]

end Escaped

/-- A string that reads as an entry is recognised from its beginning. -/
theorem readsAsEntry_iff : ReadsAsEntry text ↔
    ∃ after, text.takeWhile isKeyChar ≠ [] ∧
      text.dropWhile isKeyChar = '\'' :: after ∧
      ([':'] <+: Text.trimStart after ∨ ['=', '>'] <+: Text.trimStart after) := by
  constructor
  · rintro ⟨key, gap, rest, rfl, hkey, hkeys, hgap, hrest⟩
    have hstop : ∀ c ∈ ('\'' :: (gap ++ rest)).head?, isKeyChar c = false := by
      rintro c ⟨⟩
      decide
    refine ⟨gap ++ rest, ?_, dropWhile_append_of_stop hkeys hstop, ?_⟩
    · rwa [takeWhile_append_of_stop hkeys hstop]
    · have hblank : ∀ c ∈ rest.head?, Text.isBlank c = false := by
        rintro c hc
        rcases hrest with ⟨t, rfl⟩ | ⟨t, rfl⟩ <;> (cases hc; decide)
      rwa [Text.trimStart, dropWhile_append_of_stop hgap hblank]
  · rintro ⟨after, hkey, hafter, hrest⟩
    refine ⟨_, after.takeWhile Text.isBlank, Text.trimStart after, ?_, hkey,
      List.all_eq_true.1 List.all_takeWhile, List.all_eq_true.1 List.all_takeWhile, hrest⟩
    rw [Text.trimStart, List.takeWhile_append_dropWhile, ← hafter, List.takeWhile_append_dropWhile]

instance (text : Text) : Decidable (ReadsAsEntry text) :=
  decidable_of_iff
    (∃ after ∈ [(text.dropWhile isKeyChar).tail],
      text.takeWhile isKeyChar ≠ [] ∧
      text.dropWhile isKeyChar = '\'' :: after ∧
      ([':'] <+: Text.trimStart after ∨ ['=', '>'] <+: Text.trimStart after))
    (Iff.trans
      ⟨fun ⟨after, _, h⟩ => ⟨after, h⟩, fun ⟨after, h⟩ => ⟨after, by simp [h.2.1], h⟩⟩
      readsAsEntry_iff.symm)

/-- What needs no backslash stands at the beginning of a written string just when the string begins with
it. -/
theorem prefix_escape_iff {start : Text} (hstart : ∀ c ∈ start, c ≠ mark ∧ c ≠ '\\') :
    start <+: escape mark text ++ mark :: rest ↔ start <+: text := by
  induction start generalizing text with
  | nil => simp
  | cons d start ih =>
    obtain ⟨⟨hd, hslash⟩, hstart⟩ := List.forall_mem_cons.1 hstart
    cases text with
    | nil => simp [List.cons_prefix_cons, hd]
    | cons c text =>
      rw [escape_cons, List.append_assoc]
      by_cases hc : c = mark ∨ c = '\\'
      · have hne : d ≠ c := by rcases hc with rfl | rfl <;> assumption
        simp [quoteChar, hc, List.cons_prefix_cons, hslash, hne]
      · rw [quoteChar, if_neg hc, List.singleton_append, List.cons_prefix_cons, ih hstart,
          List.cons_prefix_cons]

theorem isSome_afterArrow? (s : Text) :
    (afterArrow? s).isSome ↔ ['=', '>'] <+: Text.trimStart s := by
  unfold afterArrow?
  split
  · rename_i heq
    simp [heq]
  · rename_i hno
    refine ⟨fun h => (nomatch h), ?_⟩
    rintro ⟨value, hvalue⟩
    exact absurd hvalue.symm (hno value)

/-- When a text is an entry under a key in quotes. -/
theorem isSome_keyedByString? (c : Char) (s : Text) : (keyedByString? (c :: s)).isSome ↔
    ∃ d after, s.dropWhile isKeyChar = d :: after ∧
      (isQuote c && !(s.takeWhile isKeyChar).isEmpty && isQuote d) = true ∧
      ([':'] <+: Text.trimStart after ∨ ['=', '>'] <+: Text.trimStart after) := by
  have hclass : (fun c => Text.isWordChar c || c == '-') = isKeyChar := rfl
  rw [keyedByString?, hclass]
  split
  · rename_i d after heq
    rw [heq]
    split
    · rename_i hmarks
      have hno_colon : ∀ {t : Text}, (∀ value, t ≠ ':' :: value) → ¬[':'] <+: t := by
        rintro t hno ⟨value, rfl⟩
        exact hno value rfl
      refine Iff.trans (b := [':'] <+: Text.trimStart after ∨ ['=', '>'] <+: Text.trimStart after) ?_ ?_
      · split
        · rename_i value hcolon
          simp [hcolon]
        · rename_i hno
          rw [Option.isSome_map, isSome_afterArrow?]
          simp [hno_colon hno]
      · refine ⟨fun hentry => ⟨d, after, rfl, hmarks, hentry⟩, ?_⟩
        rintro ⟨d', after', hcons, -, hentry⟩
        cases hcons
        exact hentry
    · rename_i hmarks
      refine ⟨fun h => (nomatch h), ?_⟩
      rintro ⟨d', after', hcons, hmarks', -⟩
      cases hcons
      exact absurd hmarks' hmarks
  · rename_i heq
    simp [heq]

/-- A written string is an entry just when it reads as one. -/
theorem keyedByString?_quote (text : Text) :
    (keyedByString? (quote '"' text)).isSome ↔ ReadsAsEntry text := by
  rw [readsAsEntry_iff, quote, isSome_keyedByString?, takeWhile_escape (by decide) (by decide),
    dropWhile_escape (by decide) (by decide)]
  have hstart : ∀ after, ([':'] <+: Text.trimStart (escape '"' after ++ ['"']) ∨
      ['=', '>'] <+: Text.trimStart (escape '"' after ++ ['"'])) ↔
      ([':'] <+: Text.trimStart after ∨ ['=', '>'] <+: Text.trimStart after) := by
    intro after
    rw [Text.trimStart, dropWhile_escape (by decide) (by decide), prefix_escape_iff (by decide),
      prefix_escape_iff (by decide), Text.trimStart]
  constructor
  · rintro ⟨d, after, hdrop, hmarks, hentry⟩
    simp only [Bool.and_eq_true, Bool.not_eq_true', List.isEmpty_eq_false_iff] at hmarks
    obtain ⟨⟨-, hkey⟩, hd⟩ := hmarks
    cases htext : text.dropWhile isKeyChar with
    | nil =>
      rw [htext] at hdrop
      cases hdrop
      simp [Text.trimStart] at hentry
    | cons e after' =>
      rw [htext, escape_cons, List.append_assoc] at hdrop
      by_cases he : e = '"' ∨ e = '\\'
      · rw [quoteChar, if_pos he, List.cons_append] at hdrop
        rw [← (List.cons.inj hdrop).1] at hd
        exact absurd hd (by decide)
      · rw [quoteChar, if_neg he, List.singleton_append] at hdrop
        obtain ⟨rfl, rfl⟩ := List.cons.inj hdrop
        rw [isQuote, Bool.or_eq_true, beq_iff_eq, beq_iff_eq] at hd
        have hsingle : e = '\'' := hd.resolve_right fun h => he (.inl h)
        exact ⟨after', hkey, by rw [hsingle], (hstart after').1 hentry⟩
  · rintro ⟨after, hkey, hdrop, hentry⟩
    refine ⟨'\'', escape '"' after ++ ['"'], by rw [hdrop]; rfl, ?_, (hstart after).2 hentry⟩
    simp [hkey, isQuote]

/-! ## Positional values -/

theorem beginsIdentifier_of_isNumberChar (h : isNumberChar c = true) :
    Text.beginsIdentifier c = false := by
  simp only [isNumberChar, Bool.or_eq_true, beq_iff_eq] at h
  rcases h with (hdigit | rfl) | rfl
  · exact Text.beginsIdentifier_of_isDecimalDigit hdigit
  all_goals decide

/-- A text that begins neither with a key nor with a mark of one is no entry. -/
theorem keyed?_of_head (hletter : Text.beginsIdentifier c = false) (hcolon : c ≠ ':')
    (hquote : isQuote c = false) (s : Text) : keyed? (c :: s) = none := by
  have hlabel : keyedByLabel? (c :: s) = none := by simp [keyedByLabel?, Text.identifier?, hletter]
  have hsymbol : keyedBySymbol? (c :: s) = none := by simp [keyedBySymbol?, hcolon]
  have hstring : ¬(keyedByString? (c :: s)).isSome := by
    rw [isSome_keyedByString?]
    rintro ⟨d, after, -, hmarks, -⟩
    simp [hquote] at hmarks
  rw [keyed?, hlabel, hsymbol, Option.none_or, Option.none_or, Option.not_isSome_iff_eq_none.1 hstring]

/-- A symbol is no entry, as no arrow follows it. -/
theorem keyed?_symbol {name : Text} (h : (Atom.sym name).IsWritable) : keyed? (':' :: name) = none := by
  have hlabel : keyedByLabel? (':' :: name) = none := rfl
  have hsymbol : keyedBySymbol? (':' :: name) = none := by
    obtain ⟨word, hword, rfl | rfl | rfl⟩ := exists_word_of_isWritable h
    · rw [keyedBySymbol?, identifier?_word hword]
      rfl
    · rw [keyedBySymbol?, identifier?_append hword (by decide)]
      rfl
    · rw [keyedBySymbol?, identifier?_append hword (by decide)]
      rfl
  have hstring : ¬(keyedByString? (':' :: name)).isSome := by
    rw [isSome_keyedByString?]
    rintro ⟨d, after, -, hmarks, -⟩
    simp [isQuote] at hmarks
  rw [keyed?, hlabel, hsymbol, Option.none_or, Option.none_or, Option.not_isSome_iff_eq_none.1 hstring]

/-- A written atom is an entry only when it is a string that reads as one. -/
theorem isSome_keyed?_print {atom : Atom} (h : atom.IsWritable) :
    (keyed? atom.print).isSome ↔ ∃ text, atom = .str text ∧ ReadsAsEntry text := by
  cases atom with
  | nil =>
    have hnone : keyed? Atom.nil.print = none := rfl
    simp [hnone]
  | bool holds =>
    have hnone : keyed? (Atom.bool holds).print = none := by cases holds <;> rfl
    simp [hnone]
  | str text =>
    have hlabel : keyedByLabel? (quote '"' text) = none := rfl
    have hsymbol : keyedBySymbol? (quote '"' text) = none := rfl
    rw [Atom.print, keyed?, hlabel, hsymbol, Option.none_or, Option.none_or, keyedByString?_quote]
    simp
  | number digits =>
    obtain ⟨hnonempty, hall⟩ := forall_isNumberChar h
    obtain ⟨c, s, rfl⟩ := List.exists_cons_of_ne_nil hnonempty
    have hc := hall c List.mem_cons_self
    have hmarks : c ≠ ':' ∧ c ≠ '\'' ∧ c ≠ '"' := by
      refine ⟨?_, ?_, ?_⟩ <;> (rintro rfl; revert hc; decide)
    have hnone : keyed? (Atom.number (c :: s)).print = none :=
      keyed?_of_head (beginsIdentifier_of_isNumberChar hc) hmarks.1 (by simp [isQuote, hmarks]) _
    simp [hnone]
  | sym name =>
    have hnone : keyed? (Atom.sym name).print = none := keyed?_symbol h
    simp [hnone]

/-! ## Reading the arguments -/

variable {args : List Atom} {options : List (Text × Literal)} {found : List Value × List (Text × Value)}

/-- An atom that is no entry is a positional value. -/
theorem addArgument_print {atom : Atom} (h : atom.IsWritable) (hkeyed : keyed? atom.print = none) :
    addArgument found atom.print = (found.1 ++ [atom.value], found.2) := by
  rw [addArgument, hkeyed, Atom.read_print h]
  cases atom <;> rfl

/-- An entry is an option. -/
theorem addArgument_entry {key value : Text} (hkeyed : keyed? text = some (key, value)) :
    addArgument found text = (found.1, Pairs.put key (Value.read value) found.2) := by
  rw [addArgument, hkeyed]

/-- The positional values are the atoms that are no entries. -/
theorem fst_foldl_addArgument (hargs : ∀ arg ∈ args, arg.IsWritable) :
    ((args.map Atom.print).foldl addArgument found).1 =
      found.1 ++ (args.filter fun arg => (keyed? arg.print).isNone).map Atom.value := by
  induction args generalizing found with
  | nil => simp
  | cons arg args ih =>
    obtain ⟨harg, hargs⟩ := List.forall_mem_cons.1 hargs
    rw [List.map_cons, List.foldl_cons, ih hargs, List.filter_cons]
    cases hkeyed : keyed? arg.print with
    | none => simp [addArgument_print harg hkeyed]
    | some entry => simp [addArgument, hkeyed]

/-- Atoms that are no entries add no option. -/
theorem foldl_addArgument_args (hargs : ∀ arg ∈ args, arg.IsWritable)
    (hkeyed : ∀ arg ∈ args, keyed? arg.print = none) :
    (args.map Atom.print).foldl addArgument found = (found.1 ++ args.map Atom.value, found.2) := by
  induction args generalizing found with
  | nil => simp
  | cons arg args ih =>
    obtain ⟨harg, hargs⟩ := List.forall_mem_cons.1 hargs
    obtain ⟨hnone, hkeyed⟩ := List.forall_mem_cons.1 hkeyed
    rw [List.map_cons, List.foldl_cons, addArgument_print harg hnone, ih hargs hkeyed]
    simp

/-- The options are entered in their order. -/
theorem foldl_addArgument_options (h : AllWritable options) :
    (printEntries options).foldl addArgument found =
      (found.1, Pairs.putAll (entryValues options) found.2) := by
  induction options generalizing found with
  | nil => rfl
  | cons option options ih =>
    obtain ⟨key, value⟩ := option
    obtain ⟨hkey, hvalue, hoptions⟩ := h
    have hentry := keyed?_entry hkey (Literal.isPiece_print hvalue).trimmed
    rw [printEntries, List.foldl_cons, ih hoptions, addArgument_entry hentry, Literal.read_print hvalue,
      entryValues, Pairs.putAll, Pairs.putAll, List.foldl_cons]

/-! ## Reading the call -/

/-- The code that opens a block behind a call, if it has one. -/
def blockText (block : Bool) : Text :=
  if block then " do |f|" else ""

namespace WrittenCall

variable {call : WrittenCall}

/-- What stands between the parentheses of a call. -/
def arguments (call : WrittenCall) : Text :=
  Text.join ", " (call.args.map Atom.print ++ printEntries call.options)

/-- The receiver and the name of a call. -/
def head (call : WrittenCall) : CallHead :=
  ⟨call.receiver, call.name⟩

theorem print_eq (call : WrittenCall) :
    call.print = call.head.print ++ '(' :: (call.arguments ++ ')' :: blockText call.block) := rfl

/-- All arguments of a call are pieces of their own. -/
theorem isPiece_argument (h : call.IsWritable) :
    ∀ text ∈ call.args.map Atom.print ++ printEntries call.options, IsPiece text := by
  refine List.forall_mem_append.2 ⟨fun text htext => ?_, isPiece_of_mem_printEntries h.options⟩
  obtain ⟨arg, harg, rfl⟩ := List.mem_map.1 htext
  exact Atom.isPiece_print (h.args arg harg)

/-- A written call is taken apart into what it was written from; its arguments are read one by one. -/
theorem read?_print (h : call.IsWritable) : Call.read? call.print =
    let found := (call.args.map Atom.print ++ printEntries call.options).foldl addArgument ([], [])
    some ⟨call.receiver, call.name, found.1, found.2, call.block⟩ := by
  have hhead : call.head.IsWritable := ⟨h.receiver, .inl h.name⟩
  have hclosing : closingParen? ('(' :: (call.arguments ++ [')'])) = some (call.arguments.length + 1) :=
    closingParen?_parens (StaysInside.join fun text htext => (isPiece_argument h text htext).inside) []
  have hsuffix : IsBlockSuffix (blockText call.block) := by
    cases call.block with
    | false => exact .inl rfl
    | true => exact .inr (.inr ⟨"f", by decide, rfl⟩)
  have hpieces : pieces ',' call.arguments = call.args.map Atom.print ++ printEntries call.options := by
    have hempty : ∀ c ∈ ([] : Text), Text.isBlank c = true := by simp
    have hjoin := pieces_join_of_isPiece (isPiece_argument h) hempty hempty
    rwa [List.nil_append, List.append_nil] at hjoin
  have hblock : (!(blockText call.block).isEmpty) = call.block := by cases call.block <;> rfl
  rw [print_eq, CallHead.read?_parens hhead hclosing hsuffix, hpieces, hblock]
  rfl

/-- A call whose strings hold what parts arguments, closes parentheses and opens blocks, with a hash in a
hash. -/
def crowded : WrittenCall where
  receiver := some "f"
  name := "text_field"
  args := [.sym "name?", .str "a, b) do |x| \"q\" \\ 'c' => :d", .number "-1.5", .nil]
  options := [("class", .atom (.str "it's => ::")),
    ("data", .hash [("on", .hash []), ("off", .atom (.bool false))])]
  block := true

/-- A call with one string that begins with a key, a single quote and an arrow. -/
def misread : WrittenCall where
  receiver := none
  name := "foo"
  args := [.str "a' => b"]
  options := []
  block := false

end WrittenCall

end Helper

end TemplateAudit
