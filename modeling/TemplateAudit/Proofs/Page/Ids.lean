import Mathlib.Data.List.Forall2
import TemplateAudit.Page.Scan
import TemplateAudit.Proofs.Locate.Counted

/-!
# Repeated ids on a page

`idNodes` lists the elements of a page that have an id, in the order of the page, each with those in front
of it in its own file and on the page.  The scan for repeated ids reports exactly the elements whose id has
been met on the page before, in that order, with the number of elements that have the id and the number of
those in front in the same file (`scanDuplicateIds_reports`).  For a page of a single file this is what the
rule says about the document by itself.
-/

namespace TemplateAudit

namespace Page

open Rule (Origin describe)
open Rule.DuplicateIds (comparable? comparableIds withId duplicate)

variable {member : Member} {members : List Member} {textLimit : Nat} {place : Html.Place} {value : Text}

/-! ## The elements with an id -/

/-- The elements of a file that have an id. -/
def idPlaces (member : Member) : List Html.Place :=
  Css.select withId member.document

/-- An element of a page that has an id, with those in front of it. -/
structure IdNode where
  member : Member
  place : Html.Place
  /-- The elements with an id in front of it in its own file. -/
  inMember : List Html.Place
  /-- The elements with an id in front of it on the page. -/
  onPage : List Html.Place

/-- The elements with an id of a file behind some others. -/
def idNodesBehind (front : List Member) (member : Member) : List IdNode :=
  (Pairs.withFront (idPlaces member)).map fun entry =>
    ⟨member, entry.2, entry.1, front.flatMap idPlaces ++ entry.1⟩

/-- The elements with an id of a page, in order. -/
def idNodes (members : List Member) : List IdNode :=
  (Pairs.withFront members).flatMap fun entry => idNodesBehind entry.1 entry.2

/-- How many of some elements have an id that can be compared. -/
def countId (value : Text) (places : List Html.Place) : Nat :=
  places.countP fun place => comparable? place = some value

/-- Can the id of an element be compared, and is it that of one in front of it on the page? -/
def IdNode.isRepeat (node : IdNode) : Bool :=
  (comparable? node.place).any fun value =>
    node.onPage.any fun place => comparable? place = some value

/-- What is reported about an element of a page with an id that has been met before. -/
structure IdNode.Reported (textLimit : Nat) (page : List Html.Place) (node : IdNode) (value : Text)
    (finding : Finding) : Prop where
  ruleId : finding.ruleId = "duplicate_ids"
  message : finding.message = "Duplicate ID '" ++ value ++ "' found"
  severity : finding.severity = .error
  element : finding.element = describe node.place textLimit
    [("occurrences", .int (countId value page)), ("occurrence", .int (countId value node.inMember))]
  file : finding.file = some node.member.path.toText
  line : finding.line = (Locate.findLine? node.member.source finding.element
    (countId value node.inMember)).map Int.ofNat
  pageLevel : finding.pageLevel = true

/-! ## Elements with ids that can be compared -/

/-- An id can be compared when it is not blank and holds no placeholder. -/
theorem comparable?_eq_some : comparable? place = some value ↔
    place.attr? "id" = some value ∧ Text.saysNothing value = false ∧
      Text.occursIn Helper.placeholder value = false := by
  rw [comparable?]
  cases place.attr? "id" with
  | none => simp
  | some written =>
    by_cases hskip : (Text.saysNothing written || Text.occursIn Helper.placeholder written) = true
    · simp only [if_pos hskip, Option.some.injEq, reduceCtorEq, false_iff]
      rintro ⟨rfl, hspoken, hknown⟩
      rw [hspoken, hknown] at hskip
      cases hskip
    · simp only [if_neg hskip, Option.some.injEq]
      refine ⟨?_, And.left⟩
      rintro rfl
      simpa using hskip

/-- The elements among some of a file whose ids can be compared. -/
def identify (member : Member) (places : List Html.Place) : List Identified :=
  places.filterMap fun place => (comparable? place).map (⟨member, place, ·⟩)

theorem identifiedIn_eq (member : Member) : identifiedIn member = identify member (idPlaces member) := by
  rw [identifiedIn, comparableIds, identify, List.map_filterMap]
  simp only [Option.map_map]
  rfl

theorem identify_append (member : Member) (places places' : List Html.Place) :
    identify member (places ++ places') = identify member places ++ identify member places' :=
  List.filterMap_append

theorem countId_append (value : Text) (places places' : List Html.Place) :
    countId value (places ++ places') = countId value places + countId value places' :=
  List.countP_append

/-- What only asks for the id of an element counts as many elements as have the id. -/
theorem countP_identify {asks : Identified → Bool}
    (h : ∀ place value', asks ⟨member, place, value'⟩ = decide (value' = value))
    (places : List Html.Place) : (identify member places).countP asks = countId value places := by
  induction places with
  | nil => rfl
  | cons place places ih =>
    rw [countId, List.countP_cons, ← countId, ← ih, identify, List.filterMap_cons]
    cases hid : comparable? place with
    | none => simp [identify]
    | some value' => simp [identify, h, List.countP_cons]

theorem countP_members (value : Text) (members : List Member) :
    (members.flatMap identifiedIn).countP (fun entry => entry.value = value) =
      countId value (members.flatMap idPlaces) := by
  induction members with
  | nil => rfl
  | cons member members ih =>
    rw [List.flatMap_cons, List.flatMap_cons, List.countP_append, ih, identifiedIn_eq,
      countP_identify fun _ _ => rfl, countId_append]

/-! ## Numbers in the file and on the page -/

/-- The index of its file and its id. -/
def Identified.inFile (entry : Identified) : Nat × Text :=
  (entry.member.index, entry.value)

/-- Elements with their numbers in their files and on the page. -/
def numberedTwice (entries : List Identified) : List ((Identified × Nat) × Nat) :=
  Pairs.numbered (fun entry => entry.1.value) (Pairs.numbered Identified.inFile entries)

theorem numberedTwice_concat (entries : List Identified) (entry : Identified) :
    numberedTwice (entries ++ [entry]) =
      numberedTwice entries ++ [((entry, entries.countP fun other => other.inFile = entry.inFile),
        entries.countP fun other => other.value = entry.value)] := by
  have hvalues : (Pairs.numbered Identified.inFile entries).countP
      (fun other => other.1.value = entry.value) = entries.countP fun other => other.value = entry.value := by
    conv_rhs => rw [← Pairs.map_fst_numbered Identified.inFile entries, List.countP_map]
    rfl
  rw [numberedTwice, Pairs.numbered_concat, Pairs.numbered_concat, hvalues]
  rfl

/-- An element of the page, if its id can be compared, with its numbers. -/
def IdNode.numbered? (node : IdNode) : Option ((Identified × Nat) × Nat) :=
  (comparable? node.place).map fun value =>
    ((⟨node.member, node.place, value⟩, countId value node.inMember), countId value node.onPage)

/-- The elements of one more file are numbered from the start in the file, and go on on the page. -/
theorem numberedTwice_identify {front : List Member} (hnew : ∀ other ∈ front, other.index ≠ member.index)
    (places : List Html.Place) :
    numberedTwice (front.flatMap identifiedIn ++ identify member places) =
      numberedTwice (front.flatMap identifiedIn) ++
        ((Pairs.withFront places).map fun entry =>
          (⟨member, entry.2, entry.1, front.flatMap idPlaces ++ entry.1⟩ : IdNode)).filterMap
            IdNode.numbered? := by
  induction places using List.reverseRecOn with
  | nil => simp [identify]
  | append_singleton places place ih =>
    rw [identify_append, Pairs.withFront_concat, List.map_append, List.filterMap_append,
      ← List.append_assoc (numberedTwice _), ← ih]
    cases hid : comparable? place with
    | none => simp [identify, IdNode.numbered?, hid]
    | some value =>
      have hlast : identify member [place] = [⟨member, place, value⟩] := by simp [identify, hid]
      have hothers : (front.flatMap identifiedIn).countP
          (fun other => other.inFile = (member.index, value)) = 0 := by
        refine List.countP_eq_zero.2 fun entry hentry hkey => ?_
        obtain ⟨other, hother, hentry⟩ := List.mem_flatMap.1 hentry
        obtain ⟨pair, -, rfl⟩ := List.mem_map.1 hentry
        exact hnew other hother (congrArg Prod.fst (of_decide_eq_true hkey))
      have hfile : (identify member places).countP
          (fun other => other.inFile = (member.index, value)) = countId value places :=
        countP_identify (by simp [Identified.inFile]) places
      have hpage : (identify member places).countP (fun other => other.value = value) =
          countId value places := countP_identify (fun _ _ => rfl) places
      have hkey : (⟨member, place, value⟩ : Identified).inFile = (member.index, value) := rfl
      rw [hlast, ← List.append_assoc, numberedTwice_concat, List.countP_append, List.countP_append, hkey,
        hothers, hfile, countP_members, hpage, Nat.zero_add, ← countId_append]
      simp [IdNode.numbered?, hid]

theorem numberedTwice_members (hindexes : (members.map (·.index)).Nodup) :
    numberedTwice (members.flatMap identifiedIn) = (idNodes members).filterMap IdNode.numbered? := by
  induction members using List.reverseRecOn with
  | nil => rfl
  | append_singleton front member ih =>
    rw [List.map_append, List.nodup_append] at hindexes
    obtain ⟨hfront, -, hnew⟩ := hindexes
    have hnodes : idNodes (front ++ [member]) = idNodes front ++ idNodesBehind front member := by
      rw [idNodes, Pairs.withFront_concat, List.flatMap_append, List.flatMap_singleton]
      rfl
    rw [hnodes, List.filterMap_append, ← ih hfront, List.flatMap_append, List.flatMap_singleton,
      identifiedIn_eq]
    exact numberedTwice_identify (fun other hother =>
      hnew other.index (List.mem_map_of_mem hother) member.index (List.mem_singleton_self _)) _

/-! ## The findings -/

theorem scanDuplicateIds_eq (textLimit : Nat) (members : List Member) :
    scanDuplicateIds textLimit members =
      ((numberedTwice (members.flatMap identifiedIn)).filter fun entry => entry.2 ≠ 0).map fun entry =>
        duplicateOnPage textLimit entry.1.1 (countId entry.1.1.value (members.flatMap idPlaces))
          entry.1.2 := by
  have htotal : ∀ value, (Pairs.get? value
      (Pairs.counts ((members.flatMap identifiedIn).map (·.value)))).getD 0 =
        countId value (members.flatMap idPlaces) := fun value => by
    rw [Pairs.getD_counts, List.countP_map, ← countP_members]
    rfl
  rw [scanDuplicateIds]
  simp only [htotal]
  rfl

theorem isRepeat_iff {node : IdNode} (h : comparable? node.place = some value) :
    node.isRepeat = true ↔ countId value node.onPage ≠ 0 := by
  rw [IdNode.isRepeat, h, Option.any_some, countId, Ne, List.countP_eq_zero, List.any_eq_true]
  simp

theorem isRepeat_of_none {node : IdNode} (h : comparable? node.place = none) : node.isRepeat = false := by
  rw [IdNode.isRepeat, h, Option.any_none]

theorem reported_duplicateOnPage (node : IdNode) (page : List Html.Place) (value : Text) :
    node.Reported textLimit page value
      (duplicateOnPage textLimit ⟨node.member, node.place, value⟩ (countId value page)
        (countId value node.inMember)) :=
  ⟨rfl, rfl, rfl, rfl, rfl, rfl, rfl⟩

theorem forall₂_reported (page : List Html.Place) (nodes : List IdNode) :
    List.Forall₂ (fun node finding =>
        ∃ value, comparable? node.place = some value ∧ node.Reported textLimit page value finding)
      (nodes.filter IdNode.isRepeat)
      (((nodes.filterMap IdNode.numbered?).filter fun entry => entry.2 ≠ 0).map fun entry =>
        duplicateOnPage textLimit entry.1.1 (countId entry.1.1.value page) entry.1.2) := by
  induction nodes with
  | nil => exact .nil
  | cons node nodes ih =>
    rw [List.filterMap_cons, IdNode.numbered?]
    cases hid : comparable? node.place with
    | none => rwa [List.filter_cons_of_neg (by rw [isRepeat_of_none hid]; decide)]
    | some value =>
      by_cases hrepeat : node.isRepeat = true
      · have hcount := (isRepeat_iff hid).1 hrepeat
        rw [List.filter_cons_of_pos hrepeat, Option.map_some, List.filter_cons_of_pos (by simpa using hcount)]
        exact .cons ⟨value, hid, reported_duplicateOnPage node page value⟩ ih
      · have hcount := mt (isRepeat_iff hid).2 hrepeat
        rwa [List.filter_cons_of_neg hrepeat, Option.map_some,
          List.filter_cons_of_neg (by simpa using hcount)]

/-! ## A page of one file -/

/-- In a single file an element has the same number in the file and on the page. -/
theorem numberedTwice_oneFile (member : Member) (entries : List (Html.Place × Text)) :
    numberedTwice (entries.map fun entry => ⟨member, entry.1, entry.2⟩) =
      (Pairs.numbered Prod.snd entries).map fun entry =>
        ((⟨member, entry.1.1, entry.1.2⟩, entry.2), entry.2) := by
  induction entries using List.reverseRecOn with
  | nil => rfl
  | append_singleton entries entry ih =>
    rw [List.map_append, List.map_singleton, numberedTwice_concat, ih, Pairs.numbered_concat, List.map_append,
      List.map_singleton, List.countP_map, List.countP_map]
    simp [Identified.inFile, Function.comp_def]

/-- A finding of the rule on a document, as it is made for an element with its number. -/
def documentFinding (document : Html.Document) (origin : Origin) (entry : (Html.Place × Text) × Nat) :
    Finding :=
  duplicate entry.1.1 entry.1.2
    ((Pairs.get? entry.1.2 (Pairs.counts ((comparableIds document).map (·.2)))).getD 0) entry.2 origin

theorem recorded?_documentFinding (document : Html.Document) (origin : Origin)
    (entry : (Html.Place × Text) × Nat) :
    Locate.recorded? (documentFinding document origin entry) = some (.int entry.2) := rfl

/-- What the rule finds in a document is placed by the numbers of the elements. -/
theorem locate_examine (source : Text) (path : Option Text) (document : Html.Document) (origin : Origin) :
    Locate.locate source path (Rule.DuplicateIds.examine document origin) =
      .ok (((Pairs.numbered Prod.snd (comparableIds document)).filter fun entry => entry.2 ≠ 0).map
        fun entry =>
          let finding := documentFinding document origin entry
          finding.located path ((Locate.findLine? source finding.element entry.2).map Int.ofNat)) := by
  have hexamine : Rule.DuplicateIds.examine document origin =
      ((Pairs.numbered Prod.snd (comparableIds document)).filter fun entry => entry.2 ≠ 0).map
        (documentFinding document origin) := rfl
  rw [Locate.locate_eq source path fun finding hfinding =>
    Rule.counts_duplicateIds document origin _ rfl finding hfinding, hexamine, Pairs.withFront_map,
    List.map_map]
  congr 1
  conv_rhs => rw [← Pairs.map_snd_withFront (List.filter _ _), List.map_map]
  refine List.map_congr_left fun entry _ => ?_
  simp only [Function.comp_apply, Locate.placedAfter,
    Locate.occurrenceAfter_of_recorded (recorded?_documentFinding document origin entry.2)]

/-- **Exactly the elements whose id has been met on the page before are reported, in order and each once,
with how often the id occurs on the page and how often in front in the same file.  For a page of one file
these are the findings of the rule on its document, each at its line, as findings about a page.** -/
theorem scanDuplicateIds_reports (hindexes : (members.map (·.index)).Nodup) :
    List.Forall₂ (fun node finding => ∃ value, comparable? node.place = some value ∧
        node.Reported textLimit (members.flatMap idPlaces) value finding)
      ((idNodes members).filter IdNode.isRepeat) (scanDuplicateIds textLimit members) ∧
    ∀ member file url, members = [member] → ∃ located,
      Locate.locate member.source (some member.path.toText)
        (Rule.DuplicateIds.examine member.document ⟨file, url, textLimit⟩) = .ok located ∧
      scanDuplicateIds textLimit members = located.map Finding.ofPage := by
  constructor
  · rw [scanDuplicateIds_eq, numberedTwice_members hindexes]
    exact forall₂_reported _ _
  · rintro member file url rfl
    refine ⟨_, locate_examine _ _ _ _, ?_⟩
    have hentries : [member].flatMap identifiedIn =
        (comparableIds member.document).map fun entry => ⟨member, entry.1, entry.2⟩ :=
      List.flatMap_singleton _ _
    have hscan : scanDuplicateIds textLimit [member] =
        ((numberedTwice ([member].flatMap identifiedIn)).filter fun entry => entry.2 ≠ 0).map fun entry =>
          duplicateOnPage textLimit entry.1.1 ((Pairs.get? entry.1.1.value
            (Pairs.counts (([member].flatMap identifiedIn).map (·.value)))).getD 0) entry.1.2 := rfl
    rw [hscan, hentries, numberedTwice_oneFile, List.filter_map, List.map_map, List.map_map, List.map_map]
    rfl

/-- An element with an id. -/
def withIdNode (value : Text) : Html.Node :=
  .element "p" [("id", value)] []

/-- A layout and a view with elements that share ids, some of which cannot be compared. -/
def sharedIds : List Member :=
  [⟨0, ⟨1, ["layout.html"]⟩, "<p id='x'>\n<p id=' '>", [withIdNode "x", withIdNode " "]⟩,
    ⟨1, ⟨1, ["view.html"]⟩, "<p id='y'>\n<p id='x'>\n<p id=' '>\n<p id='x'>",
      [withIdNode "y", withIdNode "x", withIdNode " ", withIdNode "x"]⟩]

theorem scanDuplicateIds_reports_shared :
    (sharedIds.map (·.index)).Nodup ∧ (scanDuplicateIds 100 sharedIds).length = 2 := by
  have hindexes : (sharedIds.map (·.index)).Nodup := by decide
  refine ⟨hindexes, ?_⟩
  have hreports : List.Forall₂ _ _ (scanDuplicateIds 100 sharedIds) :=
    (scanDuplicateIds_reports hindexes).1
  rw [← hreports.length_eq]
  decide +kernel

end Page

end TemplateAudit
