import Mathlib.Data.Prod.Lex
import TemplateAudit.Proofs.Locate.Signs
import TemplateAudit.Proofs.Scan.Success

/-!
# The findings on a page in order

Every finding on a page as a whole is placed in one of its files: in the one its element stands in, at a line that
shows the element (`IsPlacedIn`).  The findings of the active rules come in the order of the files and of the lines
in them, and those at one line in the order of the rules (`IsOrderedReport`).  A page has such a report just when
all of its files have documents (`checkPage_orders_findings`).
-/

namespace TemplateAudit

open Outcome

namespace Page

open Locate (IsLine)
open Rule (describe describePage)

variable {config : RuleConfig} {textLimit : Nat} {page : Composition} {member : Member} {members : List Member}
  {finding : Finding} {entry : Option Path}

/-! ## Placed findings -/

/-- A line that an element is given shows its tag, or the call of a helper that writes it. -/
theorem exists_isLine_of_findLine? {source : Text} {element : ElementInfo} {n : Int} {k : Nat}
    (h : Locate.findLine? source element n = some k) : ∃ line, IsLine source k line ∧
      (Locate.TagOpens element.tag line ∨ Locate.HelperStands element.tag line) := by
  obtain ⟨-, -, sign, -, line, hline, hshows⟩ :=
    Locate.mem_candidateLines.1 (Locate.exists_nearest?_eq_some_iff.1 ⟨n, h⟩)
  exact ⟨line, hline, hshows.stands⟩

/-- A finding on a page is placed in a file: its element stands there, and its line, if there is one, is a line of
this file that shows the element. -/
structure IsPlacedIn (textLimit : Nat) (member : Member) (finding : Finding) : Prop where
  pageLevel : finding.pageLevel = true
  file : finding.file = some member.path.toText
  element : (∃ text, finding.element = describePage text) ∨
    ∃ place ∈ Html.places member.document, ∃ details, finding.element = describe place textLimit details
  line : ∀ line ∈ finding.line, ∃ number text, line = Int.ofNat number ∧ IsLine member.source number text ∧
    (Locate.TagOpens finding.element.tag text ∨ Locate.HelperStands finding.element.tag text)

theorem isPlacedIn_placed {place : Html.Place} (hplace : place ∈ Html.places member.document)
    {details : List (Text × Json)} (helement : finding.element = describe place textLimit details) (occurrence : Nat) :
    IsPlacedIn textLimit member (member.placed occurrence finding) where
  pageLevel := rfl
  file := rfl
  element := .inr ⟨place, hplace, details, helement⟩
  line := by
    intro line hline
    obtain ⟨number, hnumber, rfl⟩ := Option.map_eq_some_iff.1 hline
    obtain ⟨text, htext, hstands⟩ := exists_isLine_of_findLine? hnumber
    exact ⟨number, text, rfl, htext, hstands⟩

theorem isPlacedIn_of_mem_scanHeadings (h : finding ∈ scanHeadings textLimit members) :
    ∃ member ∈ members, IsPlacedIn textLimit member finding := by
  obtain ⟨found, hfound, rfl⟩ := List.mem_map.1 h
  obtain ⟨hheading, hdescribes⟩ := Rule.Headings.mem_of_mem_analyse hfound
  obtain ⟨member, hmember, hheading⟩ := List.mem_flatMap.1 hheading
  obtain ⟨numbered, hnumbered, hat⟩ := List.mem_map.1 hheading
  have hplace : numbered.1 ∈ Css.select Rule.headings member.document := by
    rw [← Pairs.map_fst_numbered looksOf (Css.select Rule.headings member.document)]
    exact List.mem_map_of_mem hnumbered
  rw [Rule.Headings.Describes, ← hat] at hdescribes
  rw [← hat]
  exact ⟨member, hmember, isPlacedIn_placed (List.mem_of_mem_filter hplace) hdescribes _⟩

theorem isPlacedIn_of_mem_scanDuplicateIds (h : finding ∈ scanDuplicateIds textLimit members) :
    ∃ member ∈ members, IsPlacedIn textLimit member finding := by
  obtain ⟨⟨⟨entry, occurrence⟩, number⟩, hnumbered, rfl⟩ := List.mem_map.1 h
  have hentry : entry ∈ members.flatMap identifiedIn := by
    rw [← Pairs.map_fst_numbered (fun entry => (entry.member.index, entry.value)) (members.flatMap identifiedIn)]
    refine List.mem_map.2 ⟨(entry, occurrence), ?_, rfl⟩
    rw [← Pairs.map_fst_numbered (fun entry => entry.1.value) (Pairs.numbered _ (members.flatMap identifiedIn))]
    exact List.mem_map.2 ⟨_, List.mem_of_mem_filter hnumbered, rfl⟩
  obtain ⟨member, hmember, hentry⟩ := List.mem_flatMap.1 hentry
  obtain ⟨⟨place, value⟩, hcomparable, rfl⟩ := List.mem_map.1 hentry
  obtain ⟨place', hplace, hvalue⟩ := List.mem_filterMap.1 hcomparable
  obtain ⟨_, -, hpair⟩ := Option.map_eq_some_iff.1 hvalue
  obtain rfl : place' = place := congrArg Prod.fst hpair
  exact ⟨member, hmember, isPlacedIn_placed (List.mem_of_mem_filter hplace) rfl _⟩

theorem isPlacedIn_of_mem_scanLandmarks {path : Path} (hmember : member ∈ members) (hpath : member.path = path)
    (h : finding ∈ scanLandmarks (some path) members) : ∃ member ∈ members, IsPlacedIn textLimit member finding := by
  rw [scanLandmarks] at h
  split at h
  · cases h
  · obtain rfl := List.mem_singleton.1 h
    exact ⟨member, hmember, rfl, by rw [hpath]; rfl, .inl ⟨_, rfl⟩, nofun⟩

theorem isPlacedIn_of_mem_scanSkipLinks (h : finding ∈ scanSkipLinks members) :
    ∃ member ∈ members, IsPlacedIn textLimit member finding := by
  rw [scanSkipLinks] at h
  split at h
  · cases h
  · split at h
    · rename_i member hfound
      obtain rfl := List.mem_singleton.1 h
      exact ⟨member, List.mem_of_find?_eq_some hfound, rfl, rfl, .inl ⟨_, rfl⟩, nofun⟩
    · cases h

/-! ## The rules about pages -/

/-- What each of the rules about whole pages finds on a page, in the order of the rules. -/
def subscans (textLimit : Nat) (entry : Option Path) (members : List Member) : List (Text × List Finding) :=
  [(Rule.Headings.id, scanHeadings textLimit members), (Rule.DuplicateIds.id, scanDuplicateIds textLimit members),
    (Rule.AriaLandmarks.id, scanLandmarks entry members), (Rule.SkipLinks.id, scanSkipLinks members)]

/-- What the active rules about whole pages find on a page, one rule after the other. -/
def foundByActive (config : RuleConfig) (textLimit : Nat) (entry : Option Path) (members : List Member) :
    List Finding :=
  ((subscans textLimit entry members).filter fun rule => isActive config rule.1).flatMap Prod.snd

theorem scanMembers_eq (config : RuleConfig) (textLimit : Nat) (entry : Option Path) (members : List Member) :
    scanMembers config textLimit entry members = foundByActive config textLimit entry members := by
  have hkeep : ∀ (rule : Text × List Finding) rules,
      ((rule :: rules).filter fun rule => isActive config rule.1).flatMap Prod.snd =
        (if isActive config rule.1 then rule.2 else []) ++
          (rules.filter fun rule => isActive config rule.1).flatMap Prod.snd := fun rule rules => by
    rw [List.filter_cons]
    split <;> rfl
  rw [foundByActive, subscans, hkeep, hkeep, hkeep, hkeep, scanMembers, List.append_assoc, List.append_assoc]
  simp only [List.filter_nil, List.flatMap_nil, List.append_nil]

theorem ruleId_of_mem_analyse {α : Type} {headings : List (Rule.Headings.Heading α)} {origin : Rule.Origin}
    {found : Rule.Headings.Heading α × Finding} (h : found ∈ Rule.Headings.analyse headings origin) :
    found.2.ruleId = Rule.Headings.id := by
  -- findings on headings do not change when their rule is set to this one
  have hcarries : Rule.Headings.Carries Rule.Headings.Heading.mark origin origin fun found =>
      ((found.1, { found.2 with ruleId := Rule.Headings.id }) : Rule.Headings.Heading α × Finding) :=
    fun _ _ _ _ _ => rfl
  have hsame := hcarries.analyse_eq headings
  have hmarks : headings.map (Rule.Headings.Heading.remark Rule.Headings.Heading.mark) = headings := List.map_id _
  rw [hmarks] at hsame
  rw [hsame] at h
  obtain ⟨other, -, rfl⟩ := List.mem_map.1 h
  rfl

/-- Every finding names the rule that found it. -/
theorem ruleId_of_mem_subscans {rule : Text × List Finding} (hrule : rule ∈ subscans textLimit entry members)
    (h : finding ∈ rule.2) : finding.ruleId = rule.1 := by
  simp only [subscans, List.mem_cons, List.not_mem_nil, or_false] at hrule
  rcases hrule with rfl | rfl | rfl | rfl
  · obtain ⟨found, hfound, rfl⟩ := List.mem_map.1 h
    exact ruleId_of_mem_analyse hfound
  · obtain ⟨-, -, rfl⟩ := List.mem_map.1 h
    rfl
  · dsimp only at h
    rw [scanLandmarks] at h
    split at h
    · cases h
    · obtain rfl := List.mem_singleton.1 h
      rfl
  · dsimp only at h
    rw [scanSkipLinks] at h
    split at h
    · cases h
    · split at h
      · obtain rfl := List.mem_singleton.1 h
        rfl
      · cases h

/-- A rule has findings among those on a page when it is active and finds something. -/
theorem exists_ruleId_iff {rule : Text × List Finding} (hrule : rule ∈ subscans textLimit entry members) :
    (∃ finding ∈ foundByActive config textLimit entry members, finding.ruleId = rule.1) ↔
      isActive config rule.1 = true ∧ rule.2 ≠ [] := by
  have hnames : ((subscans textLimit entry members).map Prod.fst).Nodup :=
    (by decide : [Rule.Headings.id, Rule.DuplicateIds.id, Rule.AriaLandmarks.id, Rule.SkipLinks.id].Nodup)
  constructor
  · rintro ⟨finding, hfinding, hname⟩
    obtain ⟨other, hother, hfinding⟩ := List.mem_flatMap.1 hfinding
    obtain ⟨hmem, hactive⟩ := List.mem_filter.1 hother
    obtain rfl := List.inj_on_of_nodup_map hnames hmem hrule ((ruleId_of_mem_subscans hmem hfinding).symm.trans hname)
    exact ⟨hactive, List.ne_nil_of_mem hfinding⟩
  · rintro ⟨hactive, hne⟩
    obtain ⟨finding, hfinding⟩ := List.exists_mem_of_ne_nil _ hne
    exact ⟨finding, List.mem_flatMap.2 ⟨rule, List.mem_filter.2 ⟨hrule, hactive⟩, hfinding⟩,
      ruleId_of_mem_subscans hrule hfinding⟩

/-- A file has a main landmark. -/
def HasMain (member : Member) : Prop :=
  Css.exists? Rule.AriaLandmarks.mainLandmarks member.document = true

/-- A file has a skip link. -/
def HasSkipLink (member : Member) : Prop :=
  Css.exists? Rule.SkipLinks.skipLinks member.document = true

/-- A file has a block that pages repeat. -/
def HasRepeatedBlock (member : Member) : Prop :=
  Css.exists? Rule.SkipLinks.repeatedBlocks member.document = true

theorem scanLandmarks_ne_nil_iff : scanLandmarks entry members ≠ [] ↔ ∀ member ∈ members, ¬HasMain member := by
  rw [scanLandmarks]
  by_cases hmain : ∃ member ∈ members, HasMain member
  · rw [if_pos (List.any_eq_true.2 hmain)]
    obtain ⟨member, hmember, hmain⟩ := hmain
    exact iff_of_false (fun hne => hne rfl) fun hnone => hnone member hmember hmain
  · rw [if_neg (mt List.any_eq_true.1 hmain)]
    exact iff_of_true (List.cons_ne_nil _ _) fun member hmember hhas => hmain ⟨member, hmember, hhas⟩

theorem scanSkipLinks_ne_nil_iff : scanSkipLinks members ≠ [] ↔
    (∃ member ∈ members, HasRepeatedBlock member) ∧ ∀ member ∈ members, ¬HasSkipLink member := by
  rw [scanSkipLinks]
  by_cases hskip : ∃ member ∈ members, HasSkipLink member
  · rw [if_pos (List.any_eq_true.2 hskip)]
    obtain ⟨member, hmember, hskip⟩ := hskip
    exact iff_of_false (fun hne => hne rfl) fun h => h.2 member hmember hskip
  · rw [if_neg (mt List.any_eq_true.1 hskip)]
    have hnone : ∀ member ∈ members, ¬HasSkipLink member := fun member hmember hhas => hskip ⟨member, hmember, hhas⟩
    cases hfound : members.find? fun member => Css.exists? Rule.SkipLinks.repeatedBlocks member.document with
    | none =>
      have hblocks : ¬∃ member ∈ members, HasRepeatedBlock member := fun ⟨member, hmember, hblock⟩ =>
        List.find?_eq_none.1 hfound member hmember hblock
      exact iff_of_false (fun hne => hne rfl) fun h => hblocks h.1
    | some member =>
      have hblock := List.find?_some hfound
      exact iff_of_true (List.cons_ne_nil _ _) ⟨⟨member, List.mem_of_find?_eq_some hfound, hblock⟩, hnone⟩

theorem isPlacedIn_of_mem_foundByActive {path : Path} (hpath : path ∈ members.map Member.path)
    (h : finding ∈ foundByActive config textLimit (some path) members) :
    ∃ member ∈ members, IsPlacedIn textLimit member finding := by
  obtain ⟨member, hmember, hpath⟩ := List.mem_map.1 hpath
  obtain ⟨rule, hrule, h⟩ := List.mem_flatMap.1 h
  simp only [subscans, List.mem_filter, List.mem_cons, List.not_mem_nil, or_false] at hrule
  obtain ⟨rfl | rfl | rfl | rfl, -⟩ := hrule
  · exact isPlacedIn_of_mem_scanHeadings h
  · exact isPlacedIn_of_mem_scanDuplicateIds h
  · exact isPlacedIn_of_mem_scanLandmarks hmember hpath h
  · exact isPlacedIn_of_mem_scanSkipLinks h

/-! ## The order -/

theorem inOrder_iff {a b : Finding} :
    inOrder page a b = true ↔ toLex (position page a) ≤ toLex (position page b) := by
  simp [inOrder, Prod.Lex.toLex_le_toLex]

/-- Sorting keeps the order of those that may stand in any order. -/
theorem filter_mergeSort {α : Type} {le : α → α → Bool} (htrans : ∀ a b c, le a b → le b c → le a c)
    (htotal : ∀ a b, le a b || le b a) {p : α → Bool} (hp : ∀ a b, p a → p b → le a b) (l : List α) :
    (l.mergeSort le).filter p = l.filter p := by
  have hsorted : (l.filter p).Pairwise fun a b => le a b :=
    List.pairwise_of_forall_mem_list fun a ha b hb => hp a b (List.of_mem_filter ha) (List.of_mem_filter hb)
  have hsub : ((l.filter p).filter p).Sublist ((l.mergeSort le).filter p) :=
    (List.sublist_mergeSort htrans htotal hsorted List.filter_sublist).filter p
  simp only [List.filter_filter, Bool.and_self] at hsub
  exact (hsub.eq_of_length ((List.mergeSort_perm l le).filter p).length_eq.symm).symm

/-! ## The report -/

/-- The findings on a page as a whole: those of the active rules, each placed in a file of the page, in the order of
the files and of the lines in them, and of the rules where these are the same. -/
structure IsOrderedReport (config : RuleConfig) (textLimit : Nat) (page : Composition) (members : List Member)
    (findings : List Finding) : Prop where
  perm : findings.Perm (foundByActive config textLimit page.entry members)
  placed : ∀ finding ∈ findings, ∃ member ∈ members, IsPlacedIn textLimit member finding
  sorted : findings.Pairwise fun a b => toLex (position page a) ≤ toLex (position page b)
  stable : ∀ place, findings.filter (position page · = place) =
    (foundByActive config textLimit page.entry members).filter (position page · = place)
  landmark : (∃ finding ∈ findings, finding.ruleId = Rule.AriaLandmarks.id) ↔
    isActive config Rule.AriaLandmarks.id = true ∧ ∀ member ∈ members, ¬HasMain member
  skipLink : (∃ finding ∈ findings, finding.ruleId = Rule.SkipLinks.id) ↔
    isActive config Rule.SkipLinks.id = true ∧
      (∃ member ∈ members, HasRepeatedBlock member) ∧ ∀ member ∈ members, ¬HasSkipLink member

theorem isOrderedReport_scan {path : Path} (hentry : page.entry = some path) (hpath : path ∈ members.map Member.path)
    (config : RuleConfig) (textLimit : Nat) :
    IsOrderedReport config textLimit page members (scan config textLimit page members) := by
  have htrans : ∀ a b c, inOrder page a b → inOrder page b c → inOrder page a c := fun a b c hab hbc =>
    inOrder_iff.2 ((inOrder_iff.1 hab).trans (inOrder_iff.1 hbc))
  have htotal : ∀ a b, inOrder page a b || inOrder page b a := fun a b => by
    rw [Bool.or_eq_true, inOrder_iff, inOrder_iff]
    exact le_total _ _
  have hscan : scan config textLimit page members =
      (foundByActive config textLimit page.entry members).mergeSort (inOrder page) := by
    rw [scan, scanMembers_eq]
  have hmem : ∀ {finding}, finding ∈ scan config textLimit page members ↔
      finding ∈ foundByActive config textLimit page.entry members := by
    rw [hscan]
    exact List.mem_mergeSort
  constructor
  · rw [hscan]
    exact List.mergeSort_perm _ _
  · intro finding hfinding
    rw [hmem, hentry] at hfinding
    exact isPlacedIn_of_mem_foundByActive hpath hfinding
  · rw [hscan]
    exact (List.pairwise_mergeSort htrans htotal _).imp inOrder_iff.1
  · intro place
    rw [hscan]
    refine filter_mergeSort htrans htotal (fun a b ha hb => inOrder_iff.2 (le_of_eq ?_)) _
    rw [of_decide_eq_true ha, of_decide_eq_true hb]
  · have hrule : (Rule.AriaLandmarks.id, scanLandmarks page.entry members) ∈
        subscans textLimit page.entry members := by
      simp only [subscans, List.mem_cons, true_or, or_true]
    simp only [hmem]
    exact (exists_ruleId_iff hrule).trans (and_congr_right fun _ => scanLandmarks_ne_nil_iff)
  · have hrule : (Rule.SkipLinks.id, scanSkipLinks members) ∈ subscans textLimit page.entry members := by
      simp only [subscans, List.mem_cons, true_or, or_true]
    simp only [hmem]
    exact (exists_ruleId_iff hrule).trans (and_congr_right fun _ => scanSkipLinks_ne_nil_iff)

/-- The files of a page are read in their order, each with its own text. -/
theorem members_of_membersFrom {sources : List (Path × Text)} {files : List Path} {index : Nat}
    (hsources : ∀ file ∈ files, ∃ source, Pairs.get? file sources = some source)
    (h : membersFrom sources index files = .ok members) :
    members.map Member.path = files ∧ ∀ member ∈ members,
      Pairs.get? member.path sources = some member.source ∧ documentOf member.source = .ok member.document := by
  induction files generalizing index members with
  | nil =>
    obtain rfl := Except.ok.inj h
    exact ⟨rfl, nofun⟩
  | cons file files ih =>
    obtain ⟨⟨source, hsource⟩, hfiles⟩ := List.forall_mem_cons.1 hsources
    rw [membersFrom, hsource] at h
    obtain ⟨document, hdocument, h⟩ := bind_eq_ok.1 h
    obtain ⟨others, hothers, h⟩ := bind_eq_ok.1 h
    obtain rfl := Except.ok.inj h
    obtain ⟨hpaths, hread⟩ := ih hfiles hothers
    exact ⟨congrArg (file :: ·) hpaths, List.forall_mem_cons.2 ⟨⟨hsource, hdocument⟩, hread⟩⟩

end Page

namespace Audit

variable {audit : Audit} {disk : Disk} {entry : Path} {page : Page.Composition}

/-- **The findings on a page as a whole** are made when every file of the page has a document, and only then.  They
are those of the active rules, in order: each is placed in a file of the page, by the text of this file; they come in
the order of the files and of the lines in them; and those of one place come in the order of the rules.  There is one
about the main landmark just when no file has such, and one about skip links just when there is something to be
skipped and no link for it. -/
theorem checkPage_orders_findings (hpage : audit.compose disk entry = .ok page) (hfiles : page.files ≠ []) :
    ((∃ findings, audit.checkPage page = .ok findings) ↔ ∀ file ∈ page.files, HasDocument disk file) ∧
    ∀ findings, audit.checkPage page = .ok findings → ∃ members, page.members = .ok members ∧
      members.map Page.Member.path = page.files ∧
      (∀ member ∈ members, disk.text? member.path = some member.source ∧
        Page.documentOf member.source = .ok member.document) ∧
      Page.IsOrderedReport audit.config audit.settings.textLimit page members findings := by
  rcases Page.Views.compose_cases (mapError_eq_ok.1 hpage) with rfl | ⟨file, hentry, hfile, -⟩
  · exact absurd rfl hfiles
  have hcheck : audit.checkPage page = (Audit.members page).map
      (Page.scan audit.config audit.settings.textLimit page) := by
    rw [checkPage, hentry]
    cases Audit.members page <;> rfl
  have hsources : ∀ file ∈ page.files, ∃ source, Pairs.get? file page.sources = some source := fun file hfile => by
    rw [get?_sources_of_compose hpage file hfile]
    exact (Page.Views.partOf_of_mem_compose (mapError_eq_ok.1 hpage) file hfile).exists_text
  constructor
  · rw [← exists_members_iff hpage, hcheck]
    cases Audit.members page <;> simp [Except.map]
  · intro findings hfindings
    rw [hcheck] at hfindings
    obtain ⟨members, hmembers, rfl⟩ := map_eq_ok.1 hfindings
    have hread := mapError_eq_ok.1 hmembers
    obtain ⟨hpaths, hmembers⟩ := Page.members_of_membersFrom hsources hread
    refine ⟨members, hread, hpaths, fun member hmember => ?_, Page.isOrderedReport_scan hentry (hpaths ▸ hfile) _ _⟩
    obtain ⟨hsource, hdocument⟩ := hmembers member hmember
    rw [get?_sources_of_compose hpage member.path (hpaths ▸ List.mem_map_of_mem hmember)] at hsource
    exact ⟨hsource, hdocument⟩

/-! ### A page with findings of all four rules -/

/-- A layout, a view with a partial, and a view that has no document. -/
def mixedDisk : Disk :=
  ⟨[], [(["v"], .directory ⟨0, 0⟩), (["v", "layouts"], .directory ⟨0, 0⟩),
    (["v", "layouts", "application.html.erb"], .file (Text.toBytes "<nav></nav>\n<h1>a</h1>") ⟨1, 0⟩),
    (["v", "index.html.erb"],
      .file (Text.toBytes "<%= render \"part\" %>\n<p id=\"x\"></p>\n<h2 id=\"x\"></h2>") ⟨1, 0⟩),
    (["v", "_part.html.erb"], .file (Text.toBytes "<h1>b</h1>\n<i id=\"x\"></i>") ⟨1, 0⟩),
    (["v", "open.html.erb"], .file (Text.toBytes "<![foo]]>") ⟨1, 0⟩)]⟩

def mixedPage : Page.Composition :=
  let layout : Path := ⟨1, ["v", "layouts", "application.html.erb"]⟩
  let view : Path := ⟨1, ["v", "index.html.erb"]⟩
  let part : Path := ⟨1, ["v", "_part.html.erb"]⟩
  ⟨some view, some layout, [layout, view, part],
    [(layout, "<nav></nav>\n<h1>a</h1>"), (view, "<%= render \"part\" %>\n<p id=\"x\"></p>\n<h2 id=\"x\"></h2>"),
      (part, "<h1>b</h1>\n<i id=\"x\"></i>")]⟩

/-- The page of the view that has no document. -/
def openPage : Page.Composition :=
  let layout : Path := ⟨1, ["v", "layouts", "application.html.erb"]⟩
  let view : Path := ⟨1, ["v", "open.html.erb"]⟩
  ⟨some view, some layout, [layout, view], [(layout, "<nav></nav>\n<h1>a</h1>"), (view, "<![foo]]>")]⟩

theorem compose_mixedDisk :
    sharedAudit.compose mixedDisk ⟨1, ["v", "index.html.erb"]⟩ = .ok mixedPage ∧
      sharedAudit.compose mixedDisk ⟨1, ["v", "open.html.erb"]⟩ = .ok openPage := by
  constructor <;> cbv

/-- On the first page every rule finds something, and on the second one nothing can be found. -/
theorem checkPage_orders_findings_mixed :
    (∃ findings, sharedAudit.checkPage mixedPage = .ok findings ∧
      findings.Pairwise (fun a b => toLex (Page.position mixedPage a) ≤ toLex (Page.position mixedPage b)) ∧
      (findings.map Finding.ruleId).Perm [Rule.Headings.id, Rule.Headings.id, Rule.DuplicateIds.id,
        Rule.DuplicateIds.id, Rule.AriaLandmarks.id, Rule.SkipLinks.id]) ∧
      ¬∃ findings, sharedAudit.checkPage openPage = .ok findings := by
  obtain ⟨hmixed, hopen⟩ := compose_mixedDisk
  constructor
  · obtain ⟨members, hmembers, hfound⟩ := exists_of_toOption_any
      (by decide +kernel : mixedPage.members.toOption.any fun members =>
        decide ((Page.foundByActive sharedAudit.config sharedAudit.settings.textLimit mixedPage.entry members).map
          Finding.ruleId = [Rule.Headings.id, Rule.Headings.id, Rule.DuplicateIds.id, Rule.DuplicateIds.id,
            Rule.AriaLandmarks.id, Rule.SkipLinks.id]))
    obtain ⟨hscans, hreports⟩ := checkPage_orders_findings hmixed (by decide)
    obtain ⟨findings, hfindings⟩ := hscans.2 ((exists_members_iff hmixed).1 ⟨members, mapError_eq_ok.2 hmembers⟩)
    obtain ⟨others, hothers, -, -, hreport⟩ := hreports findings hfindings
    obtain rfl := Except.ok.inj (hmembers.symm.trans hothers)
    exact ⟨findings, hfindings, hreport.sorted, of_decide_eq_true hfound ▸ hreport.perm.map Finding.ruleId⟩
  · rw [(checkPage_orders_findings hopen (by decide)).1]
    intro hdocuments
    obtain ⟨document, hdocument⟩ := hdocuments ⟨1, ["v", "open.html.erb"]⟩ (by decide) "<![foo]]>" (by cbv)
    have hrefused : (Page.documentOf "<![foo]]>").toOption.isNone = true := by decide +kernel
    rw [hdocument] at hrefused
    cases hrefused

end Audit

end TemplateAudit
