import TemplateAudit.Config.Rules
import TemplateAudit.Locate.Line
import TemplateAudit.Page.Composition
import TemplateAudit.Rule.Registry
import TemplateAudit.Template.Markup

/-!
# Examining a page

Headings, ids, the main landmark and skip links are a matter of the page as a whole: a heading of the
first level in the layout serves a view that has none.  They are examined over all files of a page
together.  Every finding says in which file its element stands, and the findings are in the order of
the files and of the lines in them.
-/

namespace TemplateAudit

namespace Page

open Rule (Origin)

/-- A file of a page, read. -/
structure Member where
  index : Nat
  path : Path
  source : Text
  document : Html.Document
  deriving Repr

/-- The document of a template. -/
def documentOf (source : Text) : Except Html.Rejection Html.Document :=
  Html.parse (Template.toMarkup source)

/-- The files of a page from an index on, read; a file without a text is passed over. -/
def membersFrom (sources : List (Path × Text)) (index : Nat) :
    List Path → Except Html.Rejection (List Member)
  | [] => .ok []
  | path :: paths =>
    match Pairs.get? path sources with
    | none => membersFrom sources (index + 1) paths
    | some source => do
      let document ← documentOf source
      return ⟨index, path, source, document⟩ :: (← membersFrom sources (index + 1) paths)

/-- The files of a page, read. -/
def Composition.members (page : Composition) : Except Html.Rejection (List Member) :=
  membersFrom page.sources 0 page.files

/-! ## Placing findings -/

/-- The finding in a file of the page, at the line of its element. -/
def Member.placed (member : Member) (occurrence : Nat) (finding : Finding) : Finding :=
  let line := Locate.findLine? member.source finding.element occurrence
  (finding.located (some member.path.toText) (line.map Int.ofNat)).ofPage

/-- What elements of a file have in common that look the same. -/
structure Looks where
  tag : Text
  id : Option Text
  src : Option Text
  href : Option Text
  type : Option Text
  words : Text
  deriving DecidableEq, Repr

/-- What the element at a place has in common with those that look the same. -/
def looksOf (place : Html.Place) : Looks :=
  ⟨place.tag, place.attr? "id", place.attr? "src", place.attr? "href", place.attr? "type",
    place.words⟩

/-! ## Headings -/

/-- The headings of a file, each with the number of headings in front of it that look the same. -/
def headingsOf (member : Member) : List (Rule.Headings.Heading (Member × Nat)) :=
  (Pairs.numbered looksOf (Css.select Rule.headings member.document)).map fun numbered =>
    .at numbered.1 (member, numbered.2)

/-- The findings on the headings of a page. -/
def scanHeadings (textLimit : Nat) (members : List Member) : List Finding :=
  (Rule.Headings.analyse (members.flatMap headingsOf) ⟨none, none, textLimit⟩).map fun found =>
    found.1.mark.1.placed found.1.mark.2 found.2

/-! ## Ids -/

/-- An element of a page with an id that can be compared with others. -/
structure Identified where
  member : Member
  place : Html.Place
  value : Text
  deriving Repr

/-- The elements of a file with ids that can be compared. -/
def identifiedIn (member : Member) : List Identified :=
  (Rule.DuplicateIds.comparableIds member.document).map fun entry => ⟨member, entry.1, entry.2⟩

/-- The finding on an element whose id occurs `total` times on the page, and `occurrence` times in
front of it in its own file. -/
def duplicateOnPage (textLimit : Nat) (entry : Identified) (total occurrence : Nat) : Finding :=
  entry.member.placed occurrence
    (Rule.DuplicateIds.duplicate entry.place entry.value total occurrence
      ⟨some entry.member.path.toText, none, textLimit⟩)

/-- The findings on the ids of a page: one for each element after the first with its id. -/
def scanDuplicateIds (textLimit : Nat) (members : List Member) : List Finding :=
  let entries := members.flatMap identifiedIn
  let totals := Pairs.counts (entries.map (·.value))
  let inMember := Pairs.numbered (fun entry => (entry.member.index, entry.value)) entries
  let onPage := Pairs.numbered (fun entry => entry.1.value) inMember
  (onPage.filter fun entry => entry.2 ≠ 0).map fun entry =>
    duplicateOnPage textLimit entry.1.1 ((Pairs.get? entry.1.1.value totals).getD 0) entry.1.2

/-! ## Landmarks and skip links -/

/-- An origin of which only the file is known. -/
def originIn (path : Option Path) : Origin :=
  { Origin.unknown with file := path.map Path.toText }

/-- The finding on a page without a main landmark. -/
def scanLandmarks (entry : Option Path) (members : List Member) : List Finding :=
  if members.any fun member => Css.exists? Rule.AriaLandmarks.mainLandmarks member.document then []
  else [(Rule.AriaLandmarks.missing (originIn entry)).ofPage]

/-- The finding on a page without a skip link, in the first file with something to be skipped. -/
def scanSkipLinks (members : List Member) : List Finding :=
  if members.any fun member => Css.exists? Rule.SkipLinks.skipLinks member.document then []
  else
    match members.find? fun member => Css.exists? Rule.SkipLinks.repeatedBlocks member.document with
    | some member => [(Rule.SkipLinks.missing (originIn (some member.path))).ofPage]
    | none => []

/-! ## The page -/

/-- The rules that are about whole pages. -/
def pageRules : List Text :=
  [Rule.Headings.id, Rule.DuplicateIds.id, Rule.AriaLandmarks.id, Rule.SkipLinks.id]

/-- Is a rule of this library active? -/
def isActive (config : RuleConfig) (rule : Text) : Bool :=
  config.isActive rule ((Rule.Registry.find? rule Rule.standard).all (·.enabled))

/-- Where a finding stands on a page: the index of its file, and its line. -/
def position (page : Composition) (finding : Finding) : Nat × Int :=
  ((finding.file.map page.indexOf).getD page.files.length, finding.line.getD 0)

/-- Does one finding stand in front of another one on a page, or at the same line? -/
def inOrder (page : Composition) (a b : Finding) : Bool :=
  let p := position page a
  let q := position page b
  p.1 < q.1 || (p.1 == q.1 && p.2 ≤ q.2)

/-- The findings of the active rules about a page, in the order of the rules. -/
def scanMembers (config : RuleConfig) (textLimit : Nat) (entry : Option Path)
    (members : List Member) : List Finding :=
  (if isActive config Rule.Headings.id then scanHeadings textLimit members else []) ++
    (if isActive config Rule.DuplicateIds.id then scanDuplicateIds textLimit members else []) ++
    (if isActive config Rule.AriaLandmarks.id then scanLandmarks entry members else []) ++
    (if isActive config Rule.SkipLinks.id then scanSkipLinks members else [])

/-- The findings about a page, in the order of its files and lines. -/
def scan (config : RuleConfig) (textLimit : Nat) (page : Composition) (members : List Member) :
    List Finding :=
  (scanMembers config textLimit page.entry members).mergeSort (inOrder page)

end Page

end TemplateAudit
