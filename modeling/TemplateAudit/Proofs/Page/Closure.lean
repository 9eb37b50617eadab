import Mathlib
import TemplateAudit.Proofs.Outcome
import TemplateAudit.Proofs.Page.Walk

/-!
# A page holds all that it is made of

`Views.PartOf` says which files a page is made of: the entry, its layout, and every readable file that
one of them refers to, directly or through others.  Where both limits leave room for all of them, the
page that `Views.compose` puts together lists exactly these files, each once
(`compose_lists_parts`), whatever cycles there are among the references.
-/

namespace TemplateAudit

open Outcome

namespace Page

namespace Views

variable {views : Views} {entry : Path}

/-! ## The files a page is made of -/

/-- The least set with the entry, its layout and what these refer to. -/
inductive PartOf (views : Views) (entry : Path) : Path → Prop where
  /-- The file of the entry, if it can be read. -/
  | entry {path : Path} {source : Text} (hfile : views.entryFile? entry = some path)
      (hsource : views.text? path = some source) : PartOf views entry path
  /-- The layout of the entry, if it can be read. -/
  | layout {path layout : Path} {source text : Text} (hfile : views.entryFile? entry = some path)
      (hsource : views.text? path = some source) (hlayout : views.layout? path source = some layout)
      (htext : views.text? layout = some text) : PartOf views entry layout
  /-- What a file of the page refers to. -/
  | reference {path found : Path} (hpath : PartOf views entry path)
      (hrefers : views.Refers path found) : PartOf views entry found

theorem closed_partOf : views.Closed (views.PartOf entry) :=
  fun _ _ hpath hrefers => hpath.reference hrefers

/-- Every closed set with the entry and its layout holds all files of the page. -/
theorem PartOf.of_closed (member : Path → Prop) (hclosed : views.Closed member)
    (hentry : ∀ path source, views.entryFile? entry = some path → views.text? path = some source →
      member path ∧ ∀ layout, views.layout? path source = some layout → member layout)
    {found : Path} (h : views.PartOf entry found) : member found := by
  induction h with
  | entry hfile hsource => exact (hentry _ _ hfile hsource).1
  | layout hfile hsource hlayout _ => exact (hentry _ _ hfile hsource).2 _ hlayout
  | reference _ hrefers ih => exact hclosed _ _ ih hrefers

/-- Some files are all that a page is made of, if the entry and its layout are among them and every
reference in them leads to one of them. -/
theorem PartOf.mem_of_references {files : List Path}
    (hentry : ∀ path ∈ views.entryFile? entry, ∀ source ∈ views.text? path,
      path ∈ files ∧ ∀ layout ∈ views.layout? path source, layout ∈ files)
    (hreferences : ∀ path ∈ files, ∀ source ∈ views.text? path,
      ∀ reference ∈ Template.references source,
        ∃ found ∈ files, views.reference? path reference = .ok (some found))
    {f : Path} (h : views.PartOf entry f) : f ∈ files := by
  refine h.of_closed (· ∈ files) ?_ fun path source hfile hsource => hentry path hfile source hsource
  rintro path found hpath ⟨source, reference, hsource, hreference, hfound, -⟩
  obtain ⟨g, hg, hlead⟩ := hreferences path hpath source hsource reference hreference
  rw [hfound] at hlead
  cases hlead
  exact hg

/-- A set of at most `limit` files fits the limit. -/
theorem fits_of_encard_le {member : Path → Prop} {limit : Nat}
    (h : {f | member f}.encard ≤ limit) : Fits member limit := by
  intro paths hnodup hmem
  have hsub : (paths.toFinset : Set Path) ⊆ {f | member f} :=
    fun f hf => hmem f (List.mem_toFinset.1 (Finset.mem_coe.1 hf))
  have hcard := (Set.encard_le_encard hsub).trans h
  rw [Set.encard_coe_eq_coe_finsetCard, List.toFinset_card_of_nodup hnodup] at hcard
  exact_mod_cast hcard

/-! ## The two walks of a page -/

/-- The walk from one file on, when the others of the files listed so far are settled or wait. -/
theorem underway_start {member : Path → Prop} {waiting files : List Path} {path : Path}
    {source : Text} (hsource : views.text? path = some source) (hlisted : path ∈ files)
    (hfiles : ∀ f ∈ files, member f) (hnodup : files.Nodup)
    (hsettled : ∀ p ∈ files, p ≠ path → p ∉ waiting → ∀ found, views.Refers p found →
      found ∈ files) :
    views.Underway member waiting [⟨path, 0, Template.references source⟩] files where
  framesOf := List.forall_mem_singleton.2 (frameOf_references 0 (hfiles path hlisted) hsource)
  framesListed := List.forall_mem_singleton.2 hlisted
  framesNodup := List.nodup_singleton _
  stacked := ⟨rfl, trivial⟩
  filesOf := hfiles
  filesNodup := hnodup
  pending := by
    intro p hp hwait found hrefers
    by_cases hpath : p = path
    · subst hpath
      obtain ⟨text, r, htext, hr, hlead, -⟩ := hrefers
      rw [hsource] at htext
      cases htext
      exact Or.inr ⟨_, List.mem_cons_self, rfl, r, hr, hlead⟩
    · exact Or.inl (hsettled p hp hpath hwait found hrefers)

/-- What a walk from one file on comes to, in a set that both limits leave room for. -/
theorem followFrom_settles {member : Path → Prop} (hclosed : views.Closed member)
    (hnames : ∀ path source, member path → views.text? path = some source →
      ∀ reference ∈ Template.references source, ∃ found, views.reference? path reference = .ok found)
    (hmaxFiles : Fits member views.settings.maxFiles)
    (hmaxDepth : Fits member views.settings.maxDepth) (waiting files : List Path) {path : Path}
    {source : Text} (hsource : views.text? path = some source) (hlisted : path ∈ files)
    (hfiles : ∀ f ∈ files, member f) (hnodup : files.Nodup)
    (hsettled : ∀ p ∈ files, p ≠ path → p ∉ waiting → ∀ found, views.Refers p found →
      found ∈ files) :
    ∃ result, views.followFrom path source files = .ok result ∧ files ⊆ result ∧ result.Nodup ∧
      (∀ f ∈ result, member f) ∧
      ∀ p ∈ result, p ∉ waiting → ∀ found, views.Refers p found → found ∈ result := by
  have hway := underway_start hsource hlisted hfiles hnodup hsettled
  obtain ⟨result, hresult⟩ := follow_ok hclosed hnames _ files hway.framesOf
  have hwalk := walk_of_follow hresult
  exact ⟨result, hresult, hwalk.subset, hwalk.nodup hnodup,
    hwalk.sound hclosed hway.framesOf hfiles,
    hwalk.settled hclosed hmaxFiles hmaxDepth hway⟩

theorem layoutWithText?_eq_some {path layout : Path} {source text : Text} :
    views.layoutWithText? path source = some (layout, text) ↔
      views.layout? path source = some layout ∧ views.text? layout = some text := by
  constructor
  · intro h
    obtain ⟨l, hl, ht⟩ := Option.bind_eq_some_iff.1 h
    obtain ⟨t, ht, hpair⟩ := Option.map_eq_some_iff.1 ht
    cases hpair
    exact ⟨hl, ht⟩
  · rintro ⟨hl, ht⟩
    simp [layoutWithText?, hl, ht]

/-- No template is its own layout. -/
theorem layout?_ne {path layout : Path} {source : Text}
    (h : views.layout? path source = some layout) : layout ≠ path := by
  have := List.find?_some h
  simpa using this

/-- The files of a page are settled: nothing that one of them refers to is missing. -/
theorem filesOf_settles {member : Path → Prop} (hclosed : views.Closed member)
    (hnames : ∀ path source, member path → views.text? path = some source →
      ∀ reference ∈ Template.references source, ∃ found, views.reference? path reference = .ok found)
    (hmaxFiles : Fits member views.settings.maxFiles)
    (hmaxDepth : Fits member views.settings.maxDepth) {path : Path} {source : Text}
    (hsource : views.text? path = some source) (hpath : member path)
    (hlayout : ∀ layout text, views.layoutWithText? path source = some (layout, text) →
      member layout) :
    ∃ files, views.filesOf path source (views.layoutWithText? path source) = .ok files ∧
      path ∈ files ∧
      (∀ layout text, views.layoutWithText? path source = some (layout, text) → layout ∈ files) ∧
      files.Nodup ∧ (∀ f ∈ files, member f) ∧
      ∀ p ∈ files, ∀ found, views.Refers p found → found ∈ files := by
  cases hfound : views.layoutWithText? path source with
  | none =>
    obtain ⟨files, hfiles, hsub, hnodup, hmem, hsettled⟩ :=
      followFrom_settles hclosed hnames hmaxFiles hmaxDepth [] [path] hsource
        (List.mem_singleton_self _) (List.forall_mem_singleton.2 hpath)
        (List.nodup_singleton _) (fun p hp hne => absurd (List.mem_singleton.1 hp) hne)
    refine ⟨files, ?_, hsub (List.mem_singleton_self _), by simp, hnodup, hmem,
      fun p hp => hsettled p hp List.not_mem_nil⟩
    simp [filesOf, hfiles]
  | some found =>
    obtain ⟨layout, text⟩ := found
    have hmemLayout := hlayout layout text hfound
    obtain ⟨hwhich, htext⟩ := layoutWithText?_eq_some.1 hfound
    have hne := layout?_ne hwhich
    -- the layout is listed from the start, and waits until the walk from the entry is over
    obtain ⟨first, hfirst, hsubFirst, hnodupFirst, hmemFirst, hsettledFirst⟩ :=
      followFrom_settles hclosed hnames hmaxFiles hmaxDepth [layout] [layout, path]
        hsource (by simp) (by simp [hpath, hmemLayout]) (by simp [hne])
        (by
          intro p hp hnotPath hnotLayout
          simp only [List.mem_cons, List.not_mem_nil, or_false] at hp hnotLayout
          rcases hp with rfl | rfl
          · exact absurd rfl hnotLayout
          · exact absurd rfl hnotPath)
    obtain ⟨files, hfiles, hsub, hnodup, hmem, hsettled⟩ :=
      followFrom_settles hclosed hnames hmaxFiles hmaxDepth [] first htext
        (hsubFirst List.mem_cons_self) hmemFirst hnodupFirst
        (fun p hp hnotLayout _ => hsettledFirst p hp (by simpa using hnotLayout))
    refine ⟨files, ?_, hsub (hsubFirst (by simp)), ?_, hnodup, hmem,
      fun p hp => hsettled p hp List.not_mem_nil⟩
    · simp [filesOf, hfirst, hfiles]
    · rintro l t h
      cases h
      exact hsub (hsubFirst List.mem_cons_self)

/-! ## The page -/

/-- A walk from one file of a page on stays among the files of the page. -/
theorem partOf_of_followFrom {path : Path} {source : Text} {files result : List Path}
    (hpath : views.PartOf entry path) (hsource : views.text? path = some source)
    (hfiles : ∀ f ∈ files, views.PartOf entry f)
    (h : views.followFrom path source files = .ok result) : ∀ f ∈ result, views.PartOf entry f :=
  (walk_of_follow h).sound closed_partOf
    (List.forall_mem_singleton.2 (frameOf_references 0 hpath hsource)) hfiles

/-- What comes of an entry: no page, or the page with the files found for it. -/
theorem cases_of_compose {page : Composition} (h : views.compose entry = .ok page) :
    (page = .empty ∧ ∀ path, views.entryFile? entry = some path → views.text? path = none) ∨
      ∃ path source files, views.entryFile? entry = some path ∧ views.text? path = some source ∧
        views.filesOf path source (views.layoutWithText? path source) = .ok files ∧
        page = ⟨some path, (views.layoutWithText? path source).map Prod.fst, files,
          files.filterMap fun file => (views.text? file).map (file, ·)⟩ := by
  rw [compose] at h
  split at h
  · rename_i hnone
    refine .inl ⟨(Except.ok.inj h).symm, fun path hentry => ?_⟩
    simpa [hentry] using hnone
  · rename_i path source hsome
    obtain ⟨file, hfile, hread⟩ := Option.bind_eq_some_iff.1 hsome
    obtain ⟨text, htext, hpair⟩ := Option.map_eq_some_iff.1 hread
    obtain ⟨rfl, rfl⟩ := Prod.mk.inj hpair
    obtain ⟨files, hfiles, hpage⟩ := bind_eq_ok.1 h
    exact .inr ⟨file, text, files, hfile, htext, hfiles, (Except.ok.inj hpage).symm⟩

/-- What every walk keeps holds of the files of a page when it does at the start. -/
theorem filesOf_keeps {P : List Path → Prop}
    (hwalk : ∀ {frames files result}, views.Walk frames files result → P files → P result)
    {path : Path} {source : Text} {layout : Option (Path × Text)} {files : List Path}
    (hstart : P ((layout.map Prod.fst).toList ++ [path]))
    (h : views.filesOf path source layout = .ok files) : P files := by
  obtain ⟨first, hfirst, hrest⟩ := bind_eq_ok.1 h
  have hkept := hwalk (walk_of_follow hfirst) hstart
  cases layout with
  | none =>
    obtain rfl := Except.ok.inj hrest
    exact hkept
  | some found => exact hwalk (walk_of_follow hrest) hkept

/-- A page lists nothing that it is not made of, whatever its limits are. -/
theorem partOf_of_mem_compose {page : Composition} (h : views.compose entry = .ok page) :
    ∀ f ∈ page.files, views.PartOf entry f := by
  obtain ⟨rfl, -⟩ | ⟨path, source, files, hfile, hsource, hfiles, rfl⟩ := cases_of_compose h
  · exact fun _ hf => nomatch hf
  · have hpart : views.PartOf entry path := .entry hfile hsource
    obtain ⟨first, hfirst, hrest⟩ := bind_eq_ok.1 hfiles
    cases hlayout : views.layoutWithText? path source with
    | none =>
      rw [hlayout] at hfirst hrest
      obtain rfl := Except.ok.inj hrest
      exact partOf_of_followFrom hpart hsource (List.forall_mem_singleton.2 hpart) hfirst
    | some found =>
      obtain ⟨layout, text⟩ := found
      rw [hlayout] at hfirst hrest
      have hfound := layoutWithText?_eq_some.1 hlayout
      have hlaid : views.PartOf entry layout := .layout hfile hsource hfound.1 hfound.2
      refine partOf_of_followFrom hlaid hfound.2 ?_ hrest
      refine partOf_of_followFrom hpart hsource ?_ hfirst
      intro f hf
      rcases List.mem_cons.1 hf with rfl | hf
      · exact hlaid
      · exact List.mem_singleton.1 hf ▸ hpart

/-- The files of a page are found when the references of all that it is made of can be looked up. -/
theorem exists_filesOf (hnames : ∀ m text, views.PartOf entry m → views.text? m = some text →
      ∀ reference ∈ Template.references text, ∃ found, views.reference? m reference = .ok found)
    {path : Path} {source : Text} (hentry : views.entryFile? entry = some path)
    (hsource : views.text? path = some source) :
    ∃ files, views.filesOf path source (views.layoutWithText? path source) = .ok files := by
  have hwalk : ∀ {m : Path} {text : Text} (files : List Path), views.PartOf entry m →
      views.text? m = some text → ∃ result, views.followFrom m text files = .ok result :=
    fun files hm htext => follow_ok closed_partOf hnames _ files
      (List.forall_mem_singleton.2 (frameOf_references 0 hm htext))
  rw [filesOf]
  obtain ⟨files, hfiles⟩ := hwalk (((views.layoutWithText? path source).map Prod.fst).toList ++ [path])
    (.entry hentry hsource) hsource
  rw [hfiles, ok_bind]
  split
  · rename_i layout text hlayout
    obtain ⟨hwhich, htext⟩ := layoutWithText?_eq_some.1 hlayout
    exact hwalk files (.layout hentry hsource hwhich htext) htext
  · exact ⟨files, rfl⟩

/-- The page of a readable entry with the files found for it. -/
theorem compose_eq_ok {path : Path} {source : Text} {files : List Path}
    (hentry : views.entryFile? entry = some path) (hsource : views.text? path = some source)
    (hfiles : views.filesOf path source (views.layoutWithText? path source) = .ok files) :
    views.compose entry = .ok ⟨some path, (views.layoutWithText? path source).map Prod.fst, files,
      files.filterMap fun file => (views.text? file).map (file, ·)⟩ := by
  simp [compose, hentry, hsource, hfiles]

/-- A page is put together when the references of all that it is made of can be looked up. -/
theorem exists_compose_of_names (hnames : ∀ m text, views.PartOf entry m → views.text? m = some text →
      ∀ reference ∈ Template.references text, ∃ found, views.reference? m reference = .ok found) :
    ∃ page, views.compose entry = .ok page := by
  cases hentry : (views.entryFile? entry).bind fun path => (views.text? path).map (path, ·) with
  | none => exact ⟨.empty, by rw [compose, hentry]⟩
  | some found =>
    obtain ⟨file, hfile, hread⟩ := Option.bind_eq_some_iff.1 hentry
    obtain ⟨text, htext, -⟩ := Option.map_eq_some_iff.1 hread
    obtain ⟨files, hfiles⟩ := exists_filesOf hnames hfile htext
    exact ⟨_, compose_eq_ok hfile htext hfiles⟩

/-- **A page lists exactly what it is made of.**  When the references of its files can all be looked up
and both limits leave room for these files, the page of a readable entry lists each of them once, and
nothing else. -/
theorem compose_lists_parts (views : Views) (entry path : Path) (source : Text)
    (hentry : views.entryFile? entry = some path) (hsource : views.text? path = some source)
    (hnames : ∀ m text, views.PartOf entry m → views.text? m = some text →
      ∀ reference ∈ Template.references text, ∃ found, views.reference? m reference = .ok found)
    (hmaxFiles : {f | views.PartOf entry f}.encard ≤ views.settings.maxFiles)
    (hmaxDepth : {f | views.PartOf entry f}.encard ≤ views.settings.maxDepth) :
    ∃ page, views.compose entry = .ok page ∧ page.files.Nodup ∧
      ∀ f, f ∈ page.files ↔ views.PartOf entry f := by
  obtain ⟨files, hfiles, hpath, hlayout, hnodup, hmem, hsettled⟩ :=
    filesOf_settles closed_partOf hnames (fits_of_encard_le hmaxFiles) (fits_of_encard_le hmaxDepth)
      hsource (.entry hentry hsource) (fun layout text h =>
        .layout hentry hsource (layoutWithText?_eq_some.1 h).1 (layoutWithText?_eq_some.1 h).2)
  refine ⟨_, by simp [compose, hentry, hsource, hfiles]; rfl, hnodup, fun f => ⟨hmem f, fun hf => ?_⟩⟩
  induction hf with
  | entry hfile _ =>
    rw [hentry] at hfile
    cases hfile
    exact hpath
  | layout hfile hsame hl ht =>
    rw [hentry] at hfile
    cases hfile
    rw [hsource] at hsame
    cases hsame
    exact hlayout _ _ (layoutWithText?_eq_some.2 ⟨hl, ht⟩)
  | reference _ hrefers ih => exact hsettled _ ih _ hrefers

/-! ## Other limits -/

/-- The same tree with other limits. -/
def limited (views : Views) (maxFiles maxDepth : Nat) : Views :=
  { views with settings := { views.settings with maxFiles, maxDepth } }

section Limited

variable {maxFiles maxDepth : Nat}

@[simp]
theorem limited_partial? (name : Text) (path : Path) :
    (views.limited maxFiles maxDepth).partial? name path = views.partial? name path := rfl

@[simp]
theorem limited_reference? (path : Path) (reference : Template.Reference) :
    (views.limited maxFiles maxDepth).reference? path reference = views.reference? path reference := by
  induction reference with
  | nil => rfl
  | cons name names ih => rw [reference?, reference?, limited_partial?, ih]

/-- The limits say nothing about what a page is made of. -/
theorem partOf_of_limited {f : Path} (h : (views.limited maxFiles maxDepth).PartOf entry f) :
    views.PartOf entry f := by
  induction h with
  | entry hfile hsource => exact .entry hfile hsource
  | layout hfile hsource hlayout htext => exact .layout hfile hsource hlayout htext
  | reference _ hrefers ih =>
    obtain ⟨source, reference, hsource, hreference, hfound, htext⟩ := hrefers
    rw [limited_reference?] at hfound
    exact ih.reference ⟨source, reference, hsource, hreference, hfound, htext⟩

end Limited

/-- A tree with an entry, a layout beside it, a partial that includes itself and two partials that
include each other. -/
def cyclicViews : Views where
  disk := ⟨[], [(["v"], .directory ⟨0, 0⟩),
    (["v", "page.html"], .file (Text.toBytes "<%= render 'a' %>") ⟨1, 0⟩),
    (["v", "application.html"], .file (Text.toBytes "<%= render 'b' %><%= render 'c' %>") ⟨1, 0⟩),
    (["v", "_a.html"], .file (Text.toBytes "<%= render 'a' %><%= render 'b' %>") ⟨1, 0⟩),
    (["v", "_b.html"], .file (Text.toBytes "<%= render 'a' %>") ⟨1, 0⟩),
    (["v", "_c.html"], .file (Text.toBytes "") ⟨1, 0⟩)]⟩
  root := ⟨1, ["v"]⟩
  settings := .default

/-- The files of the page in `cyclicViews`. -/
def cyclicFiles : List Path :=
  (["page.html", "application.html", "_a.html", "_b.html", "_c.html"] : List String).map
    fun name => ⟨1, ["v", name]⟩

/-- Every reference there leads to a file of the page. -/
theorem references_cyclicViews :
    ∀ path ∈ cyclicFiles, ∀ source ∈ cyclicViews.text? path,
      ∀ reference ∈ Template.references source,
        ∃ found ∈ cyclicFiles, cyclicViews.reference? path reference = .ok (some found) := by
  decide +kernel

theorem entry_cyclicViews :
    ∀ path ∈ cyclicViews.entryFile? ⟨1, ["v", "page.html"]⟩, ∀ source ∈ cyclicViews.text? path,
      path ∈ cyclicFiles ∧ ∀ layout ∈ cyclicViews.layout? path source, layout ∈ cyclicFiles := by
  decide +kernel

theorem mem_cyclicFiles {f : Path} (h : cyclicViews.PartOf ⟨1, ["v", "page.html"]⟩ f) :
    f ∈ cyclicFiles :=
  h.mem_of_references entry_cyclicViews references_cyclicViews

theorem encard_cyclicViews :
    {f | cyclicViews.PartOf ⟨1, ["v", "page.html"]⟩ f}.encard ≤ (25 : Nat) := by
  have hsub : {f | cyclicViews.PartOf ⟨1, ["v", "page.html"]⟩ f} ⊆ (cyclicFiles.toFinset : Set Path) :=
    fun f hf => Finset.mem_coe.2 (List.mem_toFinset.2 (mem_cyclicFiles hf))
  refine (Set.encard_le_encard hsub).trans ?_
  rw [Set.encard_coe_eq_coe_finsetCard]
  exact_mod_cast (List.toFinset_card_le cyclicFiles).trans (by decide)

/-- The page with cycles is listed in full. -/
theorem compose_lists_parts_cyclic :
    cyclicViews.entryFile? ⟨1, ["v", "page.html"]⟩ = some ⟨1, ["v", "page.html"]⟩ ∧
      ∃ page, cyclicViews.compose ⟨1, ["v", "page.html"]⟩ = .ok page ∧ page.files.Nodup ∧
        ∀ f, f ∈ page.files ↔ cyclicViews.PartOf ⟨1, ["v", "page.html"]⟩ f := by
  have hentry : cyclicViews.entryFile? ⟨1, ["v", "page.html"]⟩ = some ⟨1, ["v", "page.html"]⟩ := by
    decide +kernel
  refine ⟨hentry, compose_lists_parts cyclicViews ⟨1, ["v", "page.html"]⟩ _ "<%= render 'a' %>" hentry
    (by decide +kernel) ?_ ?_ ?_⟩
  · intro m text hm htext reference hreference
    obtain ⟨found, -, hfound⟩ :=
      references_cyclicViews m (mem_cyclicFiles hm) text htext reference hreference
    exact ⟨_, hfound⟩
  · exact encard_cyclicViews.trans (by decide)
  · exact encard_cyclicViews

/-- Whatever the limits are, the references of the page in `cyclicViews` can be looked up. -/
theorem names_limited_cyclicViews {maxFiles maxDepth : Nat} (m : Path) (text : Text)
    (hm : (cyclicViews.limited maxFiles maxDepth).PartOf ⟨1, ["v", "page.html"]⟩ m)
    (htext : (cyclicViews.limited maxFiles maxDepth).text? m = some text) :
    ∀ reference ∈ Template.references text,
      ∃ found, (cyclicViews.limited maxFiles maxDepth).reference? m reference = .ok found := by
  intro reference hreference
  obtain ⟨found, -, hfound⟩ :=
    references_cyclicViews m (mem_cyclicFiles (partOf_of_limited hm)) text htext reference hreference
  exact ⟨some found, (limited_reference? m reference).trans hfound⟩

/-- The files of the page in `cyclicViews` when there may be three of them. -/
def crowdedFiles : List Path :=
  [⟨1, ["v", "application.html"]⟩, ⟨1, ["v", "page.html"]⟩, ⟨1, ["v", "_a.html"]⟩]

theorem files_of_compose_crowded {page : Composition}
    (h : (cyclicViews.limited 3 25).compose ⟨1, ["v", "page.html"]⟩ = .ok page) :
    page.files = crowdedFiles := by
  have hfiles : ((cyclicViews.limited 3 25).compose ⟨1, ["v", "page.html"]⟩).map (·.files) =
      .ok crowdedFiles := by cbv
  rw [h] at hfiles
  exact Except.ok.inj hfiles

end Views

end Page

end TemplateAudit
