import TemplateAudit.Proofs.Page.Opened

/-!
# Which files the limit of depth leaves out

How deep a file lies is counted along the references that lead to it first.  When these are as many as the
limit says, the file is listed, but its own references are not taken up, not even when a shorter way leads to
it later.  So a file near the entry can be missing from the page, and whether it is depends on the order of
the references (`compose_leaves_out_near_file`).

Nothing else is missing.  Where there is room for more files, every file that references lead to is listed,
unless they pass a file whose own references were not taken up, and each file of that kind lies at the limit:
`compose_lists_reachable`.
-/

namespace TemplateAudit

open Outcome

namespace Page

namespace Views

variable {views : Views} {entry path found : Path} {depth : Nat} {reference : Template.Reference}
  {references : List Template.Reference} {frames : List Frame}
  {files opened starts waiting : List Path}

/-! ## The way to a file -/

/-- A file lies at the limit: references lead to it from one of the starts, as many as the limit of depth
(one, if that is zero), through different files whose references are all taken up. -/
def AtLimit (views : Views) (starts opened : List Path) (file : Path) : Prop :=
  ∃ way : List Path, (∃ start ∈ starts, way.head? = some start) ∧ way ⊆ opened ∧
    (way ++ [file]).Nodup ∧ (way ++ [file]).IsChain views.Refers ∧
    way.length = max 1 views.settings.maxDepth

theorem AtLimit.mono {starts' opened' : List Path} {file : Path} (h : views.AtLimit starts opened file)
    (hstarts : starts ⊆ starts') (hopened : opened ⊆ opened') : views.AtLimit starts' opened' file := by
  obtain ⟨way, ⟨start, hstart, hhead⟩, hway, hrest⟩ := h
  exact ⟨way, ⟨start, hstarts hstart, hhead⟩, List.Subset.trans hway hopened, hrest⟩

/-- The files of some frames, from the lowest frame up. -/
def wayOf (frames : List Frame) : List Path :=
  (frames.map Frame.path).reverse

theorem wayOf_cons (frame : Frame) (frames : List Frame) :
    wayOf (frame :: frames) = wayOf frames ++ [frame.path] :=
  List.reverse_cons

theorem length_wayOf (frames : List Frame) : (wayOf frames).length = frames.length := by
  rw [wayOf, List.length_reverse, List.length_map]

/-! ## The walk under way -/

/-- The listed files whose references are not taken up. -/
def unopened (files opened : List Path) : List Path :=
  files.filter (· ∉ opened)

theorem unopened_list (hunopened : found ∉ opened) :
    unopened (files ++ [found]) opened = unopened files opened ++ [found] := by
  simp [unopened, hunopened]

theorem unopened_enter (opened : List Path) (hnew : found ∉ files) :
    unopened (files ++ [found]) (opened ++ [found]) = unopened files opened := by
  have hsame : ∀ f ∈ files, decide (f ∉ opened ++ [found]) = decide (f ∉ opened) := by
    intro f hf
    have hne : f ≠ found := fun heq => hnew (heq ▸ hf)
    simp [hne]
  rw [unopened, List.filter_append, List.filter_congr hsame, unopened]
  simp

/-- A frame can be dropped when its file is to wait for a walk of its own. -/
theorem Underway.drop {member : Path → Prop} {frame : Frame}
    (h : views.Underway member waiting (frame :: frames) files) :
    views.Underway member (waiting ++ [frame.path]) frames files where
  framesOf := fun f hf => h.framesOf f (List.mem_cons_of_mem _ hf)
  framesListed := fun f hf => h.framesListed f (List.mem_cons_of_mem _ hf)
  framesNodup := (List.nodup_cons.1 h.framesNodup).2
  stacked := h.stacked.2
  filesOf := h.filesOf
  filesNodup := h.filesNodup
  pending := by
    intro p hp hwait found hrefers
    obtain ⟨hearlier, hother⟩ := by simpa using hwait
    rcases h.pending p hp hearlier found hrefers with hmem | ⟨f, hf, hpath, hrest⟩
    · exact .inl hmem
    · rcases List.mem_cons.1 hf with rfl | hf
      · exact absurd hpath.symm hother
      · exact .inr ⟨f, hf, hpath, hrest⟩

/-- A walk with notes that is under way.  Its frames are the way to the file of the topmost one, and the files
in `waiting` get their own walk later. -/
structure Noting (views : Views) (starts waiting : List Path) (frames : List Frame)
    (files opened : List Path) : Prop where
  underway : views.Underway (fun _ => True) (unopened files opened) frames files
  openedListed : opened ⊆ files
  framesOpened : wayOf frames ⊆ opened
  linked : (wayOf frames).IsChain views.Refers
  started : frames ≠ [] → ∃ start ∈ starts, (wayOf frames).head? = some start
  shallow : ∀ frame ∈ frames, frame.depth = 0 ∨ frame.depth < views.settings.maxDepth
  atLimit : ∀ f ∈ files, f ∉ opened → f ∈ waiting ∨ views.AtLimit starts opened f

namespace Noting

theorem leave (h : views.Noting starts waiting (⟨path, depth, []⟩ :: frames) files opened) :
    views.Noting starts waiting frames files opened := by
  have hopened := h.framesOpened
  have hlinked := h.linked
  rw [wayOf_cons] at hopened hlinked
  refine ⟨h.underway.leave, h.openedListed, (List.append_subset.1 hopened).1,
    (List.isChain_append.1 hlinked).1, fun hne => ?_, fun frame hframe => h.shallow frame ?_, h.atLimit⟩
  · obtain ⟨start, hstart, hhead⟩ := h.started (List.cons_ne_nil _ _)
    have hway : wayOf frames ≠ [] := by simpa [wayOf] using hne
    rw [wayOf_cons, List.head?_append_of_ne_nil _ hway] at hhead
    exact ⟨start, hstart, hhead⟩
  · exact List.mem_cons_of_mem _ hframe

theorem nodup_wayOf (h : views.Noting starts waiting frames files opened) (hnew : found ∉ files) :
    (wayOf frames ++ [found]).Nodup := by
  refine nodup_append_new (List.nodup_reverse.2 h.underway.framesNodup) fun hmem => hnew ?_
  exact h.openedListed (h.framesOpened hmem)

/-- The way leads on to a file that the topmost frame refers to. -/
theorem isChain_wayOf {source : Text}
    (h : views.Noting starts waiting (⟨path, depth, reference :: references⟩ :: frames) files opened)
    (hfound : views.reference? path reference = .ok (some found))
    (hsource : views.text? found = some source) :
    (wayOf (⟨path, depth, reference :: references⟩ :: frames) ++ [found]).IsChain views.Refers := by
  have hrefers : views.Refers path found :=
    (h.underway.framesOf _ List.mem_cons_self).refers hfound (by rw [hsource]; rfl)
  refine List.isChain_append.2 ⟨h.linked, List.isChain_singleton _, ?_⟩
  simp [wayOf_cons, hrefers]

theorem skip
    (h : views.Noting starts waiting (⟨path, depth, reference :: references⟩ :: frames) files opened)
    (hskip : AddsNothing views files path reference) :
    views.Noting starts waiting (⟨path, depth, references⟩ :: frames) files opened where
  underway := h.underway.skip hskip
  openedListed := h.openedListed
  framesOpened := h.framesOpened
  linked := h.linked
  started := fun _ => h.started (List.cons_ne_nil _ _)
  shallow := List.forall_mem_cons.2 (List.forall_mem_cons.1 h.shallow)
  atLimit := h.atLimit

/-- A file that is listed at the limit lies there by the way of the frames. -/
theorem list {source : Text}
    (h : views.Noting starts waiting (⟨path, depth, reference :: references⟩ :: frames) files opened)
    (hfound : views.reference? path reference = .ok (some found)) (hnew : found ∉ files)
    (hsource : views.text? found = some source) (hdeep : views.settings.maxDepth ≤ depth + 1) :
    views.Noting starts waiting (⟨path, depth, references⟩ :: frames) (files ++ [found]) opened := by
  have hunopened : found ∉ opened := fun hopened => hnew (h.openedListed hopened)
  have hunderway := (h.underway.enter (fun _ _ _ _ => trivial) hfound hnew hsource).drop
  rw [← unopened_list hunopened] at hunderway
  refine ⟨hunderway, List.subset_append_of_subset_left _ h.openedListed, h.framesOpened, h.linked,
    fun _ => h.started (List.cons_ne_nil _ _), List.forall_mem_cons.2 (List.forall_mem_cons.1 h.shallow), ?_⟩
  intro f hf hnot
  rcases List.mem_append.1 hf with hf | hf
  · exact h.atLimit f hf hnot
  obtain rfl := List.mem_singleton.1 hf
  refine .inr ⟨_, h.started (List.cons_ne_nil _ _), h.framesOpened, h.nodup_wayOf hnew,
    h.isChain_wayOf hfound hsource, ?_⟩
  have hdepth : depth = frames.length := h.underway.stacked.1
  have hshallow : depth = 0 ∨ depth < views.settings.maxDepth := (List.forall_mem_cons.1 h.shallow).1
  rw [length_wayOf, List.length_cons]
  omega

/-- A file whose references are taken up carries the way on. -/
theorem enter {source : Text}
    (h : views.Noting starts waiting (⟨path, depth, reference :: references⟩ :: frames) files opened)
    (hfound : views.reference? path reference = .ok (some found)) (hnew : found ∉ files)
    (hsource : views.text? found = some source) (hdepth : depth + 1 < views.settings.maxDepth) :
    views.Noting starts waiting
      (⟨found, depth + 1, Template.references source⟩ :: ⟨path, depth, references⟩ :: frames)
      (files ++ [found]) (opened ++ [found]) := by
  have hunderway := h.underway.enter (fun _ _ _ _ => trivial) hfound hnew hsource
  rw [← unopened_enter opened hnew] at hunderway
  have hopened : opened ⊆ opened ++ [found] := List.subset_append_left _ _
  refine ⟨hunderway, ?_, ?_, ?_, ?_, ?_, ?_⟩
  · exact List.append_subset.2 ⟨List.subset_append_of_subset_left _ h.openedListed,
      List.subset_append_right _ _⟩
  · rw [wayOf_cons]
    exact List.append_subset.2 ⟨List.Subset.trans h.framesOpened hopened, List.subset_append_right _ _⟩
  · rw [wayOf_cons]
    exact h.isChain_wayOf hfound hsource
  · intro _
    obtain ⟨start, hstart, hhead⟩ := h.started (List.cons_ne_nil _ _)
    refine ⟨start, hstart, ?_⟩
    rw [wayOf_cons, List.head?_append]
    exact Option.or_eq_some_iff.2 (.inl hhead)
  · exact List.forall_mem_cons.2 ⟨.inr hdepth, List.forall_mem_cons.2 (List.forall_mem_cons.1 h.shallow)⟩
  · intro f hf hnot
    rcases List.mem_append.1 hf with hf | hf
    · exact (h.atLimit f hf fun hmem => hnot (hopened hmem)).imp_right
        (·.mono (List.Subset.refl _) hopened)
    · exact absurd (List.mem_append_right _ hf) hnot

/-- What is left of a walk that is over. -/
theorem settled (h : views.Noting starts waiting [] files opened) {path found : Path}
    (hpath : path ∈ opened) (hrefers : views.Refers path found) : found ∈ files := by
  have hnot : path ∉ unopened files opened := by simp [unopened, hpath]
  rcases h.underway.pending path (h.openedListed hpath) hnot found hrefers with hmem | ⟨frame, hframe, -⟩
  · exact hmem
  · exact absurd hframe List.not_mem_nil

end Noting

/-- A walk that ends with room for more files has come to the end of all of its frames. -/
theorem noting_of_followNoting {result opened' : List Path}
    (h : views.followNoting frames files opened = .ok (result, opened'))
    (hroom : result.length < views.settings.maxFiles)
    (hnoting : views.Noting starts waiting frames files opened) :
    views.Noting starts waiting [] result opened' := by
  fun_induction followNoting views frames files opened with
  | case1 =>
    cases h
    exact hnoting
  | case2 _ _ _ _ _ ih => exact ih h hnoting.leave
  | case3 => cases h
  | case4 _ _ _ _ _ _ _ _ hnone ih => exact ih h (hnoting.skip (.unresolved hnone))
  | case5 _ _ _ _ _ _ _ _ _ hfound hmem ih =>
    exact ih h (hnoting.skip (.listed hfound (by simpa using hmem)))
  | case6 _ _ _ _ _ _ _ _ _ _ hfull =>
    cases h
    exact absurd hroom (Nat.not_lt.2 hfull)
  | case7 _ _ _ _ _ _ _ _ _ hfound _ _ htext ih =>
    exact ih h (hnoting.skip (.unreadable hfound htext))
  | case8 _ _ _ _ _ _ _ _ _ hfound hnew _ _ hsource hdeep ih =>
    exact ih h (hnoting.list hfound (by simpa using hnew) hsource hdeep)
  | case9 _ _ _ _ _ _ _ _ _ hfound hnew _ _ hsource hdepth ih =>
    exact ih h (hnoting.enter hfound (by simpa using hnew) hsource (Nat.lt_of_not_le hdepth))

/-! ## The page -/

/-- The walk from one file on, when what the files refer to whose references are taken up before is listed. -/
theorem noting_start {source : Text} (hsource : views.text? path = some source) (hstart : path ∈ starts)
    (hmem : path ∈ opened) (hlisted : opened ⊆ files) (hnodup : files.Nodup)
    (hsettled : ∀ p ∈ opened, p ≠ path → ∀ found, views.Refers p found → found ∈ files)
    (hlimit : ∀ f ∈ files, f ∉ opened → f ∈ waiting ∨ views.AtLimit starts opened f) :
    views.Noting starts waiting [⟨path, 0, Template.references source⟩] files opened where
  underway := by
    refine underway_start hsource (hlisted hmem) (fun _ _ => trivial) hnodup fun p hp hne hnot => ?_
    exact hsettled p (by simpa [unopened, hp] using hnot) hne
  openedListed := hlisted
  framesOpened := List.cons_subset.2 ⟨hmem, List.nil_subset _⟩
  linked := List.isChain_singleton path
  started := fun _ => ⟨path, hstart, rfl⟩
  shallow := List.forall_mem_singleton.2 (.inl rfl)
  atLimit := hlimit

/-- What is noted for a page with room for more files. -/
theorem noting_of_filesNoting {source : Text} {layout : Option (Path × Text)}
    (hsource : views.text? path = some source)
    (hlayout : ∀ found ∈ layout, found.1 ≠ path ∧ views.text? found.1 = some found.2)
    (h : views.filesNoting path source layout = .ok (files, opened))
    (hroom : files.length < views.settings.maxFiles) :
    path ∈ opened ∧ views.Noting (path :: (layout.map Prod.fst).toList) [] [] files opened := by
  obtain ⟨⟨first, openedFirst⟩, hfirst, hrest⟩ := bind_eq_ok.1 h
  obtain ⟨added, hadded, -⟩ := noted_of_followNoting hfirst
  have hpath : path ∈ openedFirst := hadded ▸ List.mem_append_left _ (List.mem_singleton_self path)
  have hnone : ∀ p ∈ [path], p ≠ path → ∀ found, views.Refers p found → found ∈
      (layout.map Prod.fst).toList ++ [path] :=
    fun p hp hne => absurd (List.mem_singleton.1 hp) hne
  cases layout with
  | none =>
    obtain ⟨rfl, rfl⟩ := Prod.mk.inj (Except.ok.inj hrest)
    refine ⟨hpath, noting_of_followNoting hfirst hroom ?_⟩
    exact noting_start hsource List.mem_cons_self List.mem_cons_self (List.Subset.refl _)
      (List.nodup_singleton path) hnone fun f hf hnot => absurd hf hnot
  | some found =>
    obtain ⟨layout, text⟩ := found
    obtain ⟨hne, htext⟩ := hlayout _ rfl
    have hroomFirst : first.length < views.settings.maxFiles :=
      Nat.lt_of_le_of_lt (walk_of_followNoting hrest).isPrefix.length_le hroom
    -- the layout is listed from the start, and waits until the first walk is over
    have hwaits : ∀ f ∈ [layout, path], f ∉ [path] →
        f ∈ [layout] ∨ views.AtLimit [path, layout] [path] f := by
      intro f hf hnot
      rcases List.mem_cons.1 hf with rfl | hf
      · exact .inl (List.mem_singleton_self f)
      · exact absurd hf hnot
    have hfirstNoting : views.Noting [path, layout] [layout] [] first openedFirst := by
      refine noting_of_followNoting hfirst hroomFirst ?_
      exact noting_start hsource List.mem_cons_self List.mem_cons_self (by simp) (by simpa using hne) hnone
        hwaits
    obtain ⟨later, hlater, -⟩ := noted_of_followNoting hrest
    refine ⟨by simp [hlater, hpath], noting_of_followNoting hrest hroom ?_⟩
    refine noting_start htext (by simp) (by simp) ?_ hfirstNoting.underway.filesNodup ?_ ?_
    · have hlisted : layout ∈ first := subset_of_followNoting hfirst List.mem_cons_self
      exact List.append_subset.2 ⟨hfirstNoting.openedListed,
        List.cons_subset.2 ⟨hlisted, List.nil_subset _⟩⟩
    · intro p hp hne found hrefers
      have hopened : p ∈ openedFirst := by simpa [hne] using hp
      exact hfirstNoting.settled hopened hrefers
    · intro f hf hnot
      obtain ⟨hunopened, hother⟩ := by simpa using hnot
      have hlimit := (hfirstNoting.atLimit f hf hunopened).resolve_left (by simpa using hother)
      exact .inr (hlimit.mono (List.Subset.refl _) (List.subset_append_left _ _))

/-- What comes of an entry with a page whose references are noted. -/
theorem cases_of_composeNoting {page : Composition} {source : Text}
    (hentry : views.entryFile? entry = some path) (hsource : views.text? path = some source)
    (h : views.composeNoting entry = .ok (page, opened)) :
    page.layout = (views.layoutWithText? path source).map Prod.fst ∧
      views.filesNoting path source (views.layoutWithText? path source) = .ok (page.files, opened) := by
  rw [composeNoting, hentry, Option.bind_some, hsource] at h
  obtain ⟨⟨files, noted⟩, hfiles, hpage⟩ := bind_eq_ok.1 h
  obtain ⟨rfl, rfl⟩ := Prod.mk.inj (Except.ok.inj hpage)
  exact ⟨rfl, hfiles⟩

/-- Along a chain of references from a file whose own ones are taken up, everything is listed up to the first
file whose references are not. -/
theorem mem_or_unopened_of_isChain (hsettled : ∀ p ∈ opened, ∀ found, views.Refers p found → found ∈ files)
    {between : List Path} (hpath : path ∈ opened)
    (hchain : (path :: between ++ [found]).IsChain views.Refers) :
    found ∈ files ∨ ∃ f ∈ between, f ∈ files ∧ f ∉ opened := by
  induction between generalizing path with
  | nil => exact .inl (hsettled path hpath found (List.isChain_pair.1 hchain))
  | cons next between ih =>
    obtain ⟨hrefers, hrest⟩ := List.isChain_cons_cons.1 hchain
    by_cases hnext : next ∈ opened
    · rcases ih hnext hrest with hmem | ⟨f, hf, hcut⟩
      · exact .inl hmem
      · exact .inr ⟨f, List.mem_cons_of_mem _ hf, hcut⟩
    · exact .inr ⟨next, List.mem_cons_self, hsettled path hpath next hrefers, hnext⟩

/-- **The limit of depth leaves out only what is met through a file that lies at the limit.**  When the
references of its files can all be looked up and the page of a readable entry has room for more files, every
file at the end of a chain of references from the entry is listed, or a listed file in between has references
that are not taken up; and every listed file of that kind was first met at the limit of depth, from the entry
or the layout on. -/
theorem compose_lists_reachable (views : Views) (entry path : Path) (source : Text)
    (hentry : views.entryFile? entry = some path) (hsource : views.text? path = some source)
    (hnames : ∀ m text, views.PartOf entry m → views.text? m = some text →
      ∀ reference ∈ Template.references text, ∃ found, views.reference? m reference = .ok found) :
    ∃ page opened, views.compose entry = .ok page ∧
      views.composeNoting entry = .ok (page, opened) ∧
      (page.files.length < views.settings.maxFiles →
        path ∈ page.files ∧
        (∀ between found, (path :: between ++ [found]).IsChain views.Refers →
          found ∈ page.files ∨ ∃ f ∈ between, f ∈ page.files ∧ f ∉ opened) ∧
        ∀ f ∈ page.files, f ∉ opened → views.AtLimit (path :: page.layout.toList) opened f) := by
  obtain ⟨page, hpage⟩ := exists_compose_of_names hnames
  obtain ⟨⟨page, opened⟩, hnoting, rfl⟩ := map_eq_ok.1 ((map_fst_composeNoting entry).trans hpage)
  obtain ⟨hlayout, hfiles⟩ := cases_of_composeNoting hentry hsource hnoting
  refine ⟨page, opened, hpage, hnoting, fun hroom => ?_⟩
  have hother : ∀ found ∈ views.layoutWithText? path source,
      found.1 ≠ path ∧ views.text? found.1 = some found.2 := by
    intro found hfound
    obtain ⟨hwhich, htext⟩ := layoutWithText?_eq_some.1 hfound
    exact ⟨layout?_ne hwhich, htext⟩
  obtain ⟨hpath, hwalked⟩ := noting_of_filesNoting hsource hother hfiles hroom
  rw [← hlayout] at hwalked
  refine ⟨hwalked.openedListed hpath, fun between found hchain => ?_, fun f hf hnot => ?_⟩
  · exact mem_or_unopened_of_isChain (fun p hp found => hwalked.settled hp) hpath hchain
  · exact (hwalked.atLimit f hf hnot).resolve_left List.not_mem_nil

/-! ## A file that is left out -/

/-- A page that refers to `a` and `b`, where `a` refers to `b`, and `b` to `c`.  References are followed to a
depth of two. -/
def crossedViews : Views where
  disk := ⟨[], [(["v"], .directory ⟨0, 0⟩),
    (["v", "page.html"], .file (Text.toBytes "<%= render 'a' %><%= render 'b' %>") ⟨1, 0⟩),
    (["v", "_a.html"], .file (Text.toBytes "<%= render 'b' %>") ⟨1, 0⟩),
    (["v", "_b.html"], .file (Text.toBytes "<%= render 'c' %>") ⟨1, 0⟩),
    (["v", "_c.html"], .file (Text.toBytes "<p></p>") ⟨1, 0⟩)]⟩
  root := ⟨1, ["v"]⟩
  settings := { Settings.default with maxDepth := 2 }

/-- The page in `crossedViews`, and its partials. -/
def crossedFiles : List Path :=
  (["page.html", "_a.html", "_b.html", "_c.html"] : List String).map fun name => ⟨1, ["v", name]⟩

theorem names_crossedViews (m : Path) (text : Text)
    (hm : crossedViews.PartOf ⟨1, ["v", "page.html"]⟩ m) (htext : crossedViews.text? m = some text) :
    ∀ reference ∈ Template.references text,
      ∃ found, crossedViews.reference? m reference = .ok found := by
  have hreferences : ∀ path ∈ crossedFiles, ∀ source ∈ crossedViews.text? path,
      ∀ reference ∈ Template.references source,
        ∃ found ∈ crossedFiles, crossedViews.reference? path reference = .ok (some found) := by
    decide +kernel
  intro reference hreference
  have hmem : m ∈ crossedFiles := hm.mem_of_references (by decide +kernel) hreferences
  obtain ⟨found, -, hfound⟩ := hreferences m hmem text htext reference hreference
  exact ⟨some found, hfound⟩

/-- The page refers to `b`, and `b` to `c`. -/
theorem isChain_crossedViews :
    ([⟨1, ["v", "page.html"]⟩, ⟨1, ["v", "_b.html"]⟩, ⟨1, ["v", "_c.html"]⟩] : List Path).IsChain
      crossedViews.Refers := by
  refine List.isChain_cons_cons.2 ⟨?_, List.isChain_pair.2 ?_⟩
  · exact ⟨"<%= render 'a' %><%= render 'b' %>", ["b"], by decide +kernel, by decide +kernel,
      by decide +kernel, by decide +kernel⟩
  · exact ⟨"<%= render 'c' %>", ["c"], by decide +kernel, by decide +kernel, by decide +kernel,
      by decide +kernel⟩

/-- The page lists `c` no more, and the references of `b` are not taken up. -/
theorem files_of_composeNoting_crossed {page : Composition}
    (h : crossedViews.composeNoting ⟨1, ["v", "page.html"]⟩ = .ok (page, opened)) :
    page.layout = none ∧ page.files = crossedFiles.take 3 ∧ opened = crossedFiles.take 2 := by
  have hnoted : (crossedViews.composeNoting ⟨1, ["v", "page.html"]⟩).map
      (fun noted => (noted.1.layout, noted.1.files, noted.2)) =
        .ok (none, crossedFiles.take 3, crossedFiles.take 2) := by
    cbv
  rw [h] at hnoted
  simpa using Except.ok.inj hnoted

/-- What is missing from the page is met through `b`, which lies at the limit by way of `a`. -/
theorem compose_lists_reachable_crossed :
    ∃ page opened, crossedViews.compose ⟨1, ["v", "page.html"]⟩ = .ok page ∧
      crossedViews.composeNoting ⟨1, ["v", "page.html"]⟩ = .ok (page, opened) ∧
      page.files.length < crossedViews.settings.maxFiles ∧
      (⟨1, ["v", "_c.html"]⟩ ∈ page.files ∨
        ∃ f ∈ [(⟨1, ["v", "_b.html"]⟩ : Path)], f ∈ page.files ∧ f ∉ opened) ∧
      crossedViews.AtLimit [⟨1, ["v", "page.html"]⟩] opened ⟨1, ["v", "_b.html"]⟩ := by
  obtain ⟨page, opened, hpage, hnoting, hlists⟩ := compose_lists_reachable crossedViews
    ⟨1, ["v", "page.html"]⟩ ⟨1, ["v", "page.html"]⟩ "<%= render 'a' %><%= render 'b' %>"
    (by decide +kernel) (by decide +kernel) names_crossedViews
  obtain ⟨hlayout, hfiles, rfl⟩ := files_of_composeNoting_crossed hnoting
  have hroom : page.files.length < crossedViews.settings.maxFiles := by
    rw [hfiles]
    decide
  obtain ⟨-, hreached, hlimit⟩ := hlists hroom
  rw [hlayout] at hlimit
  refine ⟨page, _, hpage, hnoting, hroom, hreached [_] _ isChain_crossedViews, ?_⟩
  exact hlimit _ (by rw [hfiles]; decide) (by decide)

/-- **A file within the limit of depth can be left out.**  The references of the files of the page can be
looked up, the page has room for more files, and two references lead to `c`, as many as may be followed; yet
the page does not list it. -/
theorem compose_leaves_out_near_file :
    crossedViews.entryFile? ⟨1, ["v", "page.html"]⟩ = some ⟨1, ["v", "page.html"]⟩ ∧
      crossedViews.text? ⟨1, ["v", "page.html"]⟩ = some "<%= render 'a' %><%= render 'b' %>" ∧
      (∀ m text, crossedViews.PartOf ⟨1, ["v", "page.html"]⟩ m → crossedViews.text? m = some text →
        ∀ reference ∈ Template.references text,
          ∃ found, crossedViews.reference? m reference = .ok found) ∧
      crossedViews.settings.maxDepth = 2 ∧
      ([⟨1, ["v", "page.html"]⟩, ⟨1, ["v", "_b.html"]⟩, ⟨1, ["v", "_c.html"]⟩] : List Path).IsChain
        crossedViews.Refers ∧
      ∃ page, crossedViews.compose ⟨1, ["v", "page.html"]⟩ = .ok page ∧
        page.files.length < crossedViews.settings.maxFiles ∧ ⟨1, ["v", "_c.html"]⟩ ∉ page.files := by
  obtain ⟨page, hpage⟩ := exists_compose_of_names names_crossedViews
  obtain ⟨⟨page, opened⟩, hnoting, rfl⟩ := map_eq_ok.1 ((map_fst_composeNoting _).trans hpage)
  have hfiles := (files_of_composeNoting_crossed hnoting).2.1
  refine ⟨by decide +kernel, by decide +kernel, names_crossedViews, rfl, isChain_crossedViews, page, hpage,
    ?_, ?_⟩
  · rw [hfiles]
    decide
  · rw [hfiles]
    decide

end Views

end Page

end TemplateAudit
