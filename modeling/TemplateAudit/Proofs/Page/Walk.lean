import Mathlib.Data.List.Nodup
import TemplateAudit.Page.Composition

/-!
# The walk through the references, step by step

`Views.follow` takes the references of the topmost frame one at a time.  `Views.Walk` says what one such
step can do, so that what the walk keeps is shown by one short case for each kind of step:

* `Walk.isPrefix` and `Walk.nodup`: files are only added, at the end, and none of them twice;
* `Walk.length_le`: no file is added to as many as there may be;
* `Walk.sound`: what is added is a member of every set of files that is closed under references;
* `Walk.settled`: where neither limit is met, the references of every listed file are listed too,
  except for the files that still wait for a walk of their own.
-/

namespace TemplateAudit

namespace Page

namespace Views

variable {views : Views}

/-! ## References that lead to a file -/

/-- Does a file refer to another one that can be read? -/
def Refers (views : Views) (path found : Path) : Prop :=
  ∃ source reference, views.text? path = some source ∧ reference ∈ Template.references source ∧
    views.reference? path reference = .ok (some found) ∧ (views.text? found).isSome

/-- A reference that adds nothing to the files listed so far: it leads nowhere, to a file that is
listed, or to one that cannot be read. -/
inductive AddsNothing (views : Views) (files : List Path) (path : Path)
    (reference : Template.Reference) : Prop where
  | unresolved (h : views.reference? path reference = .ok none)
  | listed {found : Path} (h : views.reference? path reference = .ok (some found))
      (hmem : found ∈ files)
  | unreadable {found : Path} (h : views.reference? path reference = .ok (some found))
      (htext : views.text? found = none)

/-! ## The steps of a walk -/

/-- The walk from some frames and some files on ends with the last of the lists of files. -/
inductive Walk (views : Views) : List Frame → List Path → List Path → Prop where
  /-- No frame is left. -/
  | done (files : List Path) : Walk views [] files files
  /-- The references of the topmost frame are used up. -/
  | leave {path : Path} {depth : Nat} {frames : List Frame} {files result : List Path}
      (rest : Walk views frames files result) : Walk views (⟨path, depth, []⟩ :: frames) files result
  /-- A reference adds nothing. -/
  | skip {path : Path} {depth : Nat} {reference : Template.Reference}
      {references : List Template.Reference} {frames : List Frame} {files result : List Path}
      (hskip : AddsNothing views files path reference)
      (rest : Walk views (⟨path, depth, references⟩ :: frames) files result) :
      Walk views (⟨path, depth, reference :: references⟩ :: frames) files result
  /-- A reference leads to one more file than there may be. -/
  | full {path found : Path} {depth : Nat} {reference : Template.Reference}
      {references : List Template.Reference} {frames : List Frame} {files : List Path}
      (hfound : views.reference? path reference = .ok (some found)) (hnew : found ∉ files)
      (hfull : views.settings.maxFiles ≤ files.length) :
      Walk views (⟨path, depth, reference :: references⟩ :: frames) files files
  /-- A file is listed, but lies too deep for its own references to be followed. -/
  | list {path found : Path} {depth : Nat} {reference : Template.Reference}
      {references : List Template.Reference} {frames : List Frame} {files result : List Path}
      {source : Text} (hfound : views.reference? path reference = .ok (some found))
      (hnew : found ∉ files) (hroom : files.length < views.settings.maxFiles)
      (hsource : views.text? found = some source) (hdeep : views.settings.maxDepth ≤ depth + 1)
      (rest : Walk views (⟨path, depth, references⟩ :: frames) (files ++ [found]) result) :
      Walk views (⟨path, depth, reference :: references⟩ :: frames) files result
  /-- A file is listed, and its own references are followed next. -/
  | enter {path found : Path} {depth : Nat} {reference : Template.Reference}
      {references : List Template.Reference} {frames : List Frame} {files result : List Path}
      {source : Text} (hfound : views.reference? path reference = .ok (some found))
      (hnew : found ∉ files) (hroom : files.length < views.settings.maxFiles)
      (hsource : views.text? found = some source) (hdepth : depth + 1 < views.settings.maxDepth)
      (rest : Walk views (⟨found, depth + 1, Template.references source⟩ ::
        ⟨path, depth, references⟩ :: frames) (files ++ [found]) result) :
      Walk views (⟨path, depth, reference :: references⟩ :: frames) files result

/-- `follow` takes the steps of a walk. -/
theorem walk_of_follow {frames : List Frame} {files result : List Path}
    (h : views.follow frames files = .ok result) : views.Walk frames files result := by
  fun_induction Views.follow views frames files with
  | case1 files =>
    obtain rfl := Except.ok.inj h
    exact .done _
  | case2 _ _ _ _ ih => exact .leave (ih h)
  | case3 => cases h
  | case4 _ _ _ _ _ _ _ hnone ih => exact .skip (.unresolved hnone) (ih h)
  | case5 _ _ _ _ _ _ _ _ hfound hmem ih =>
    exact .skip (.listed hfound (by simpa using hmem)) (ih h)
  | case6 _ _ _ _ _ _ _ hfound hnew hfull =>
    obtain rfl := Except.ok.inj h
    exact .full hfound (by simpa using hnew) hfull
  | case7 _ _ _ _ _ _ _ _ hfound _ _ htext ih => exact .skip (.unreadable hfound htext) (ih h)
  | case8 _ _ _ _ _ _ _ _ hfound hnew hroom _ hsource hdeep ih =>
    exact .list hfound (by simpa using hnew) (by omega) hsource hdeep (ih h)
  | case9 _ _ _ _ _ _ _ _ hfound hnew hroom _ hsource hdepth ih =>
    exact .enter hfound (by simpa using hnew) (by omega) hsource (by omega) (ih h)

/-! ## What every walk keeps -/

/-- Files stay listed, and where they are. -/
theorem Walk.isPrefix {frames : List Frame} {files result : List Path}
    (h : views.Walk frames files result) : files <+: result := by
  induction h with
  | done => exact List.prefix_refl _
  | leave _ ih => exact ih
  | skip _ _ ih => exact ih
  | full => exact List.prefix_refl _
  | list _ _ _ _ _ _ ih => exact (List.prefix_append _ _).trans ih
  | enter _ _ _ _ _ _ ih => exact (List.prefix_append _ _).trans ih

theorem Walk.subset {frames : List Frame} {files result : List Path}
    (h : views.Walk frames files result) : files ⊆ result :=
  h.isPrefix.subset

/-- A walk makes a list no longer than there may be files, unless it is so from the start. -/
theorem Walk.length_le {frames : List Frame} {files result : List Path}
    (h : views.Walk frames files result) :
    result.length ≤ max views.settings.maxFiles files.length := by
  induction h with
  | done => exact Nat.le_max_right _ _
  | leave _ ih => exact ih
  | skip _ _ ih => exact ih
  | full => exact Nat.le_max_right _ _
  | list _ _ hroom _ _ _ ih =>
    rw [List.length_append, List.length_singleton] at ih
    omega
  | enter _ _ hroom _ _ _ ih =>
    rw [List.length_append, List.length_singleton] at ih
    omega

theorem nodup_append_new {files : List Path} {found : Path} (h : files.Nodup) (hnew : found ∉ files) :
    (files ++ [found]).Nodup :=
  h.append (List.nodup_singleton found) (List.disjoint_singleton.2 hnew)

/-- No file is listed twice. -/
theorem Walk.nodup {frames : List Frame} {files result : List Path}
    (h : views.Walk frames files result) (hfiles : files.Nodup) : result.Nodup := by
  induction h with
  | done => exact hfiles
  | leave _ ih => exact ih hfiles
  | skip _ _ ih => exact ih hfiles
  | full => exact hfiles
  | list _ hnew _ _ _ _ ih => exact ih (nodup_append_new hfiles hnew)
  | enter _ hnew _ _ _ _ ih => exact ih (nodup_append_new hfiles hnew)

/-! ## Frames of a page -/

/-- A frame follows references of a file from a set of files. -/
def FrameOf (views : Views) (member : Path → Prop) (frame : Frame) : Prop :=
  member frame.path ∧ ∃ source, views.text? frame.path = some source ∧
    frame.references ⊆ Template.references source

/-- A set of files is closed when it holds what its files refer to. -/
def Closed (views : Views) (member : Path → Prop) : Prop :=
  ∀ path found, member path → views.Refers path found → member found

theorem FrameOf.tail {member : Path → Prop} {path : Path} {depth : Nat}
    {reference : Template.Reference} {references : List Template.Reference}
    (h : views.FrameOf member ⟨path, depth, reference :: references⟩) :
    views.FrameOf member ⟨path, depth, references⟩ := by
  obtain ⟨hmem, source, hsource, hsub⟩ := h
  exact ⟨hmem, source, hsource, fun r hr => hsub (List.mem_cons_of_mem _ hr)⟩

/-- The file that the first reference of a frame leads to is referred to by the file of the frame. -/
theorem FrameOf.refers {member : Path → Prop} {path found : Path} {depth : Nat}
    {reference : Template.Reference} {references : List Template.Reference}
    (h : views.FrameOf member ⟨path, depth, reference :: references⟩)
    (hfound : views.reference? path reference = .ok (some found))
    (htext : (views.text? found).isSome) : views.Refers path found := by
  obtain ⟨-, source, hsource, hsub⟩ := h
  exact ⟨source, reference, hsource, hsub List.mem_cons_self, hfound, htext⟩

theorem frameOf_references {member : Path → Prop} {path : Path} {source : Text} (depth : Nat)
    (hmem : member path) (hsource : views.text? path = some source) :
    views.FrameOf member ⟨path, depth, Template.references source⟩ :=
  ⟨hmem, source, hsource, List.Subset.refl _⟩

theorem frames_tail {member : Path → Prop} {path : Path} {depth : Nat}
    {reference : Template.Reference} {references : List Template.Reference} {frames : List Frame}
    (h : ∀ frame ∈ ⟨path, depth, reference :: references⟩ :: frames, views.FrameOf member frame) :
    ∀ frame ∈ ⟨path, depth, references⟩ :: frames, views.FrameOf member frame := by
  intro frame hframe
  rcases List.mem_cons.1 hframe with rfl | hrest
  · exact (h _ List.mem_cons_self).tail
  · exact h frame (List.mem_cons_of_mem _ hrest)

theorem frames_enter {member : Path → Prop} {path found : Path} {depth : Nat} {source : Text}
    {reference : Template.Reference} {references : List Template.Reference} {frames : List Frame}
    (h : ∀ frame ∈ ⟨path, depth, reference :: references⟩ :: frames, views.FrameOf member frame)
    (hmem : member found) (hsource : views.text? found = some source) :
    ∀ frame ∈ ⟨found, depth + 1, Template.references source⟩ :: ⟨path, depth, references⟩ :: frames,
      views.FrameOf member frame := by
  intro frame hframe
  rcases List.mem_cons.1 hframe with rfl | hrest
  · exact frameOf_references _ hmem hsource
  · exact frames_tail h frame hrest

/-- A walk lists only files of a closed set. -/
theorem Walk.sound {member : Path → Prop} (hclosed : views.Closed member) {frames : List Frame}
    {files result : List Path} (h : views.Walk frames files result)
    (hframes : ∀ frame ∈ frames, views.FrameOf member frame) (hfiles : ∀ f ∈ files, member f) :
    ∀ f ∈ result, member f := by
  -- the file that a step lists is referred to by the file of the topmost frame
  have hadd : ∀ {path found : Path} {depth : Nat} {reference : Template.Reference}
      {references : List Template.Reference} {source : Text} {files : List Path},
      views.FrameOf member ⟨path, depth, reference :: references⟩ →
      views.reference? path reference = .ok (some found) → views.text? found = some source →
      (∀ f ∈ files, member f) → member found ∧ ∀ f ∈ files ++ [found], member f := by
    intro path found depth reference references source files hframe hfound hsource hfiles
    have hmem : member found :=
      hclosed path found hframe.1 (hframe.refers hfound (by rw [hsource]; rfl))
    refine ⟨hmem, fun f hf => ?_⟩
    rcases List.mem_append.1 hf with hf | hf
    · exact hfiles f hf
    · exact List.mem_singleton.1 hf ▸ hmem
  induction h with
  | done => exact hfiles
  | leave _ ih => exact ih (fun frame hframe => hframes frame (List.mem_cons_of_mem _ hframe)) hfiles
  | skip _ _ ih => exact ih (frames_tail hframes) hfiles
  | full => exact hfiles
  | list hfound _ _ hsource _ _ ih =>
    exact ih (frames_tail hframes) (hadd (hframes _ List.mem_cons_self) hfound hsource hfiles).2
  | enter hfound _ _ hsource _ _ ih =>
    obtain ⟨hmem, hall⟩ := hadd (hframes _ List.mem_cons_self) hfound hsource hfiles
    exact ih (frames_enter hframes hmem hsource) hall

/-- A walk comes to its end when every reference of the files of a closed set can be looked up. -/
theorem follow_ok {member : Path → Prop} (hclosed : views.Closed member)
    (hnames : ∀ path source, member path → views.text? path = some source →
      ∀ reference ∈ Template.references source, ∃ found, views.reference? path reference = .ok found)
    (frames : List Frame) (files : List Path)
    (hframes : ∀ frame ∈ frames, views.FrameOf member frame) :
    ∃ result, views.follow frames files = .ok result := by
  fun_induction Views.follow views frames files with
  | case1 => exact ⟨_, rfl⟩
  | case2 _ _ _ _ ih => exact ih fun frame hframe => hframes frame (List.mem_cons_of_mem _ hframe)
  | case3 path _ reference _ _ _ problem hproblem =>
    obtain ⟨hmem, source, hsource, hsub⟩ := hframes _ List.mem_cons_self
    obtain ⟨found, hfound⟩ := hnames path source hmem hsource reference (hsub List.mem_cons_self)
    rw [hproblem] at hfound
    cases hfound
  | case4 _ _ _ _ _ _ _ _ ih => exact ih (frames_tail hframes)
  | case5 _ _ _ _ _ _ _ _ _ _ ih => exact ih (frames_tail hframes)
  | case6 => exact ⟨_, rfl⟩
  | case7 _ _ _ _ _ _ _ _ _ _ _ _ ih => exact ih (frames_tail hframes)
  | case8 _ _ _ _ _ _ _ _ _ _ _ _ _ _ ih => exact ih (frames_tail hframes)
  | case9 path _ _ _ _ _ _ found hfound _ _ source hsource _ ih =>
    have hframe := hframes _ List.mem_cons_self
    have hmem : member found :=
      hclosed path found hframe.1 (hframe.refers hfound (by rw [hsource]; rfl))
    exact ih (frames_enter hframes hmem hsource)

/-! ## Walks that meet no limit -/

/-- Each frame lies one deeper than the one below it, and the lowest one at depth zero. -/
def Stacked : List Frame → Prop
  | [] => True
  | frame :: frames => frame.depth = frames.length ∧ Stacked frames

/-- A reference that is left in some frames leads from one file to another. -/
def Pending (views : Views) (frames : List Frame) (path found : Path) : Prop :=
  ∃ frame ∈ frames, frame.path = path ∧
    ∃ reference ∈ frame.references, views.reference? path reference = .ok (some found)

/-- No more than `limit` files belong to a set. -/
def Fits (member : Path → Prop) (limit : Nat) : Prop :=
  ∀ paths : List Path, paths.Nodup → (∀ f ∈ paths, member f) → paths.length ≤ limit

/-- A walk through a set of files that is under way.  What a listed file refers to is listed, or a
frame still has the reference to it; only the files in `waiting` get their own walk later. -/
structure Underway (views : Views) (member : Path → Prop) (waiting : List Path)
    (frames : List Frame) (files : List Path) : Prop where
  framesOf : ∀ frame ∈ frames, views.FrameOf member frame
  framesListed : ∀ frame ∈ frames, frame.path ∈ files
  framesNodup : (frames.map Frame.path).Nodup
  stacked : Stacked frames
  filesOf : ∀ f ∈ files, member f
  filesNodup : files.Nodup
  pending : ∀ path ∈ files, path ∉ waiting → ∀ found, views.Refers path found →
    found ∈ files ∨ views.Pending frames path found

section Underway

variable {member : Path → Prop} {waiting : List Path} {path : Path} {depth : Nat}
  {reference : Template.Reference} {references : List Template.Reference} {frames : List Frame}
  {files : List Path}

/-- The reference that leads from one file to another is the topmost one, or a later one. -/
theorem Pending.cases {from_ found : Path}
    (h : views.Pending (⟨path, depth, reference :: references⟩ :: frames) from_ found) :
    (path = from_ ∧ views.reference? path reference = .ok (some found)) ∨
      views.Pending (⟨path, depth, references⟩ :: frames) from_ found := by
  obtain ⟨frame, hframe, rfl, r, hr, hfound⟩ := h
  rcases List.mem_cons.1 hframe with rfl | hrest
  · rcases List.mem_cons.1 hr with rfl | hr
    · exact Or.inl ⟨rfl, hfound⟩
    · exact Or.inr ⟨_, List.mem_cons_self, rfl, r, hr, hfound⟩
  · exact Or.inr ⟨frame, List.mem_cons_of_mem _ hrest, rfl, r, hr, hfound⟩

theorem Pending.push {from_ found : Path} (frame : Frame) (h : views.Pending frames from_ found) :
    views.Pending (frame :: frames) from_ found := by
  obtain ⟨f, hf, hrest⟩ := h
  exact ⟨f, List.mem_cons_of_mem _ hf, hrest⟩

/-- A frame without references can be left. -/
theorem Underway.leave (h : views.Underway member waiting (⟨path, depth, []⟩ :: frames) files) :
    views.Underway member waiting frames files where
  framesOf := fun frame hframe => h.framesOf frame (List.mem_cons_of_mem _ hframe)
  framesListed := fun frame hframe => h.framesListed frame (List.mem_cons_of_mem _ hframe)
  framesNodup := (List.nodup_cons.1 h.framesNodup).2
  stacked := h.stacked.2
  filesOf := h.filesOf
  filesNodup := h.filesNodup
  pending := by
    intro p hp hwait found hrefers
    rcases h.pending p hp hwait found hrefers with hmem | ⟨frame, hframe, hpath, r, hr, hfound⟩
    · exact Or.inl hmem
    · rcases List.mem_cons.1 hframe with rfl | hrest
      · exact absurd hr List.not_mem_nil
      · exact Or.inr ⟨frame, hrest, hpath, r, hr, hfound⟩

/-- A reference that adds nothing can be dropped. -/
theorem Underway.skip
    (h : views.Underway member waiting (⟨path, depth, reference :: references⟩ :: frames) files)
    (hskip : views.AddsNothing files path reference) :
    views.Underway member waiting (⟨path, depth, references⟩ :: frames) files where
  framesOf := frames_tail h.framesOf
  framesListed := List.forall_mem_cons.2 (List.forall_mem_cons.1 h.framesListed)
  framesNodup := h.framesNodup
  stacked := h.stacked
  filesOf := h.filesOf
  filesNodup := h.filesNodup
  pending := by
    intro p hp hwait found hrefers
    rcases h.pending p hp hwait found hrefers with hmem | hpending
    · exact Or.inl hmem
    rcases hpending.cases with ⟨rfl, hfound⟩ | hlater
    · obtain ⟨-, -, -, -, -, htext⟩ := hrefers
      cases hskip with
      | unresolved hnone => rw [hnone] at hfound; cases hfound
      | listed hsome hmem =>
        rw [hsome] at hfound
        cases hfound
        exact Or.inl hmem
      | unreadable hsome hnone =>
        rw [hsome] at hfound
        cases hfound
        rw [hnone] at htext
        cases htext
    · exact Or.inr hlater

/-- A file that is listed gets a frame with all of its references. -/
theorem Underway.enter {found : Path} {source : Text} (hclosed : views.Closed member)
    (h : views.Underway member waiting (⟨path, depth, reference :: references⟩ :: frames) files)
    (hfound : views.reference? path reference = .ok (some found)) (hnew : found ∉ files)
    (hsource : views.text? found = some source) :
    views.Underway member waiting
      (⟨found, depth + 1, Template.references source⟩ :: ⟨path, depth, references⟩ :: frames)
      (files ++ [found]) := by
  have hframe := h.framesOf _ List.mem_cons_self
  have hmem : member found :=
    hclosed path found hframe.1 (hframe.refers hfound (by rw [hsource]; rfl))
  have hlisted : ∀ frame ∈ ⟨path, depth, references⟩ :: frames, frame.path ∈ files :=
    List.forall_mem_cons.2 (List.forall_mem_cons.1 h.framesListed)
  refine ⟨frames_enter h.framesOf hmem hsource, ?_, ?_, ?_, ?_, nodup_append_new h.filesNodup hnew, ?_⟩
  · intro frame hframe
    rcases List.mem_cons.1 hframe with rfl | hrest
    · exact List.mem_append_right _ (List.mem_singleton_self _)
    · exact List.mem_append_left _ (hlisted frame hrest)
  · refine List.nodup_cons.2 ⟨fun hold => hnew ?_, h.framesNodup⟩
    obtain ⟨frame, hframe, rfl⟩ := List.mem_map.1 hold
    exact hlisted frame hframe
  · exact ⟨congrArg (· + 1) h.stacked.1, h.stacked⟩
  · intro f hf
    rcases List.mem_append.1 hf with hf | hf
    · exact h.filesOf f hf
    · exact List.mem_singleton.1 hf ▸ hmem
  · intro p hp hwait f hrefers
    rcases List.mem_append.1 hp with hp | hp
    · rcases h.pending p hp hwait f hrefers with hlisted | hpending
      · exact Or.inl (List.mem_append_left _ hlisted)
      rcases hpending.cases with ⟨rfl, hsame⟩ | hlater
      · rw [hfound] at hsame
        cases hsame
        exact Or.inl (List.mem_append_right _ (List.mem_singleton_self _))
      · exact Or.inr (hlater.push _)
    · obtain rfl := List.mem_singleton.1 hp
      obtain ⟨text, r, htext, hr, hlead, -⟩ := hrefers
      rw [hsource] at htext
      cases htext
      exact Or.inr ⟨_, List.mem_cons_self, rfl, r, hr, hlead⟩

/-- Where the depth of a set is within the limit, no file of it lies too deep: the frames and the file
are so many different members. -/
theorem Underway.depth_lt {found : Path} (hclosed : views.Closed member)
    (hdepth : Fits member views.settings.maxDepth)
    (h : views.Underway member waiting (⟨path, depth, reference :: references⟩ :: frames) files)
    (hfound : views.reference? path reference = .ok (some found)) (hnew : found ∉ files)
    (htext : (views.text? found).isSome) : depth + 1 < views.settings.maxDepth := by
  have hframe := h.framesOf _ List.mem_cons_self
  have hmem : member found := hclosed path found hframe.1 (hframe.refers hfound htext)
  have hlength := hdepth (found :: path :: frames.map Frame.path)
    (List.nodup_cons.2 ⟨fun hold => ?_, h.framesNodup⟩) ?_
  · have hstack : depth = frames.length := h.stacked.1
    simp only [List.length_cons, List.length_map] at hlength
    omega
  · obtain ⟨frame, hframe, rfl⟩ := List.mem_map.1 (show found ∈ List.map Frame.path
      (⟨path, depth, reference :: references⟩ :: frames) from hold)
    exact hnew (h.framesListed frame hframe)
  · refine List.forall_mem_cons.2 ⟨hmem, fun f hf => ?_⟩
    obtain ⟨frame, hframe, rfl⟩ := List.mem_map.1 (show f ∈ List.map Frame.path
      (⟨path, depth, reference :: references⟩ :: frames) from hf)
    exact (h.framesOf frame hframe).1

/-- Where the limit of files is met, all members of the set are listed. -/
theorem Underway.all_listed (hfiles : Fits member views.settings.maxFiles)
    (h : views.Underway member waiting frames files)
    (hfull : views.settings.maxFiles ≤ files.length) {f : Path} (hf : member f) : f ∈ files := by
  by_contra hnew
  have hlength := hfiles (f :: files) (List.nodup_cons.2 ⟨hnew, h.filesNodup⟩)
    (List.forall_mem_cons.2 ⟨hf, h.filesOf⟩)
  rw [List.length_cons] at hlength
  omega

/-- After a walk through a set that both limits leave room for, what a listed file refers to is listed
too, if the file does not wait for a walk of its own. -/
theorem Walk.settled (hclosed : views.Closed member) (hfiles : Fits member views.settings.maxFiles)
    (hdepth : Fits member views.settings.maxDepth) {result : List Path}
    (h : views.Walk frames files result) (hway : views.Underway member waiting frames files) :
    ∀ p ∈ result, p ∉ waiting → ∀ found, views.Refers p found → found ∈ result := by
  induction h with
  | done =>
    intro p hp hwait found hrefers
    rcases hway.pending p hp hwait found hrefers with hmem | ⟨frame, hframe, -⟩
    · exact hmem
    · exact absurd hframe List.not_mem_nil
  | leave _ ih => exact ih hway.leave
  | skip hskip _ ih => exact ih (hway.skip hskip)
  | full _ _ hfull =>
    intro p hp _ found hrefers
    exact hway.all_listed hfiles hfull (hclosed p found (hway.filesOf p hp) hrefers)
  | list hfound hnew _ hsource hdeep _ _ =>
    have hlt := hway.depth_lt hclosed hdepth hfound hnew (by rw [hsource]; rfl)
    omega
  | enter hfound hnew _ hsource _ _ ih => exact ih (hway.enter hclosed hfound hnew hsource)

end Underway

end Views

end Page

end TemplateAudit
