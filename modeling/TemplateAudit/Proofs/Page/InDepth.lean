import TemplateAudit.Proofs.Page.Closure

/-!
# The files of a page in depth

`Views.follow` keeps a stack of files whose references are left over, and stops at the first reference to
one file too many.  `Views.inDepth` says the same as a recursion without a stack: each reference of a file
adds the file that it leads to, and at once what this file refers to.  Nothing there stops when there are
as many files as there may be; every further reference is only passed over.  Where all references can be
looked up, both give the same files in the same order (`follow_eq_inDepthAll`), and so the page lists its
layout, its entry, what is met from the entry in depth, and then what is met from the layout
(`compose_lists_in_depth`).
-/

namespace TemplateAudit

open Outcome

namespace Page

namespace Views

/-! ## The walk as a recursion -/

mutual

/-- The files listed so far, and those that the references of a file at a depth add, one after the
other. -/
def inDepth (views : Views) (depth : Nat) (path : Path) :
    List Template.Reference → List Path → Except BadName (List Path)
  | [], files => .ok files
  | reference :: references, files => do
    let files ← addReference views depth path reference files
    inDepth views depth path references files
termination_by references => (views.settings.maxDepth - depth, references.length)

/-- The files listed so far, and those that a reference of a file at a depth adds: the file that it leads
to, if this one is new and can be read and there is room for it, and what that file refers to, if it does
not lie too deep. -/
def addReference (views : Views) (depth : Nat) (path : Path) (reference : Template.Reference)
    (files : List Path) : Except BadName (List Path) :=
  match views.reference? path reference with
  | .error problem => .error problem
  | .ok none => .ok files
  | .ok (some found) =>
    if found ∉ files ∧ files.length < views.settings.maxFiles then
      match views.text? found with
      | none => .ok files
      | some source =>
        if depth + 1 < views.settings.maxDepth then
          inDepth views (depth + 1) found (Template.references source) (files ++ [found])
        else .ok (files ++ [found])
    else .ok files
termination_by (views.settings.maxDepth - depth, 0)

end

/-- What the references left in some frames add, from the topmost frame down. -/
def inDepthAll (views : Views) : List Frame → List Path → Except BadName (List Path)
  | [], files => .ok files
  | ⟨path, depth, references⟩ :: frames, files => do
    let files ← views.inDepth depth path references files
    views.inDepthAll frames files

/-- The layout, the entry, what is met from the entry in depth, and what is met from the layout. -/
def filesInDepth (views : Views) (entry : Path) (source : Text) (layout : Option (Path × Text)) :
    Except BadName (List Path) := do
  let files ← views.inDepth 0 entry (Template.references source)
    ((layout.map Prod.fst).toList ++ [entry])
  match layout with
  | some (path, text) => views.inDepth 0 path (Template.references text) files
  | none => return files

variable {views : Views} {path found : Path} {depth : Nat} {reference : Template.Reference}
  {references : List Template.Reference} {files : List Path}

@[simp]
theorem inDepth_nil : views.inDepth depth path [] files = .ok files := by
  rw [inDepth]

theorem inDepth_cons : views.inDepth depth path (reference :: references) files =
    views.addReference depth path reference files >>= views.inDepth depth path references := by
  rw [inDepth]

/-! ## What a reference adds -/

theorem AddsNothing.addReference_eq (h : AddsNothing views files path reference) :
    views.addReference depth path reference files = .ok files := by
  rw [addReference]
  cases h with
  | unresolved h => simp only [h]
  | listed h hmem => simp only [h, hmem, not_true_eq_false, false_and, if_false]
  | unreadable h htext => simp only [h, htext, ite_self]

theorem AddsNothing.inDepthAll_eq {frames : List Frame} (h : AddsNothing views files path reference) :
    views.inDepthAll (⟨path, depth, reference :: references⟩ :: frames) files =
      views.inDepthAll (⟨path, depth, references⟩ :: frames) files := by
  rw [inDepthAll, inDepthAll, inDepth_cons, h.addReference_eq, ok_bind]

/-- A file that lies too deep is listed by itself. -/
theorem addReference_of_deep {source : Text} (hfound : views.reference? path reference = .ok (some found))
    (hnew : found ∉ files) (hroom : files.length < views.settings.maxFiles)
    (hsource : views.text? found = some source) (hdeep : views.settings.maxDepth ≤ depth + 1) :
    views.addReference depth path reference files = .ok (files ++ [found]) := by
  rw [addReference]
  simp only [hfound, hnew, hroom, hsource, not_false_eq_true, and_self, if_true]
  rw [if_neg (Nat.not_lt.2 hdeep)]

/-- Any other file is listed with what it refers to. -/
theorem addReference_of_enter {source : Text} (hfound : views.reference? path reference = .ok (some found))
    (hnew : found ∉ files) (hroom : files.length < views.settings.maxFiles)
    (hsource : views.text? found = some source) (hdepth : depth + 1 < views.settings.maxDepth) :
    views.addReference depth path reference files =
      views.inDepth (depth + 1) found (Template.references source) (files ++ [found]) := by
  rw [addReference]
  simp only [hfound, hnew, hroom, hsource, not_false_eq_true, and_self, if_true]
  rw [if_pos hdepth]

/-! ## Lists that are full -/

/-- References add nothing to as many files as there may be. -/
theorem inDepth_full (hfull : views.settings.maxFiles ≤ files.length)
    (h : ∀ reference ∈ references, ∃ found, views.reference? path reference = .ok found) :
    views.inDepth depth path references files = .ok files := by
  induction references with
  | nil => exact inDepth_nil
  | cons reference references ih =>
    obtain ⟨⟨found?, hfound⟩, hrest⟩ := List.forall_mem_cons.1 h
    have hadd : views.addReference depth path reference files = .ok files := by
      rw [addReference, hfound]
      cases found? with
      | none => rfl
      | some found => exact if_neg fun hroom => Nat.not_lt.2 hfull hroom.2
    rw [inDepth_cons, hadd, ok_bind, ih hrest]

theorem inDepthAll_full {frames : List Frame} (hfull : views.settings.maxFiles ≤ files.length)
    (h : ∀ frame ∈ frames, ∀ reference ∈ frame.references,
      ∃ found, views.reference? frame.path reference = .ok found) :
    views.inDepthAll frames files = .ok files := by
  induction frames with
  | nil => rfl
  | cons frame frames ih =>
    obtain ⟨hframe, hrest⟩ := List.forall_mem_cons.1 h
    rw [inDepthAll, inDepth_full hfull hframe, ok_bind, ih hrest]

/-! ## The stack and the recursion -/

/-- The stack gives the files of the recursion, since what is left in its frames is what the callers of
the recursion still have to do. -/
theorem follow_eq_inDepthAll {member : Path → Prop} (hclosed : views.Closed member)
    (hnames : ∀ path source, member path → views.text? path = some source →
      ∀ reference ∈ Template.references source, ∃ found, views.reference? path reference = .ok found)
    (frames : List Frame) (files : List Path)
    (hframes : ∀ frame ∈ frames, views.FrameOf member frame) :
    views.follow frames files = views.inDepthAll frames files := by
  fun_induction Views.follow views frames files with
  | case1 => rfl
  | case2 _ _ _ _ ih =>
    rw [ih fun frame hframe => hframes frame (List.mem_cons_of_mem _ hframe), inDepthAll, inDepth_nil,
      ok_bind]
  | case3 _ _ _ _ _ _ _ hproblem =>
    rw [inDepthAll, inDepth_cons, addReference, hproblem]
    rfl
  | case4 _ _ _ _ _ _ _ hnone ih =>
    rw [ih (frames_tail hframes), AddsNothing.inDepthAll_eq (.unresolved hnone)]
  | case5 _ _ _ _ _ _ _ _ hfound hmem ih =>
    rw [ih (frames_tail hframes), AddsNothing.inDepthAll_eq (.listed hfound (by simpa using hmem))]
  | case6 _ _ _ _ _ _ _ _ _ hfull =>
    -- the stack is left here, while the recursion still passes over what is left in it
    refine (inDepthAll_full hfull fun frame hframe r hr => ?_).symm
    obtain ⟨hmem, source, hsource, hsub⟩ := hframes frame hframe
    exact hnames frame.path source hmem hsource r (hsub hr)
  | case7 _ _ _ _ _ _ _ _ hfound _ _ htext ih =>
    rw [ih (frames_tail hframes), AddsNothing.inDepthAll_eq (.unreadable hfound htext)]
  | case8 _ _ _ _ _ _ _ _ hfound hnew hroom _ hsource hdeep ih =>
    rw [ih (frames_tail hframes), inDepthAll, inDepthAll, inDepth_cons,
      addReference_of_deep hfound (by simpa using hnew) (Nat.lt_of_not_le hroom) hsource hdeep, ok_bind]
  | case9 path _ _ _ _ _ rest found hfound hnew hroom source hsource hdepth ih =>
    have hframe := hframes _ List.mem_cons_self
    have hmem : member found :=
      hclosed path found hframe.1 (hframe.refers hfound (by rw [hsource]; rfl))
    have henter := addReference_of_enter hfound (by simpa using hnew) (Nat.lt_of_not_le hroom) hsource
      (Nat.lt_of_not_le hdepth)
    rw [ih (frames_enter hframes hmem hsource)]
    simp only [rest, inDepthAll, inDepth_cons, henter, bind_assoc]

theorem followFrom_eq_inDepth {member : Path → Prop} (hclosed : views.Closed member)
    (hnames : ∀ path source, member path → views.text? path = some source →
      ∀ reference ∈ Template.references source, ∃ found, views.reference? path reference = .ok found)
    {source : Text} (hmem : member path) (hsource : views.text? path = some source)
    (files : List Path) :
    views.followFrom path source files = views.inDepth 0 path (Template.references source) files := by
  rw [followFrom, follow_eq_inDepthAll hclosed hnames _ _
    (List.forall_mem_singleton.2 (frameOf_references 0 hmem hsource)), inDepthAll]
  exact bind_pure _

/-! ## The page -/

/-- **A page lists its files in depth.**  When the references of its files can all be looked up, the page
of a readable entry lists its layout, its entry, what is met from the entry in depth and what is met from
the layout in depth, with no file listed again. -/
theorem compose_lists_in_depth (views : Views) (entry path : Path) (source : Text)
    (hentry : views.entryFile? entry = some path) (hsource : views.text? path = some source)
    (hnames : ∀ m text, views.PartOf entry m → views.text? m = some text →
      ∀ reference ∈ Template.references text, ∃ found, views.reference? m reference = .ok found) :
    ∃ page, views.compose entry = .ok page ∧
      page.layout = (views.layoutWithText? path source).map Prod.fst ∧
      views.filesInDepth path source (views.layoutWithText? path source) = .ok page.files := by
  have hpart : views.PartOf entry path := .entry hentry hsource
  have hwalk := followFrom_eq_inDepth closed_partOf hnames hpart hsource
  have hfiles : views.filesOf path source (views.layoutWithText? path source) =
      views.filesInDepth path source (views.layoutWithText? path source) := by
    rw [filesOf, filesInDepth, hwalk]
    cases hlayout : views.layoutWithText? path source with
    | none => rfl
    | some found =>
      obtain ⟨hwhich, htext⟩ := layoutWithText?_eq_some.1 hlayout
      simp only [followFrom_eq_inDepth closed_partOf hnames (.layout hentry hsource hwhich htext) htext]
  obtain ⟨files, hfound⟩ := exists_filesOf hnames hentry hsource
  exact ⟨_, compose_eq_ok hentry hsource hfound, rfl, hfiles ▸ hfound⟩

/-- With room for three files, the page with cycles ends at the first reference of its first partial. -/
theorem compose_lists_in_depth_crowded :
    ∃ page, (cyclicViews.limited 3 25).compose ⟨1, ["v", "page.html"]⟩ = .ok page ∧
      page.layout = some ⟨1, ["v", "application.html"]⟩ ∧ page.files = crowdedFiles ∧
      (cyclicViews.limited 3 25).filesInDepth ⟨1, ["v", "page.html"]⟩ "<%= render 'a' %>"
        (some (⟨1, ["v", "application.html"]⟩, "<%= render 'b' %><%= render 'c' %>")) =
          .ok page.files := by
  have hlayout : (cyclicViews.limited 3 25).layoutWithText? ⟨1, ["v", "page.html"]⟩ "<%= render 'a' %>" =
      some ((⟨1, ["v", "application.html"]⟩ : Path), "<%= render 'b' %><%= render 'c' %>".toList) := by
    decide +kernel
  obtain ⟨page, hpage, hwhich, hfiles⟩ := compose_lists_in_depth (cyclicViews.limited 3 25)
    ⟨1, ["v", "page.html"]⟩ ⟨1, ["v", "page.html"]⟩ "<%= render 'a' %>" (by decide +kernel)
    (by decide +kernel) names_limited_cyclicViews
  rw [hlayout] at hwhich hfiles
  exact ⟨page, hpage, hwhich, files_of_compose_crowded hpage, hfiles⟩

end Views

end Page

end TemplateAudit
