import TemplateAudit.Proofs.Page.Entry

/-!
# Putting a page together

`Views.composeNoting` is `Views.compose` with a note of every file whose references are taken up, in the
order in which this happens.  No file is noted twice (`composeNoting_ok`), so cycles among the references
cost nothing: a file is met again, but not opened again.  The page itself has the shape that
`Views.IsPageOf` says, whatever the limits are: the layout in front of the entry, all other files behind,
each file once and with its text.
-/

namespace TemplateAudit

open Outcome

namespace Page

namespace Views

/-! ## The walk with notes -/

/-- The walk of `follow`, with the files noted whose references are taken up. -/
def followNoting (views : Views) : List Frame → List Path → List Path →
    Except BadName (List Path × List Path)
  | [], files, opened => .ok (files, opened)
  | ⟨_, _, []⟩ :: frames, files, opened => views.followNoting frames files opened
  | ⟨path, depth, reference :: references⟩ :: frames, files, opened =>
    let frames := ⟨path, depth, references⟩ :: frames
    match views.reference? path reference with
    | .error problem => .error problem
    | .ok none => views.followNoting frames files opened
    | .ok (some found) =>
      if files.contains found then views.followNoting frames files opened
      else if views.settings.maxFiles ≤ files.length then .ok (files, opened)
      else
        match views.text? found with
        | none => views.followNoting frames files opened
        | some source =>
          if views.settings.maxDepth ≤ depth + 1 then
            views.followNoting frames (files ++ [found]) opened
          else
            views.followNoting (⟨found, depth + 1, Template.references source⟩ :: frames)
              (files ++ [found]) (opened ++ [found])
termination_by frames files => (views.settings.maxFiles - files.length, stepsLeft frames)
decreasing_by
  all_goals simp only [stepsLeft, List.length_append, List.length_cons, List.length_nil]
  all_goals first
    | exact Prod.Lex.right _ (by omega)
    | exact Prod.Lex.left _ _ (by omega)

/-- The files of `filesOf`, and those whose references are taken up. -/
def filesNoting (views : Views) (entry : Path) (source : Text) (layout : Option (Path × Text)) :
    Except BadName (List Path × List Path) := do
  let (files, opened) ← views.followNoting [⟨entry, 0, Template.references source⟩]
    ((layout.map Prod.fst).toList ++ [entry]) [entry]
  match layout with
  | some (path, text) =>
    views.followNoting [⟨path, 0, Template.references text⟩] files (opened ++ [path])
  | none => return (files, opened)

/-- The page of `compose`, and the files whose references are taken up for it. -/
def composeNoting (views : Views) (entry : Path) : Except BadName (Composition × List Path) :=
  match (views.entryFile? entry).bind fun path => (views.text? path).map (path, ·) with
  | none => .ok (.empty, [])
  | some (path, source) => do
    let layout := views.layoutWithText? path source
    let (files, opened) ← views.filesNoting path source layout
    return (⟨some path, layout.map Prod.fst, files,
      files.filterMap fun file => (views.text? file).map (file, ·)⟩, opened)

variable {views : Views} {entry : Path}

/-! ### Notes change nothing -/

theorem map_fst_followNoting (frames : List Frame) (files opened : List Path) :
    (views.followNoting frames files opened).map Prod.fst = views.follow frames files := by
  fun_induction followNoting views frames files opened with
  | case1 =>
    rw [follow]
    rfl
  | case2 _ _ _ _ _ ih => rw [ih, follow]
  | case3 _ _ _ _ _ _ _ _ hproblem =>
    rw [follow, hproblem]
    rfl
  | case4 _ _ _ _ _ _ _ rest hnone ih =>
    rw [ih, follow]
    simp only [rest, hnone]
  | case5 _ _ _ _ _ _ _ rest _ hfound hmem ih =>
    rw [ih, follow]
    simp only [rest, hfound, hmem, if_true]
  | case6 _ _ _ _ _ _ _ _ hfound hnew hfull =>
    rw [follow]
    simp only [hfound, hnew, hfull, Except.map, if_true, if_false, Bool.false_eq_true]
  | case7 _ _ _ _ _ _ _ rest _ hfound hnew hroom htext ih =>
    rw [ih, follow]
    simp only [rest, hfound, hnew, hroom, htext, if_false, Bool.false_eq_true]
  | case8 _ _ _ _ _ _ _ rest _ hfound hnew hroom _ hsource hdeep ih =>
    rw [ih, follow]
    simp only [rest, hfound, hnew, hroom, hsource, hdeep, if_true, if_false, Bool.false_eq_true]
  | case9 _ _ _ _ _ _ _ rest _ hfound hnew hroom _ hsource hdepth ih =>
    rw [ih, follow]
    simp only [rest, hfound, hnew, hroom, hsource, hdepth, if_false, Bool.false_eq_true]

theorem map_fst_filesNoting (path : Path) (source : Text) (layout : Option (Path × Text)) :
    (views.filesNoting path source layout).map Prod.fst = views.filesOf path source layout := by
  rw [filesNoting, filesOf, followFrom, ← map_fst_followNoting _ _ [path]]
  cases views.followNoting [⟨path, 0, Template.references source⟩]
      ((layout.map Prod.fst).toList ++ [path]) [path] with
  | error problem => rfl
  | ok noted =>
    cases layout with
    | none => rfl
    | some found => exact map_fst_followNoting _ _ _

/-- The page is put together as without notes. -/
theorem map_fst_composeNoting (entry : Path) :
    (views.composeNoting entry).map Prod.fst = views.compose entry := by
  rw [composeNoting, compose]
  cases (views.entryFile? entry).bind fun path => (views.text? path).map (path, ·) with
  | none => rfl
  | some found =>
    obtain ⟨path, source⟩ := found
    simp only [← map_fst_filesNoting]
    cases views.filesNoting path source (views.layoutWithText? path source) <;> rfl

/-! ### What is noted -/

/-- `followNoting` takes the steps of a walk. -/
theorem walk_of_followNoting {frames : List Frame} {files opened result opened' : List Path}
    (h : views.followNoting frames files opened = .ok (result, opened')) :
    views.Walk frames files result :=
  walk_of_follow ((map_fst_followNoting frames files opened).symm.trans (by rw [h]; rfl))

/-- What is listed stays listed. -/
theorem subset_of_followNoting {frames : List Frame} {files opened result opened' : List Path}
    (h : views.followNoting frames files opened = .ok (result, opened')) : files ⊆ result :=
  (walk_of_followNoting h).subset

/-- The files that a walk notes are different files of its result, and none of them was listed before. -/
theorem noted_of_followNoting {frames : List Frame} {files opened result opened' : List Path}
    (h : views.followNoting frames files opened = .ok (result, opened')) :
    ∃ added, opened' = opened ++ added ∧ added.Nodup ∧ added ⊆ result ∧ added.Disjoint files := by
  fun_induction followNoting views frames files opened with
  | case1 =>
    cases h
    exact ⟨[], by simp⟩
  | case2 _ _ _ _ _ ih => exact ih h
  | case3 => cases h
  | case4 _ _ _ _ _ _ _ _ _ ih => exact ih h
  | case5 _ _ _ _ _ _ _ _ _ _ _ ih => exact ih h
  | case6 =>
    cases h
    exact ⟨[], by simp⟩
  | case7 _ _ _ _ _ _ _ _ _ _ _ _ _ ih => exact ih h
  | case8 _ _ _ _ _ _ _ _ _ _ _ _ _ _ _ ih =>
    obtain ⟨added, hopened, hnodup, hsub, hdisjoint⟩ := ih h
    exact ⟨added, hopened, hnodup, hsub, (List.disjoint_append_right.1 hdisjoint).1⟩
  | case9 _ _ _ _ _ _ _ _ found _ hnew _ _ _ _ ih =>
    obtain ⟨added, hopened, hnodup, hsub, hdisjoint⟩ := ih h
    obtain ⟨hfiles, hfound⟩ := List.disjoint_append_right.1 hdisjoint
    have hlisted : found ∈ result := subset_of_followNoting h (by simp)
    refine ⟨found :: added, by simp [hopened], ?_, List.cons_subset.2 ⟨hlisted, hsub⟩, ?_⟩
    · exact List.nodup_cons.2 ⟨fun hmem => hfound hmem (List.mem_singleton_self found), hnodup⟩
    · exact List.disjoint_cons_left.2 ⟨by simpa using hnew, hfiles⟩

/-- The references of no file of a page are taken up twice. -/
theorem noted_of_filesNoting {path : Path} {source : Text} {layout : Option (Path × Text)}
    {files opened : List Path} (hlayout : ∀ found ∈ layout, found.1 ≠ path)
    (h : views.filesNoting path source layout = .ok (files, opened)) :
    opened.Nodup ∧ opened ⊆ files := by
  obtain ⟨⟨first, openedFirst⟩, hfirst, hrest⟩ := bind_eq_ok.1 h
  have hstart := subset_of_followNoting hfirst
  obtain ⟨added, rfl, hnodup, hsub, hdisjoint⟩ := noted_of_followNoting hfirst
  have hnodupFirst : ([path] ++ added).Nodup :=
    List.nodup_cons.2 ⟨fun hmem => hdisjoint hmem (by simp), hnodup⟩
  have hsubFirst : [path] ++ added ⊆ first :=
    List.append_subset.2 ⟨fun f hf => hstart (by simp_all), hsub⟩
  cases layout with
  | none =>
    obtain ⟨rfl, rfl⟩ := Prod.mk.inj (Except.ok.inj hrest)
    exact ⟨hnodupFirst, hsubFirst⟩
  | some found =>
    obtain ⟨layout, text⟩ := found
    have hne : layout ≠ path := hlayout _ rfl
    -- the layout is listed from the start, so it is not opened before its own walk
    have hunopened : layout ∉ [path] ++ added := by
      rw [List.mem_append, List.mem_singleton]
      rintro (heq | hmem)
      · exact hne heq
      · exact hdisjoint hmem (by simp)
    obtain ⟨later, rfl, hnodupLater, hsubLater, hdisjointLater⟩ := noted_of_followNoting hrest
    have hopened : [path] ++ added ++ [layout] ⊆ first :=
      List.append_subset.2 ⟨hsubFirst, fun f hf => hstart (by simp_all)⟩
    refine ⟨(nodup_append_new hnodupFirst hunopened).append hnodupLater
      (List.disjoint_of_subset_left hopened hdisjointLater.symm), List.append_subset.2 ⟨?_, hsubLater⟩⟩
    exact List.Subset.trans hopened (subset_of_followNoting hrest)

theorem noted_of_composeNoting {page : Composition} {opened : List Path}
    (h : views.composeNoting entry = .ok (page, opened)) : opened.Nodup ∧ opened ⊆ page.files := by
  rw [composeNoting] at h
  split at h
  · obtain ⟨rfl, rfl⟩ := Prod.mk.inj (Except.ok.inj h)
    exact ⟨.nil, List.nil_subset _⟩
  · obtain ⟨⟨files, noted⟩, hfiles, hpage⟩ := bind_eq_ok.1 h
    obtain ⟨rfl, rfl⟩ := Prod.mk.inj (Except.ok.inj hpage)
    exact noted_of_filesNoting (fun found hfound => layout?_ne (layoutWithText?_eq_some.1 hfound).1) hfiles

/-! ## The shape of a page -/

/-- What holds of the page of an entry, whatever the limits are. -/
structure IsPageOf (views : Views) (entry : Path) (page : Composition) : Prop where
  /-- No file is listed twice. -/
  nodup : page.files.Nodup
  /-- Only an entry that is no readable file has no files. -/
  files_eq_nil : page.files = [] ↔
    ∀ path, views.entryFile? entry = some path → views.text? path = none
  /-- The layout comes first, then the entry, then all other files. -/
  begins : ∀ path source, views.entryFile? entry = some path → views.text? path = some source →
    page.entry = some path ∧ page.layout ≠ some path ∧
      ∃ others, page.files = page.layout.toList ++ path :: others
  /-- The files with a text are those that are listed. -/
  sources_files : page.sources.map Prod.fst = page.files
  /-- The text of a file is what the file holds. -/
  sources_text : ∀ file text, (file, text) ∈ page.sources → views.text? file = some text
  /-- There are no more files than there may be, apart from the layout and the entry. -/
  length_le : page.files.length ≤ max views.settings.maxFiles 2

theorem isPageOf_empty (h : ∀ path, views.entryFile? entry = some path → views.text? path = none) :
    views.IsPageOf entry .empty where
  nodup := .nil
  files_eq_nil := ⟨fun _ => h, fun _ => rfl⟩
  begins := by
    intro path source hentry hsource
    rw [h path hentry] at hsource
    cases hsource
  sources_files := rfl
  sources_text := fun _ _ hmem => nomatch hmem
  length_le := Nat.zero_le _

/-- Readable files all have a text. -/
theorem map_fst_sources {files : List Path} (h : ∀ f ∈ files, ∃ text, views.text? f = some text) :
    (files.filterMap fun file => (views.text? file).map (file, ·)).map Prod.fst = files := by
  induction files with
  | nil => rfl
  | cons file files ih =>
    obtain ⟨⟨text, htext⟩, hrest⟩ := List.forall_mem_cons.1 h
    simp [htext, ih hrest]

/-- Every page that is put together has the shape of a page. -/
theorem isPageOf_of_compose {page : Composition} (h : views.compose entry = .ok page) :
    views.IsPageOf entry page := by
  have hpart := partOf_of_mem_compose h
  obtain ⟨rfl, hnone⟩ | ⟨path, source, files, hentry, hsource, hfiles, rfl⟩ := cases_of_compose h
  · exact isPageOf_empty hnone
  · -- the layout is not the entry, so the list is right at the start
    have hne : ∀ found ∈ views.layoutWithText? path source, found.1 ≠ path :=
      fun found hfound => layout?_ne (layoutWithText?_eq_some.1 hfound).1
    obtain ⟨others, hothers⟩ :=
      filesOf_keeps (fun hwalk hprefix => hprefix.trans hwalk.isPrefix) (List.prefix_refl _) hfiles
    refine ⟨?_, ?_, ?_, ?_, ?_, ?_⟩
    · refine filesOf_keeps (fun hwalk => hwalk.nodup) ?_ hfiles
      cases hlayout : views.layoutWithText? path source with
      | none => exact List.nodup_singleton path
      | some found => simpa using hne found hlayout
    · constructor
      · intro hnil
        simp [← hothers] at hnil
      · intro hnone
        simp [hnone path hentry] at hsource
    · intro path' source' hentry' _
      obtain rfl := Option.some.inj (hentry.symm.trans hentry')
      refine ⟨rfl, ?_, others, by simp [← hothers]⟩
      intro hlayout
      obtain ⟨found, hfound, hpath⟩ := Option.map_eq_some_iff.1 hlayout
      exact hne found hfound hpath
    · exact map_fst_sources fun f hf => (hpart f hf).exists_text
    · intro file text hmem
      obtain ⟨f, -, hf⟩ := List.mem_filterMap.1 hmem
      obtain ⟨t, ht, hpair⟩ := Option.map_eq_some_iff.1 hf
      obtain ⟨rfl, rfl⟩ := Prod.mk.inj hpair
      exact ht
    · refine filesOf_keeps (P := fun files => files.length ≤ max views.settings.maxFiles 2)
        (fun hwalk hlength => ?_) ?_ hfiles
      · have := hwalk.length_le
        omega
      · cases views.layoutWithText? path source <;> simp

/-- **Every page is put together in an orderly way.**  When the references of its files can all be looked
up, the page of any entry is put together, the references of none of its files are taken up twice, and
the page has the layout and the entry at its head, each file once and with its text, and no more files
than there may be. -/
theorem composeNoting_ok (views : Views) (entry : Path)
    (hnames : ∀ m text, views.PartOf entry m → views.text? m = some text →
      ∀ reference ∈ Template.references text, ∃ found, views.reference? m reference = .ok found) :
    ∃ page opened, views.compose entry = .ok page ∧ views.composeNoting entry = .ok (page, opened) ∧
      opened.Nodup ∧ opened ⊆ page.files ∧ views.IsPageOf entry page := by
  obtain ⟨page, hpage⟩ := exists_compose_of_names hnames
  obtain ⟨⟨page, opened⟩, hnoting, rfl⟩ := map_eq_ok.1 ((map_fst_composeNoting entry).trans hpage)
  obtain ⟨hnodup, hsub⟩ := noted_of_composeNoting hnoting
  exact ⟨page, opened, hpage, hnoting, hnodup, hsub, isPageOf_of_compose hpage⟩

/-- With room for three files, the page with cycles has exactly three of them. -/
theorem composeNoting_ok_crowded :
    ∃ page opened, (cyclicViews.limited 3 25).compose ⟨1, ["v", "page.html"]⟩ = .ok page ∧
      (cyclicViews.limited 3 25).composeNoting ⟨1, ["v", "page.html"]⟩ = .ok (page, opened) ∧
      opened.Nodup ∧ opened ⊆ crowdedFiles ∧
      (cyclicViews.limited 3 25).IsPageOf ⟨1, ["v", "page.html"]⟩ page ∧ page.files = crowdedFiles := by
  obtain ⟨page, opened, hpage, hnoting, hnodup, hsub, hshape⟩ := composeNoting_ok
    (cyclicViews.limited 3 25) ⟨1, ["v", "page.html"]⟩ names_limited_cyclicViews
  have hfiles := files_of_compose_crowded hpage
  exact ⟨page, opened, hpage, hnoting, hnodup, hfiles ▸ hsub, hshape, hfiles⟩

end Views

end Page

end TemplateAudit
