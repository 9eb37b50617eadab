import Mathlib
import TemplateAudit.Proofs.Outcome
import TemplateAudit.Proofs.Path
import TemplateAudit.Proofs.Scan.Repeats
import TemplateAudit.Scan.Audit

/-!
# A run is its single scans without repeats

A run over many files keeps two things in its cache: the keys it has reported and the pages it has
examined.  `Audit.Marks` ties them together: what was found on an examined page is reported.  So a run
finds what the scans of its files find one after the other, each key once, and it fails where one of
them fails (`runFrom_eq`).  What earlier runs have left in the cache does not matter
(`scanFilesAfter_eq_firsts`).
-/

namespace TemplateAudit

open Outcome Scan

namespace Audit

variable {audit : Audit} {disk : Disk}

/-! ## What is kept of findings -/

theorem kept_append (audit : Audit) (xs ys : List Finding) :
    audit.kept (xs ++ ys) = audit.kept xs ++ audit.kept ys := by
  unfold kept
  split
  · exact List.filter_append ..
  · rfl

@[simp]
theorem kept_nil (audit : Audit) : audit.kept [] = [] := by
  unfold kept
  split <;> rfl

theorem kept_flatMap {α : Type} (audit : Audit) (as : List α) (found : α → List Finding) :
    audit.kept (as.flatMap found) = as.flatMap fun a => audit.kept (found a) := by
  induction as with
  | nil => exact audit.kept_nil
  | cons a as ih => rw [List.flatMap_cons, List.flatMap_cons, kept_append, ih]

/-! ## One file of a run -/

/-- What was found on the pages that a cache marks is reported. -/
def Marks (audit : Audit) (disk : Disk) (cache : Cache) : Prop :=
  ∀ path : Path, path.Clean → (disk.resolve path).toText ∈ cache.pages →
    ∃ findings, audit.checkPageOf disk (disk.resolve path) = .ok findings ∧
      ∀ finding ∈ audit.kept findings, finding.key ∈ cache.keys

theorem marks_empty (audit : Audit) (disk : Disk) : audit.Marks disk .empty :=
  fun _ _ hmem => nomatch hmem

/-- The cache with the page of a path marked, if it has one. -/
def marked (audit : Audit) (disk : Disk) (path : Path) (cache : Cache) : Cache :=
  if audit.hasPage disk path then (cache.markPage path.toText).2 else cache

theorem unseen_marked (path : Path) (cache : Cache) (findings : List Finding) :
    ((audit.marked disk path cache).unseen findings).1 = (cache.unseen findings).1 := by
  unfold marked
  split
  · rw [Cache.unseen_markPage]
  · rfl

/-- A file of a run adds what its own scan finds and is not reported yet, also when its page was
examined before. -/
theorem scanInRun_eq {cache : Cache} (hmarks : audit.Marks disk cache) {path : Path}
    (hclean : path.Clean) (source : Text) :
    audit.scanInRun disk cache (disk.resolve path) source =
      (audit.scanText disk (disk.resolve path) source).map fun single =>
        (⟨(cache.unseen single.findings).1, single.failures⟩,
          audit.marked disk (disk.resolve path) (cache.unseen single.findings).2) := by
  unfold scanInRun scanText marked
  cases hcheck : audit.checkSource (disk.resolve path) source with
  | error failure => rfl
  | ok checked =>
    by_cases hpage : audit.hasPage disk (disk.resolve path)
    · simp only [ok_bind, if_pos hpage, kept_append]
      by_cases hmarked : (disk.resolve path).toText ∈ cache.pages
      · -- the page was examined before, so all that is found on it is reported
        obtain ⟨findings, hfindings, hkeys⟩ := hmarks path hclean hmarked
        have hknown : ∀ finding ∈ audit.kept findings,
            finding.key ∈ (cache.unseen (audit.kept checked.findings)).2.keys := fun finding hmem =>
          (Cache.mem_keys_unseen ..).2 (Or.inl (hkeys finding hmem))
        have hmark : (cache.unseen (audit.kept checked.findings)).2.markPage
            (disk.resolve path).toText = (false, (cache.unseen (audit.kept checked.findings)).2) := by
          rw [Cache.markPage, Cache.pages_unseen, if_pos (by simpa using hmarked)]
        simp [hmark, hfindings, Except.map, Cache.unseen_append, Cache.unseen_of_known hknown]
      · have hmark : ((cache.unseen (audit.kept checked.findings)).2.markPage
            (disk.resolve path).toText).1 = true := by
          rw [Cache.markPage, Cache.pages_unseen, if_neg (by simpa using hmarked)]
        cases hfindings : audit.checkPageOf disk (disk.resolve path) with
        | error failure => simp [hmark, Except.map]
        | ok findings =>
          simp [hmark, Except.map, Cache.unseen_append, Cache.unseen_markPage]
    · simp [hpage, Except.map]

/-- After one more file the marked pages are reported again. -/
theorem Marks.scanInRun {cache : Cache} (hhere : disk.HereClean) (hmarks : audit.Marks disk cache)
    {path : Path} (hclean : path.Clean) {source : Text} {single : Report}
    (hscan : audit.scanText disk (disk.resolve path) source = .ok single) :
    audit.Marks disk
      (audit.marked disk (disk.resolve path) (cache.unseen single.findings).2) := by
  have hkeep : ∀ k ∈ cache.keys, k ∈ (cache.unseen single.findings).2.keys := fun k hk =>
    (Cache.mem_keys_unseen ..).2 (Or.inl hk)
  have hold : audit.Marks disk (cache.unseen single.findings).2 := by
    intro other hother hmem
    rw [Cache.pages_unseen] at hmem
    obtain ⟨findings, hfindings, hkeys⟩ := hmarks other hother hmem
    exact ⟨findings, hfindings, fun finding hfinding => hkeep _ (hkeys finding hfinding)⟩
  unfold marked
  by_cases hpage : audit.hasPage disk (disk.resolve path)
  · rw [if_pos hpage, Cache.markPage]
    split
    · exact hold
    · intro other hother hmem
      rcases List.mem_cons.1 hmem with hsame | hmem
      · -- the page that is marked now is that of the file itself
        have heq := Disk.resolve_eq_of_toText_eq hhere hother hclean hsame
        simp only [scanText, if_pos hpage, bind_eq_ok, pure_eq_ok, Except.ok.injEq] at hscan
        obtain ⟨checked, -, findings, hfindings, rfl⟩ := hscan
        refine ⟨findings, heq ▸ hfindings, fun finding hfinding => ?_⟩
        refine (Cache.mem_keys_unseen ..).2 (Or.inr (List.mem_map_of_mem ?_))
        rw [kept_append]
        exact List.mem_append_right _ hfinding
      · exact hold other hother hmem
  · rw [if_neg hpage]
    exact hold

/-! ## The whole run -/

/-- Why rules failed on the last of some files that was read. -/
def lastFailures (reports : List Report) : Option (List (Text × Text)) :=
  reports.foldr (fun report rest => rest.or report.failures) none

/-- A run finds what the single scans find one after the other and the cache does not hold, and fails
as the first of them that fails. -/
theorem runFrom_eq (hhere : disk.HereClean) {cache : Cache} (hmarks : audit.Marks disk cache)
    (paths : List Path) (hclean : ∀ path ∈ paths, path.Clean) :
    (audit.runFrom disk cache paths).map Prod.fst =
      (paths.mapM (audit.scanFile disk)).map fun reports =>
        ⟨(cache.unseen (reports.flatMap Report.findings)).1, lastFailures reports⟩ := by
  induction paths generalizing cache with
  | nil => rfl
  | cons path paths ih =>
    have hpath := hclean path List.mem_cons_self
    have hpaths := fun p hp => hclean p (List.mem_cons_of_mem _ hp)
    rw [runFrom, List.mapM_cons, scanFile]
    by_cases hpossible : path.isPossible
    · rw [resolved, if_pos hpossible, ok_bind, ok_bind]
      cases htext : disk.text? (disk.resolve path) with
      | none =>
        simp only [pure_eq_ok, ok_bind, ih hmarks hpaths]
        cases paths.mapM (audit.scanFile disk) with
        | error failure => rfl
        | ok reports => simp [Except.map, lastFailures]
      | some source =>
        simp only [scanInRun_eq hmarks hpath]
        cases hscan : audit.scanText disk (disk.resolve path) source with
        | error failure => rfl
        | ok single =>
          have hrest := ih (hmarks.scanInRun hhere hpath hscan) hpaths
          simp only [Except.map, ok_bind]
          generalize audit.runFrom disk
            (audit.marked disk (disk.resolve path) (cache.unseen single.findings).2) paths = run at hrest ⊢
          cases hreports : paths.mapM (audit.scanFile disk) with
          | error failure =>
            rw [hreports] at hrest
            cases run with
            | error reason => exact congrArg Except.error (Except.error.inj hrest)
            | ok run => cases hrest
          | ok reports =>
            rw [hreports] at hrest
            cases run with
            | error reason => cases hrest
            | ok run =>
              obtain ⟨rest, after⟩ := run
              obtain rfl : rest = _ := Except.ok.inj hrest
              simp [lastFailures, Cache.unseen_append, unseen_marked]
    · rw [resolved, if_neg hpossible]
      rfl

/-- The run over some files that went well: its findings are those of the single scans, each key
once. -/
theorem scanFilesAfter_eq_ok (hhere : disk.HereClean) (left : Cache) {paths : List Path}
    (hclean : ∀ path ∈ paths, path.Clean) {reports : List Report}
    (hscans : paths.mapM (audit.scanFile disk) = .ok reports) :
    ∃ run, audit.scanFilesAfter disk left paths = .ok run ∧
      run.findings = Finding.firsts (reports.flatMap Report.findings) := by
  have hrun := runFrom_eq hhere (marks_empty audit disk) paths hclean
  rw [hscans] at hrun
  cases hfrom : audit.runFrom disk .empty paths with
  | error failure =>
    rw [hfrom] at hrun
    cases hrun
  | ok found =>
    obtain ⟨report, cache⟩ := found
    rw [hfrom] at hrun
    obtain rfl : report = _ := Except.ok.inj hrun
    refine ⟨_, by rw [scanFilesAfter, Cache.reset, hfrom]; rfl, ?_⟩
    exact Cache.unseen_empty _

/-- When a run goes well, so do the single scans of its files. -/
theorem exists_reports_of_scanFiles (hhere : disk.HereClean) {paths : List Path}
    (hclean : ∀ path ∈ paths, path.Clean) {run : Run} (hrun : audit.scanFiles disk paths = .ok run) :
    ∃ reports, paths.mapM (audit.scanFile disk) = .ok reports ∧
      run.findings = Finding.firsts (reports.flatMap Report.findings) := by
  cases hscans : paths.mapM (audit.scanFile disk) with
  | ok reports =>
    obtain ⟨run', hrun', hfindings⟩ := scanFilesAfter_eq_ok hhere .empty hclean hscans
    obtain rfl : run' = run := Except.ok.inj (hrun'.symm.trans hrun)
    exact ⟨reports, rfl, hfindings⟩
  | error failure =>
    have hfrom := runFrom_eq hhere (marks_empty audit disk) paths hclean
    rw [hscans] at hfrom
    rw [scanFiles, scanFilesAfter, Cache.reset] at hrun
    obtain ⟨found, hfound, -⟩ := bind_eq_ok.1 hrun
    rw [hfound] at hfrom
    cases hfrom

/-- **A run is the concatenation of the single scans without repeats.**  Where each file can be scanned
by itself, the run over the files finds the same one after the other, without the findings whose key
occurred further in front.  So no key is reported twice, none is missing, and the keys do not depend
on the order of the files or on what earlier runs have left. -/
theorem scanFilesAfter_eq_firsts (audit : Audit) (disk : Disk) (hhere : disk.HereClean) (left : Cache)
    (paths : List Text) (found : Text → Report)
    (hscans : ∀ path ∈ paths, audit.scanFile disk (.ofText path) = .ok (found path)) :
    ∃ run, audit.scanFilesAfter disk left (paths.map .ofText) = .ok run ∧
      run.findings = Finding.firsts (paths.flatMap fun path => (found path).findings) ∧
      (run.findings.map Finding.key).Nodup ∧
      (∀ path ∈ paths, ∀ finding ∈ (found path).findings,
        finding.key ∈ run.findings.map Finding.key) ∧
      ∀ (left' : Cache) (others : List Text), others.Perm paths →
        ∃ run', audit.scanFilesAfter disk left' (others.map .ofText) = .ok run' ∧
          ∀ k, k ∈ run'.findings.map Finding.key ↔ k ∈ run.findings.map Finding.key := by
  -- every order of the files gives a run of this form
  have hany : ∀ (left : Cache) (listed : List Text), listed ⊆ paths →
      ∃ run, audit.scanFilesAfter disk left (listed.map .ofText) = .ok run ∧
        run.findings = Finding.firsts (listed.flatMap fun path => (found path).findings) := by
    intro left listed hlisted
    have hmap : (listed.map Path.ofText).mapM (audit.scanFile disk) = .ok (listed.map found) := by
      rw [List.mapM_map]
      exact mapM_eq_ok_map fun path hpath => hscans path (hlisted hpath)
    obtain ⟨run, hrun, hfindings⟩ := scanFilesAfter_eq_ok hhere left
      (List.forall_mem_map.2 fun path _ => Path.clean_ofText path) hmap
    exact ⟨run, hrun, by rw [hfindings, List.flatMap_map]⟩
  obtain ⟨run, hrun, hfindings⟩ := hany left paths (List.Subset.refl _)
  refine ⟨run, hrun, hfindings, ?_, ?_, ?_⟩
  · rw [hfindings]
    exact Finding.nodup_keys_firsts _
  · intro path hpath finding hfinding
    rw [hfindings, Finding.mem_keys_firsts]
    exact List.mem_map_of_mem (List.mem_flatMap.2 ⟨path, hpath, hfinding⟩)
  · intro left' others hperm
    obtain ⟨run', hrun', hfindings'⟩ := hany left' others hperm.subset
    refine ⟨run', hrun', fun k => ?_⟩
    rw [hfindings, hfindings', Finding.mem_keys_firsts, Finding.mem_keys_firsts]
    exact ((hperm.flatMap_right _).map _).mem_iff

/-! ### Two views with one layout -/

/-- A view can be scanned when its text and its page can. -/
theorem exists_scanFile {path file : Path} {page : Page.Composition} (source : Text)
    (hfile : resolved disk path = .ok file) (htext : disk.text? file = some source)
    (hcheck : (audit.checkSource file source).isOk)
    (hcompose : (audit.views disk).compose file = .ok page)
    (hpage : (audit.checkPage page).isOk) : ∃ report, audit.scanFile disk path = .ok report := by
  cases hchecked : audit.checkSource file source with
  | error failure =>
    rw [hchecked] at hcheck
    cases hcheck
  | ok checked =>
    cases hfindings : audit.checkPage page with
    | error failure =>
      rw [hfindings] at hpage
      cases hpage
    | ok findings =>
      rw [scanFile, hfile, ok_bind, htext]
      simp only [scanText, hchecked, checkPageOf, compose, hcompose, hfindings, mapError_ok, ok_bind]
      split <;> (try split) <;> exact ⟨_, rfl⟩

/-- Two views with one layout, which has navigation but no skip link. -/
def sharedDisk : Disk :=
  ⟨[], [(["v"], .directory ⟨0, 0⟩), (["v", "layouts"], .directory ⟨0, 0⟩),
    (["v", "layouts", "application.html"], .file (Text.toBytes "<nav></nav><main></main>") ⟨1, 0⟩),
    (["v", "p.html"], .file (Text.toBytes "<img>") ⟨1, 0⟩),
    (["v", "q.html"], .file (Text.toBytes "<img>") ⟨1, 0⟩)]⟩

def sharedAudit : Audit :=
  ⟨⟨1, ["v"]⟩, ⟨[], []⟩, .default, ⟨1, ["state"]⟩, Rule.standard⟩

/-- The page of one of the views. -/
def sharedPage (name : String) : Page.Composition :=
  let layout : Path := ⟨1, ["v", "layouts", "application.html"]⟩
  ⟨some ⟨1, ["v", name]⟩, some layout, [layout, ⟨1, ["v", name]⟩],
    [(layout, "<nav></nav><main></main>"), (⟨1, ["v", name]⟩, "<img>")]⟩

theorem compose_sharedDisk : ∀ name ∈ ["p.html", "q.html"],
    (sharedAudit.views sharedDisk).compose ⟨1, ["v", name]⟩ = .ok (sharedPage name) := by
  intro name hname
  fin_cases hname <;> cbv

/-- Both views, one of them twice, and a file that is missing. -/
def sharedPaths : List Text :=
  ["/v/p.html", "/v/q.html", "/v/p.html", "/v/none.html"]

/-- What the scan of one of the paths finds. -/
def sharedReport (path : Text) : Report :=
  ((sharedAudit.scanFile sharedDisk (.ofText path)).toOption).getD ⟨[], none⟩

theorem scanFile_sharedPaths : ∀ path ∈ sharedPaths,
    sharedAudit.scanFile sharedDisk (.ofText path) = .ok (sharedReport path) := by
  have hview : ∀ name ∈ ["p.html", "q.html"],
      ∃ report, sharedAudit.scanFile sharedDisk ⟨1, ["v", name]⟩ = .ok report := by
    intro name hname
    have hfile : resolved sharedDisk ⟨1, ["v", name]⟩ = .ok ⟨1, ["v", name]⟩ := by
      revert name
      decide +kernel
    refine exists_scanFile "<img>" hfile ?_ ?_ (compose_sharedDisk name hname) ?_
    all_goals clear hfile; revert name; decide +kernel
  intro path hpath
  have hscan : ∃ report, sharedAudit.scanFile sharedDisk (.ofText path) = .ok report := by
    simp only [sharedPaths, List.mem_cons, List.not_mem_nil, or_false] at hpath
    rcases hpath with rfl | rfl | rfl | rfl
    · exact hview "p.html" (by decide)
    · exact hview "q.html" (by decide)
    · exact hview "p.html" (by decide)
    · exact ⟨⟨[], none⟩, rfl⟩
  obtain ⟨report, hreport⟩ := hscan
  rw [sharedReport, hreport]
  rfl

/-- The run over these paths, after other runs. -/
theorem scanFilesAfter_eq_firsts_shared :
    ∃ run, sharedAudit.scanFilesAfter sharedDisk ⟨["old"], ["/v/q.html"]⟩ (sharedPaths.map .ofText) =
        .ok run ∧
      run.findings = Finding.firsts (sharedPaths.flatMap fun path => (sharedReport path).findings) := by
  obtain ⟨run, hrun, hfindings, -⟩ := scanFilesAfter_eq_firsts sharedAudit sharedDisk
    (fun _ hpart => nomatch hpart) ⟨["old"], ["/v/q.html"]⟩ sharedPaths sharedReport
    scanFile_sharedPaths
  exact ⟨run, hrun, hfindings⟩

end Audit

end TemplateAudit
