import Mathlib.Data.List.Basic
import TemplateAudit.Proofs.Outcome
import TemplateAudit.Proofs.Rule.Examiner
import TemplateAudit.Scan.Audit

/-!
# Which failed rules a summary names

Every file that a run examines replaces what was noted on the file before it, so at the end of the run the
rules that failed on the last file are known, and no others (`notes_runFrom`).  The summary of the run
names exactly these; it names all rules that failed in the run only where each of them failed on the last
file too (`failedChecks_summarize_iff`).
-/

namespace TemplateAudit

open Outcome Scan

namespace Audit

variable {audit : Audit} {disk : Disk}

/-- A rule of the name that runs on single files fails on a file with a given text. -/
def FailsOn (audit : Audit) (file : Path × Text) (id : Text) : Prop :=
  ∃ document, Page.documentOf file.2 = .ok document ∧
    ∃ rule ∈ Rule.running audit.rules audit.config audit.excluded, rule.id = id ∧
      ∃ reason, rule.examine document ⟨some file.1.toText, none, audit.settings.textLimit⟩ = .error reason

/-- The files of a run that can be read, in order, with their texts. -/
def filesRead (disk : Disk) (paths : List Path) : List (Path × Text) :=
  paths.filterMap fun path => (disk.text? (disk.resolve path)).map (disk.resolve path, ·)

/-- The rules noted as failed are those that fail on the last file; without a file nothing is noted. -/
def Notes (audit : Audit) (failures : Option (List (Text × Text))) : Option (Path × Text) → Prop
  | none => failures = none
  | some file => ∃ noted, failures = some noted ∧ ∀ id, id ∈ noted.map Prod.fst ↔ audit.FailsOn file id

/-! ## One file -/

/-- The rules that an examination notes as failed. -/
theorem mem_keys_failures_examineAll (rules : Rule.Registry) (config : RuleConfig)
    (excluded : List Text) (document : Html.Document) (origin : Rule.Origin) (id : Text) :
    id ∈ (Rule.examineAll rules config excluded document origin).failures.map Prod.fst ↔
      ∃ rule ∈ Rule.running rules config excluded, rule.id = id ∧
        ∃ reason, rule.examine document origin = .error reason := by
  rw [Rule.examineAll_eq_examine]
  exact (Rule.Examiner.reports_examine ⟨document, some origin, excluded, true⟩ (.new rules config)).failed_iff id

theorem notes_checkSource {path : Path} {source : Text} {report : Report}
    (h : audit.checkSource path source = .ok report) :
    audit.Notes report.failures (some (path, source)) := by
  rw [checkSource] at h
  split at h
  · cases h
  · rename_i document hdocument
    rw [examineDocument] at h
    split at h
    · obtain rfl := Except.ok.inj h
      refine ⟨_, rfl, fun id => (mem_keys_failures_examineAll ..).trans ⟨fun hfails => ?_, ?_⟩⟩
      · exact ⟨document, hdocument, hfails⟩
      · rintro ⟨document', hdocument', hfails⟩
        obtain rfl := Except.ok.inj (hdocument.symm.trans hdocument')
        exact hfails
    · cases h

/-- A file of a run notes what its own examination notes; its page notes nothing. -/
theorem notes_scanInRun {cache after : Cache} {path : Path} {source : Text} {report : Report}
    (h : audit.scanInRun disk cache path source = .ok (report, after)) :
    audit.Notes report.failures (some (path, source)) := by
  obtain ⟨checked, hchecked, h⟩ := bind_eq_ok.1 h
  suffices hsame : report.failures = checked.failures from hsame ▸ notes_checkSource hchecked
  generalize cache.unseen (audit.kept checked.findings) = found at h
  obtain ⟨fresh, cache⟩ := found
  simp only at h
  split at h
  · split at h
    · obtain ⟨onPage, -, h⟩ := bind_eq_ok.1 h
      exact (congrArg (·.1.failures) (Except.ok.inj h)).symm
    · exact (congrArg (·.1.failures) (Except.ok.inj h)).symm
  · exact (congrArg (·.1.failures) (Except.ok.inj h)).symm

/-! ## A whole run -/

/-- A run notes what the last file notes that it reads. -/
theorem notes_runFrom {cache after : Cache} {paths : List Path} {report : Report}
    (h : audit.runFrom disk cache paths = .ok (report, after)) :
    audit.Notes report.failures (filesRead disk paths).getLast? := by
  induction paths generalizing cache after report with
  | nil =>
    obtain ⟨rfl, -⟩ := Prod.mk.inj (Except.ok.inj h)
    rfl
  | cons path paths ih =>
    obtain ⟨file, hfile, h⟩ := bind_eq_ok.1 h
    obtain rfl : disk.resolve path = file := by
      rw [resolved] at hfile
      split at hfile
      · exact Except.ok.inj hfile
      · cases hfile
    rw [filesRead, List.filterMap_cons, ← filesRead]
    cases htext : disk.text? (disk.resolve path) with
    | none =>
      rw [htext] at h
      exact ih h
    | some source =>
      rw [htext] at h
      obtain ⟨⟨first, between⟩, hfirst, h⟩ := bind_eq_ok.1 h
      obtain ⟨⟨rest, _⟩, hrest, h⟩ := bind_eq_ok.1 h
      obtain ⟨rfl, -⟩ := Prod.mk.inj (Except.ok.inj h)
      have hlater := ih hrest
      simp only [Option.map_some, List.getLast?_cons]
      cases hlast : (filesRead disk paths).getLast? with
      | none =>
        rw [hlast] at hlater
        rw [hlater, Option.none_or]
        exact notes_scanInRun hfirst
      | some last =>
        rw [hlast] at hlater
        obtain ⟨noted, hnoted, hkeys⟩ := hlater
        exact ⟨noted, by rw [hnoted, Option.some_or], hkeys⟩

/-- **Which failed rules a summary names.**  After a run the summary names the rules that failed on the last
file that was read, or, if none was, those noted before the run.  So it names the rules that failed in the
run, and no others, exactly when each of them failed on the last file, or when nothing was read and nothing
was noted before. -/
theorem failedChecks_summarize_iff (audit : Audit) (disk : Disk) (left : Cache) (paths : List Path)
    (before : List (Text × Text)) (run : Run) (hrun : audit.scanFilesAfter disk left paths = .ok run) :
    let named := (summarize audit run.findings (failuresAfter before run.failures)).failedChecks.map
      Prod.fst
    (∀ id, id ∈ named ↔
      match (filesRead disk paths).getLast? with
      | some last => audit.FailsOn last id
      | none => id ∈ before.map Prod.fst) ∧
    ((∀ id, id ∈ named ↔ ∃ file ∈ filesRead disk paths, audit.FailsOn file id) ↔
      match (filesRead disk paths).getLast? with
      | some last => ∀ file ∈ filesRead disk paths, ∀ id, audit.FailsOn file id → audit.FailsOn last id
      | none => before = []) := by
  obtain ⟨⟨report, cache⟩, hreport, hrun⟩ := bind_eq_ok.1 hrun
  obtain rfl := Except.ok.inj hrun
  have hnotes := notes_runFrom hreport
  cases hlast : (filesRead disk paths).getLast? with
  | none =>
    have hnone : filesRead disk paths = [] := List.getLast?_eq_none_iff.1 hlast
    rw [hlast] at hnotes
    have hnamed : failuresAfter before report.failures = before := by
      rw [failuresAfter, hnotes, Option.getD_none]
    simp only [summarize, hnamed, hnone, List.not_mem_nil, false_and, exists_false, iff_false]
    refine ⟨fun id => trivial, fun h => ?_, ?_⟩
    · exact List.map_eq_nil_iff.1 (List.eq_nil_iff_forall_not_mem.2 h)
    · rintro rfl id hid
      cases hid
  | some last =>
    rw [hlast] at hnotes
    obtain ⟨noted, hnoted, hkeys⟩ := hnotes
    have hnamed : failuresAfter before report.failures = noted := by
      rw [failuresAfter, hnoted, Option.getD_some]
    simp only [summarize, hnamed, hkeys]
    refine ⟨fun id => trivial, fun h file hfile id hfails => (h id).2 ⟨file, hfile, hfails⟩, ?_⟩
    intro h id
    exact ⟨fun hfails => ⟨last, List.mem_of_getLast? hlast, hfails⟩, fun ⟨file, hfile, hfails⟩ =>
      h file hfile id hfails⟩

/-! ### A failure that the next file covers up -/

/-- A rule that fails where there are images. -/
def imageless : Rule :=
  ⟨"imageless", "No images", fun document _ =>
    if Css.exists? [Css.tag "img"] document then .error "image" else .ok [], true, false, []⟩

/-- A file with an image and one without. -/
def coveringDisk : Disk :=
  ⟨[], [(["v"], .directory ⟨0, 0⟩), (["v", "a.html"], .file (Text.toBytes "<img>") ⟨1, 0⟩),
    (["v", "b.html"], .file (Text.toBytes "<p></p>") ⟨1, 0⟩)]⟩

def imagelessAudit : Audit :=
  ⟨⟨1, ["v"]⟩, .default, { Settings.default with composePages := false }, ⟨1, ["state"]⟩, [imageless]⟩

/-- One of the two files. -/
def coveringFile (name : String) : Path :=
  ⟨1, ["v", name]⟩

def coveringPaths : List Path :=
  [coveringFile "a.html", coveringFile "b.html"]

theorem exists_img_of_imageless {document : Html.Document} {origin : Rule.Origin} {reason : Text}
    (h : imageless.examine document origin = .error reason) : Css.exists? [Css.tag "img"] document := by
  unfold imageless at h
  simp only at h
  split at h
  · assumption
  · cases h

/-- The rule fails on the first of two files, and the summary does not name it. -/
theorem failedChecks_summarize_iff_covered :
    ∃ run, imagelessAudit.scanFilesAfter coveringDisk .empty coveringPaths = .ok run ∧
      (∃ file ∈ filesRead coveringDisk coveringPaths, imagelessAudit.FailsOn file "imageless") ∧
      ("imageless" : Text) ∉ (summarize imagelessAudit run.findings
        (failuresAfter [] run.failures)).failedChecks.map Prod.fst := by
  obtain ⟨run, hrun, -⟩ := exists_of_toOption_any
    (x := imagelessAudit.scanFilesAfter coveringDisk .empty coveringPaths) (p := fun _ => true)
    (by decide +kernel)
  obtain ⟨document, hdocument, himage⟩ := exists_of_toOption_any (x := Page.documentOf "<img>")
    (p := Css.exists? [Css.tag "img"]) (by decide +kernel)
  obtain ⟨plain, hplain, hnone⟩ := exists_of_toOption_any (x := Page.documentOf "<p></p>")
    (p := fun document => !Css.exists? [Css.tag "img"] document) (by decide +kernel)
  have hlast : (filesRead coveringDisk coveringPaths).getLast? =
      some (coveringFile "b.html", ("<p></p>" : Text)) := by decide +kernel
  refine ⟨run, hrun, ⟨(coveringFile "a.html", "<img>"), by decide +kernel, document, hdocument,
    imageless, List.mem_singleton_self _, rfl, "image", if_pos himage⟩, fun hnamed => ?_⟩
  have hfails := ((failedChecks_summarize_iff imagelessAudit coveringDisk .empty coveringPaths [] run
    hrun).1 "imageless").1 hnamed
  rw [hlast] at hfails
  obtain ⟨document', hdocument', rule, hrule, -, reason, hreason⟩ := hfails
  obtain rfl : plain = document' := Except.ok.inj (hplain.symm.trans hdocument')
  obtain rfl := List.mem_singleton.1 (List.mem_filter.1 hrule).1
  rw [exists_img_of_imageless hreason] at hnone
  cases hnone

end Audit

end TemplateAudit
