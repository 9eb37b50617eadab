import TemplateAudit.Config.File
import TemplateAudit.Proofs.Json.Fields
import TemplateAudit.Proofs.Json.LongInteger
import TemplateAudit.Proofs.Shape
import TemplateAudit.Text.Stored

/-!
# What is loaded from a configuration file

Whatever bytes a configuration file holds, and whether there is a file at all, `loads_given_or_default` says
what comes of loading it.  Bytes that are no text and an integer with too many digits stop the loading, of
the settings as well as of the configuration of the rules, and the latter is also stopped by rules to be
ignored that have no items.  All else gives what the fields of the object say (`Settings.IsGivenBy`,
`RuleConfig.IsGivenBy`), and the defaults if there is no object or its fields say nothing.
-/

namespace TemplateAudit

open Outcome Shape

/-! ## Settings -/

namespace Settings

/-- The settings that the fields of an object give. -/
structure IsGivenBy (fields : List (Text × Json)) (settings : Settings) : Prop where
  extensions : Gives (SaysList SaysText) default.extensions
    (dataOf fields "template_extensions") settings.extensions
  layoutsDir : Gives SaysText default.layoutsDir (dataOf fields "layouts_dir") settings.layoutsDir
  defaultLayout : Gives SaysText default.defaultLayout (dataOf fields "default_layout")
    settings.defaultLayout
  sharedDirs : Gives (SaysList SaysText) default.sharedDirs (dataOf fields "shared_dirs")
    settings.sharedDirs
  maxDepth : Gives SaysPositive default.maxDepth (dataOf fields "max_depth") settings.maxDepth
  maxFiles : Gives SaysPositive default.maxFiles (dataOf fields "max_files") settings.maxFiles
  stateFile : Gives SaysText default.stateFile (dataOf fields "state_file") settings.stateFile
  composePages : Gives SaysSwitch default.composePages (dataOf fields "compose_pages")
    settings.composePages
  ignoreWarnings : Gives SaysSwitch default.ignoreWarnings (dataOf fields "ignore_warnings")
    settings.ignoreWarnings
  textLimit : Gives SaysPositive default.textLimit (dataOf fields "text_limit") settings.textLimit

theorem ofFields_eq_valid {fields : List (Text × Json)} {settings : Settings} :
    ofFields fields = .valid settings ↔ IsGivenBy fields settings := by
  have htexts := reads_string.list
  constructor
  · intro h
    obtain ⟨_, textLimit, h9, htextLimit, rfl⟩ := Checked.seq_eq_valid.1 h
    obtain ⟨_, ignoreWarnings, h8, hignoreWarnings, rfl⟩ := Checked.seq_eq_valid.1 h9
    obtain ⟨_, composePages, h7, hcomposePages, rfl⟩ := Checked.seq_eq_valid.1 h8
    obtain ⟨_, stateFile, h6, hstateFile, rfl⟩ := Checked.seq_eq_valid.1 h7
    obtain ⟨_, maxFiles, h5, hmaxFiles, rfl⟩ := Checked.seq_eq_valid.1 h6
    obtain ⟨_, maxDepth, h4, hmaxDepth, rfl⟩ := Checked.seq_eq_valid.1 h5
    obtain ⟨_, sharedDirs, h3, hsharedDirs, rfl⟩ := Checked.seq_eq_valid.1 h4
    obtain ⟨_, defaultLayout, h2, hdefaultLayout, rfl⟩ := Checked.seq_eq_valid.1 h3
    obtain ⟨_, layoutsDir, h1, hlayoutsDir, rfl⟩ := Checked.seq_eq_valid.1 h2
    obtain ⟨extensions, hextensions, rfl⟩ := Checked.map_eq_valid.1 h1
    exact ⟨htexts.withDefault.1 hextensions, reads_string.withDefault.1 hlayoutsDir,
      reads_string.withDefault.1 hdefaultLayout, htexts.withDefault.1 hsharedDirs,
      reads_positive.withDefault.1 hmaxDepth, reads_positive.withDefault.1 hmaxFiles,
      reads_string.withDefault.1 hstateFile, reads_switch.withDefault.1 hcomposePages,
      reads_switch.withDefault.1 hignoreWarnings, reads_positive.withDefault.1 htextLimit⟩
  · intro h
    rw [ofFields, htexts.withDefault.2 h.extensions, reads_string.withDefault.2 h.layoutsDir,
      reads_string.withDefault.2 h.defaultLayout, htexts.withDefault.2 h.sharedDirs,
      reads_positive.withDefault.2 h.maxDepth, reads_positive.withDefault.2 h.maxFiles,
      reads_string.withDefault.2 h.stateFile, reads_switch.withDefault.2 h.composePages,
      reads_switch.withDefault.2 h.ignoreWarnings, reads_positive.withDefault.2 h.textLimit]
    rfl

end Settings

/-! ## Rules -/

namespace RuleConfig

/-- A rule to be ignored is given by its name alone, or by an object with its name, perhaps a reason and
perhaps a comment. -/
inductive SaysExemption : Json → Exemption → Prop
  | name (rule : Text) : SaysExemption (.str rule) ⟨rule, noReason, none⟩
  | object {fields : List (Text × Json)} {exemption : Exemption}
      (hrule : dataOf fields "rule" = some (.str exemption.rule))
      (hreason : Gives SaysText noReason (dataOf fields "reason") exemption.reason)
      (hcomment : Gives (SaysOrNull SaysText) none (dataOf fields "comment") exemption.comment) :
      SaysExemption (.obj fields) exemption

theorem reads_exemption : Reads exemption SaysExemption := by
  intro data found
  constructor
  · intro h
    cases data with
    | str rule => exact Checked.valid.inj h ▸ .name rule
    | obj fields =>
      obtain ⟨_, comment, h2, hcomment, rfl⟩ := Checked.seq_eq_valid.1 h
      obtain ⟨_, reason, h1, hreason, rfl⟩ := Checked.seq_eq_valid.1 h2
      obtain ⟨rule, hrule, rfl⟩ := Checked.map_eq_valid.1 h1
      obtain ⟨_, hget, ⟨⟩⟩ := reads_string.required.1 hrule
      exact .object hget (reads_string.withDefault.1 hreason) (reads_string.orNull.withDefault.1 hcomment)
    | _ => cases h
  · intro h
    cases h with
    | name => rfl
    | object hrule hreason hcomment =>
      rw [exemption, record, reads_string.required.2 ⟨_, hrule, .text _⟩,
        reads_string.withDefault.2 hreason, reads_string.orNull.withDefault.2 hcomment]
      · rfl
      · simp

/-- The items of a value; one that counts as empty has none. -/
inductive HasItems : Json → List Json → Prop
  | empty {data : Json} (h : data.isFalsy = true) : HasItems data []
  | list (items : List Json) : HasItems (.arr items) items
  | text (s : Text) : HasItems (.str s) (s.map fun c => .str [c])
  | object (fields : List (Text × Json)) : HasItems (.obj fields) (fields.map fun field => .str field.1)

/-- A number or a truth value that does not count as empty. -/
inductive WithoutItems : Json → Prop
  | bool : WithoutItems (.bool true)
  | int {n : Int} (h : n ≠ 0) : WithoutItems (.int n)
  | float {x : Decimal.Double} (h : (Json.float x).isFalsy = false) : WithoutItems (.float x)

theorem WithoutItems.isFalsy {data : Json} (h : WithoutItems data) : data.isFalsy = false := by
  cases h with
  | bool => rfl
  | int hn => simp [Json.isFalsy, hn]
  | float hx => exact hx

theorem items?_eq_some {data : Json} {items : List Json} :
    items? data = some items ↔ HasItems data items := by
  unfold items?
  constructor
  · intro h
    split at h
    · rename_i hempty
      exact Option.some.inj h ▸ .empty hempty
    · cases data with
      | arr items => exact Option.some.inj h ▸ .list items
      | str s => exact Option.some.inj h ▸ .text s
      | obj fields => exact Option.some.inj h ▸ .object fields
      | _ => cases h
  · intro h
    cases h with
    | empty hempty => rw [if_pos hempty]
    | list | text | object =>
      -- an empty list, text or object has no items either way
      split
      · rename_i hempty
        simpa [Json.isFalsy] using hempty
      · rfl

theorem items?_eq_none {data : Json} : items? data = none ↔ WithoutItems data := by
  unfold items?
  constructor
  · intro h
    split at h
    · cases h
    · rename_i hfilled
      cases data with
      | bool holds =>
        cases holds with
        | true => exact .bool
        | false => exact absurd rfl hfilled
      | int n => exact .int (by simpa [Json.isFalsy] using hfilled)
      | float x => exact .float (Bool.eq_false_iff.2 hfilled)
      | null => exact absurd rfl hfilled
      | _ => cases h
  · intro h
    rw [if_neg (Bool.eq_false_iff.1 h.isFalsy)]
    cases h <;> rfl

/-- The rules to be ignored are given by the items of a value. -/
def SaysExemptions (data : Json) (exemptions : List Exemption) : Prop :=
  ∃ items, HasItems data items ∧ List.Forall₂ SaysExemption items exemptions

/-- The configuration that the data for the checks and for the rules to be ignored gives. -/
structure IsGivenBy (checks ignored : Option Json) (config : RuleConfig) : Prop where
  checks : Gives (SaysTable SaysSwitch) [] checks config.checks
  ignored : Gives SaysExemptions [] ignored config.ignored

variable {fields : List (Text × Json)} {config : RuleConfig}

theorem gives_saysExemptions {data : Option Json} {exemptions : List Exemption} :
    Gives SaysExemptions [] data exemptions ↔ SaysExemptions (data.getD .null) exemptions := by
  cases data with
  | some data => exact Iff.rfl
  | none =>
    constructor
    · rintro rfl
      exact ⟨[], .empty rfl, .nil⟩
    · rintro ⟨items, ⟨⟩, ⟨⟩⟩
      rfl

/-- Fields give a configuration when both of them say something. -/
theorem ofFields_eq_ok : ofFields fields = .ok config ↔
    IsGivenBy (dataOf fields "checks") (dataOf fields "ignored_rules") config := by
  constructor
  · intro h
    unfold ofFields at h
    split at h
    · cases h
    · rename_i items hitems
      simp only at h
      split at h
      · rename_i found hfound
        obtain rfl := Except.ok.inj h
        obtain ⟨_, ignored, hfirst, hignored, rfl⟩ := Checked.seq_eq_valid.1 hfound
        obtain ⟨checks, hchecks, rfl⟩ := Checked.map_eq_valid.1 hfirst
        obtain ⟨hsaid⟩ := (reads_exemption.list _ _).1 (Checked.within_eq_valid.1 hignored)
        exact ⟨reads_switch.table.withDefault.1 hchecks,
          gives_saysExemptions.2 ⟨items, items?_eq_some.1 hitems, hsaid⟩⟩
      · cases h
  · rintro ⟨hchecks, hignored⟩
    obtain ⟨items, hitems, hsaid⟩ := gives_saysExemptions.1 hignored
    have hlist := (reads_exemption.list _ _).2 (.list hsaid)
    rw [dataOf] at hitems
    simp only [ofFields, items?_eq_some.2 hitems, reads_switch.table.withDefault.2 hchecks, hlist]
    rfl

/-- Rules to be ignored that have no items stop the reading. -/
theorem ofFields_eq_withoutItems : ofFields fields = .error .withoutItems ↔
    ∃ data, dataOf fields "ignored_rules" = some data ∧ WithoutItems data := by
  have hitems : ofFields fields = .error .withoutItems ↔
      items? ((dataOf fields "ignored_rules").getD .null) = none := by
    unfold ofFields dataOf
    cases items? ((Pairs.get? ("ignored_rules" : Text) fields).getD .null) with
    | none => simp
    | some items =>
      simp only [reduceCtorEq, iff_false]
      split <;> simp
  rw [hitems, items?_eq_none]
  cases dataOf fields "ignored_rules" with
  | none => exact ⟨fun h => (nomatch h), fun ⟨_, h, _⟩ => (nomatch h)⟩
  | some data => simp

end RuleConfig

/-! ## Files -/

namespace Config

variable {content : Option ByteArray} {fields : List (Text × Json)} {reason : Failure}

/-- What stops the loading: bytes that are no text, or an integer in the text that is too long. -/
inductive Stops : Option ByteArray → Failure → Prop
  | notText {bytes : ByteArray} (h : ¬bytes.IsValidUTF8) : Stops (some bytes) .notText
  | hugeInteger {bytes : ByteArray} {s : Text} (htext : Text.ofFile? bytes = some s)
      (hread : Json.read s = .error .hugeInteger) (hlong : Json.HasLongInteger s) :
      Stops (some bytes) .hugeInteger

/-- A file holds the text of an object with some fields, the last entry for each name. -/
def HoldsFields (content : Option ByteArray) (fields : List (Text × Json)) : Prop :=
  ∃ bytes s entries, content = some bytes ∧ Text.ofFile? bytes = some s ∧
    Json.entries? s = some entries ∧ fields = Pairs.ofEntries entries

theorem Stops.fieldsIn?_eq (h : Stops content reason) : fieldsIn? content = .error reason := by
  cases h with
  | notText h => simp only [fieldsIn?, Text.ofFile?_eq_none.2 h]
  | hugeInteger htext hread _ => simp only [fieldsIn?, htext, hread]

theorem HoldsFields.fieldsIn?_eq (h : HoldsFields content fields) :
    fieldsIn? content = .ok (some fields) := by
  obtain ⟨bytes, s, entries, rfl, htext, hentries, rfl⟩ := h
  simp only [fieldsIn?, htext, Json.read_eq_obj.2 ⟨entries, hentries, rfl⟩]

/-- What is neither stopped nor an object is as good as no file. -/
theorem fieldsIn?_eq_none (hstops : ∀ reason, ¬Stops content reason)
    (hfields : ∀ fields, ¬HoldsFields content fields) : fieldsIn? content = .ok none := by
  cases content with
  | none => rfl
  | some bytes =>
    cases htext : Text.ofFile? bytes with
    | none => exact absurd (.notText (Text.ofFile?_eq_none.1 htext)) (hstops _)
    | some s =>
      simp only [fieldsIn?, htext]
      split
      · rename_i fields hread
        obtain ⟨entries, hentries, rfl⟩ := Json.read_eq_obj.1 hread
        exact absurd ⟨bytes, s, entries, rfl, htext, hentries, rfl⟩ (hfields _)
      · rfl
      · rfl
      · rename_i hread
        exact absurd (.hugeInteger htext hread (Json.hasLongInteger_of_read hread)) (hstops _)

/-- The data of a field, unless it counts as empty. -/
def filled? (fields : List (Text × Json)) (name : Text) : Option Json :=
  (dataOf fields name).filter fun data => !data.isFalsy

theorem dataOf_filledField (name other : Text) (fields : List (Text × Json)) :
    dataOf (filledField name fields) other = if name = other then filled? fields name else none := by
  rw [filledField, filled?, dataOf, dataOf]
  cases Pairs.get? name fields with
  | none => simp
  | some data => cases hempty : data.isFalsy <;> simp [Pairs.get?, Option.filter, hempty]

theorem dataOf_filledFields (fields : List (Text × Json)) (name : Text) :
    dataOf (filledField "checks" fields ++ filledField "ignored_rules" fields) name =
      if name = "checks" ∨ name = "ignored_rules" then filled? fields name else none := by
  have happend : dataOf (filledField "checks" fields ++ filledField "ignored_rules" fields) name =
      (dataOf (filledField "checks" fields) name).or (dataOf (filledField "ignored_rules" fields) name) :=
    Pairs.get?_append name _ _
  rw [happend, dataOf_filledField, dataOf_filledField]
  by_cases hchecks : name = "checks"
  · subst hchecks
    have hne : ("ignored_rules" : Text) ≠ "checks" := by decide
    rw [if_pos rfl, if_neg hne, if_pos (.inl rfl), Option.or_none]
  · rw [if_neg (Ne.symm hchecks), Option.none_or]
    by_cases hignored : name = "ignored_rules"
    · rw [if_pos hignored.symm, if_pos (.inr hignored), hignored]
    · rw [if_neg (Ne.symm hignored), if_neg (not_or.2 ⟨hchecks, hignored⟩)]

/-- Something that is said, and a fallback where nothing is. -/
def SaidOr {α : Type} (Says : α → Prop) (fallback a : α) : Prop :=
  Says a ∨ a = fallback ∧ ∀ other, ¬Says other

theorem exists_settingsIn (h : fieldsIn? content = .ok (some fields)) :
    ∃ settings, settingsIn content = .ok settings ∧
      SaidOr (Settings.IsGivenBy fields) .default settings := by
  simp only [settingsIn, h, ok_bind]
  cases hfound : Settings.ofFields fields with
  | valid settings => exact ⟨settings, rfl, .inl (Settings.ofFields_eq_valid.1 hfound)⟩
  | invalid problems =>
    refine ⟨.default, rfl, .inr ⟨rfl, fun other hother => ?_⟩⟩
    rw [Settings.ofFields_eq_valid.2 hother] at hfound
    cases hfound

theorem rulesIn_of_withoutItems (h : fieldsIn? content = .ok (some fields)) {data : Json}
    (hdata : dataOf fields "ignored_rules" = some data) (hitems : RuleConfig.WithoutItems data) :
    rulesIn content = .error .withoutItems := by
  have hfilled : filled? fields "ignored_rules" = some data := by
    rw [filled?, hdata, Option.filter_some, hitems.isFalsy]
    rfl
  have hfound := RuleConfig.ofFields_eq_withoutItems.2
    ⟨data, (dataOf_filledFields fields _).trans ((if_pos (.inr rfl)).trans hfilled), hitems⟩
  simp only [rulesIn, h, ok_bind, hfound]
  rfl

theorem exists_rulesIn (h : fieldsIn? content = .ok (some fields))
    (hitems : ∀ data, dataOf fields "ignored_rules" = some data → ¬RuleConfig.WithoutItems data) :
    ∃ config, rulesIn content = .ok config ∧
      SaidOr (RuleConfig.IsGivenBy (filled? fields "checks") (filled? fields "ignored_rules"))
        .default config := by
  have hchecks := (dataOf_filledFields fields "checks").trans (if_pos (.inl rfl))
  have hignored := (dataOf_filledFields fields "ignored_rules").trans (if_pos (.inr rfl))
  have hgives : ∀ config, RuleConfig.ofFields
      (filledField "checks" fields ++ filledField "ignored_rules" fields) = .ok config ↔
        RuleConfig.IsGivenBy (filled? fields "checks") (filled? fields "ignored_rules") config :=
    fun config => hchecks ▸ hignored ▸ RuleConfig.ofFields_eq_ok
  simp only [rulesIn, h, ok_bind]
  cases hfound : RuleConfig.ofFields
      (filledField "checks" fields ++ filledField "ignored_rules" fields) with
  | ok config => exact ⟨config, rfl, .inl ((hgives config).1 hfound)⟩
  | error refusal =>
    cases refusal with
    | invalid problems =>
      refine ⟨.default, rfl, .inr ⟨rfl, fun other hother => ?_⟩⟩
      rw [(hgives other).2 hother] at hfound
      cases hfound
    | withoutItems =>
      obtain ⟨data, hdata, hwithout⟩ := RuleConfig.ofFields_eq_withoutItems.1 hfound
      rw [hignored, filled?] at hdata
      exact absurd hwithout (hitems data (Option.filter_eq_some_iff.1 hdata).1)

/-- A byte that is no text stops the loading, and so does a number for the rules to be ignored. -/
example : rulesIn (some ⟨#[0xFF]⟩) = .error .notText ∧
    rulesIn (some (Text.toBytes "\x7b\"ignored_rules\": 5\x7d")) = .error .withoutItems := by
  decide +kernel

/-- One field with something wrong in it leaves none of the others. -/
example : settingsIn (some (Text.toBytes "\x7b\"layouts_dir\": \"l\", \"max_depth\": 0\x7d")) =
    .ok .default := by
  decide +kernel

end Config

end TemplateAudit
