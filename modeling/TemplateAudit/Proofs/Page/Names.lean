import TemplateAudit.Proofs.Page.Closure
import TemplateAudit.Proofs.Text.Parts
import TemplateAudit.Proofs.Text.Trim

/-!
# Names that can be looked for

A partial is looked for in the whole tree when it stands neither beside the file that refers to it nor in
one of the shared directories.  Only a name with two stars in a row cannot be looked for there.  Where no
file of a page uses such a name, the page is put together (`exists_compose`).
-/

namespace TemplateAudit

namespace Page

namespace Views

variable {views : Views} {entry : Path}

/-- Can a partial be looked for by a name? -/
def CanSeek (name : Text) : Prop :=
  ¬"**".toList <:+: name

theorem CanSeek.fileName {name : Text} (h : CanSeek name) :
    CanSeek (fileName (Text.trimChar '/' (Text.trim name))) := by
  intro hstars
  refine h (List.IsInfix.trans ?_ ((Text.trimChar_within '/' _).trans (Text.trim_within name)))
  rcases List.infix_cons_iff.1 hstars with hprefix | hstars
  · exact absurd (List.cons_prefix_cons.1 hprefix).1 (by decide)
  · exact hstars.trans (List.dropWhile_suffix _).isInfix

theorem exists_search? {name : Text} (h : CanSeek name) : ∃ found, views.search? name = .ok found := by
  rw [search?, if_neg (fun hstars => h (Text.occursIn_iff.1 hstars))]
  split <;> exact ⟨_, rfl⟩

theorem exists_partial? {name : Text} (referrer : Path) (h : CanSeek name) :
    ∃ found, views.partial? name referrer = .ok found := by
  unfold partial?
  dsimp only
  split
  · exact ⟨_, rfl⟩
  · split
    · exact ⟨_, rfl⟩
    · split
      · exact ⟨_, rfl⟩
      · exact exists_search? h.fileName

theorem exists_reference? {reference : Template.Reference} (referrer : Path)
    (h : ∀ name ∈ reference, CanSeek name) : ∃ found, views.reference? referrer reference = .ok found := by
  induction reference with
  | nil => exact ⟨none, rfl⟩
  | cons name names ih =>
    obtain ⟨hname, hnames⟩ := List.forall_mem_cons.1 h
    obtain ⟨found, hfound⟩ := @exists_partial? views name referrer hname
    rw [reference?, hfound]
    cases found with
    | none => exact ih hnames
    | some path => exact ⟨some path, rfl⟩

/-- The names that a template refers to can be looked for. -/
def Seekable (source : Text) : Prop :=
  ∀ reference ∈ Template.references source, ∀ name ∈ reference, CanSeek name

/-- **A page is put together when the names in its files can be looked for.** -/
theorem exists_compose (h : ∀ path source, views.PartOf entry path → views.text? path = some source →
    Seekable source) : ∃ page, views.compose entry = .ok page :=
  exists_compose_of_names fun path source hpart hsource reference hreference =>
    exists_reference? path (h path source hpart hsource reference hreference)

end Views

end Page

end TemplateAudit
