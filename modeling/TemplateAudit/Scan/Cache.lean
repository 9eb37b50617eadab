import TemplateAudit.Finding

/-!
# What a run has reported

Pages share layouts and partials, so that one finding may be made more than once in a run.  The cache
of a run holds the keys of the findings that it has reported and the pages that it has examined.
-/

namespace TemplateAudit

namespace Scan

/-- The keys and pages of a run. -/
structure Cache where
  keys : List Text
  pages : List Text
  deriving DecidableEq, Repr

namespace Cache

/-- Nothing is reported yet. -/
def empty : Cache :=
  ⟨[], []⟩

/-- The cache at the start of a run: what earlier runs have left is forgotten. -/
def reset (_left : Cache) : Cache :=
  empty

/-- How many findings are reported. -/
def size (cache : Cache) : Nat :=
  cache.keys.length

/-- Those of some findings that are not reported yet, each once, and the cache with them. -/
def unseen (cache : Cache) : List Finding → List Finding × Cache
  | [] => ([], cache)
  | finding :: findings =>
    if cache.keys.contains finding.key then cache.unseen findings
    else
      let rest := unseen { cache with keys := finding.key :: cache.keys } findings
      (finding :: rest.1, rest.2)

/-- Is a page new in this run?  The cache comes with it. -/
def markPage (cache : Cache) (page : Text) : Bool × Cache :=
  if cache.pages.contains page then (false, cache)
  else (true, { cache with pages := page :: cache.pages })

end Cache

end Scan

end TemplateAudit
