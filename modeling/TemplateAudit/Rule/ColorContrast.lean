import TemplateAudit.Rule.Basic

/-!
# Text stands out from its background

Contrast needs the colours that are shown, which a template does not have; the rule reports nothing
and is switched off unless asked for.
-/

namespace TemplateAudit

namespace Rule

/-- The rule that text stands out from its background. -/
def colorContrast : Rule :=
  ⟨"color_contrast", "Text colour contrast", fun _ _ => .ok [], false, false, ["1.4.3"]⟩

end Rule

end TemplateAudit
