import TemplateAudit.Rule.Basic

/-!
# Images have a text to be shown instead

An image without the attribute `alt` is reported; an empty one marks an image that says nothing and
is right.
-/

namespace TemplateAudit

namespace Rule

namespace Images

/-- The name of the rule. -/
def id : Text :=
  "image_alt_text"

/-- The finding on an image. -/
def undescribed (origin : Origin) (image : Html.Place) : Finding :=
  report id "Image missing alt attribute" (describe image origin.textLimit []) origin "1.1.1"
    ("Add an alt attribute describing the image:\n\n" ++
      "<%= image_tag \"logo.png\", alt: \"Company logo\" %>\n\n" ++
      "Use alt: \"\" for purely decorative images.")
    .error

/-- The findings on a document. -/
def examine (document : Html.Document) (origin : Origin) : List Finding :=
  ((Css.select [Css.tag "img"] document).filter fun image => (image.attr? "alt").isNone).map
    (undescribed origin)

end Images

/-- The rule that images have a text to be shown instead. -/
def imageAltText : Rule :=
  ⟨Images.id, "Images have alt text", fun document origin => .ok (Images.examine document origin),
    true, false, ["1.1.1"]⟩

end Rule

end TemplateAudit
