import ProcessingCatalog.JavaScript.Utf8
import ProcessingCatalog.Library.IndexTuple

/-!
# The size of a text in an index

A text is kept as UTF-8, and compressed where that saves enough. Which texts are
compressed, and to how many bytes, is a parameter: a function of the text, so that
the entries of several indexes hold it in one form.
-/

namespace ProcessingCatalog

open IndexTuple

/-- The bytes of the texts that are kept compressed. -/
structure TextSizes where
  compressed : JsString → Option ℕ
  saves : ∀ text bytes, compressed text = some bytes → bytes + 6 < utf8Length text

namespace TextSizes

def incompressible : TextSizes := ⟨fun _ => none, nofun⟩

variable (sizes : TextSizes)

def stored (text : JsString) : Attribute :=
  match sizes.compressed text with
  | some bytes => .compressed bytes
  | none => .varying (utf8Length text)

theorem within_stored (text : JsString) :
    (sizes.stored text).Within (.varying (utf8Length text)) := by
  unfold stored
  cases isCompressed : sizes.compressed text with
  | some bytes => exact Attribute.within_compressed (sizes.saves text bytes isCompressed).le
  | none => exact .refl _

/-- Texts that fit as they are fit when they are compressed. -/
theorem fits_stored {texts : List JsString}
    (fits : Fits (texts.map fun text => .varying (utf8Length text))) :
    Fits (texts.map sizes.stored) := by
  refine Fits.of_within ?_ fits
  rw [List.forall₂_map_left_iff, List.forall₂_map_right_iff]
  exact List.forall₂_same.mpr fun text _ => sizes.within_stored text

end TextSizes

end ProcessingCatalog
