import LayerTree.Scalar
import LayerTree.Text

/-!
An estimate of the height of wrapped text from an average glyph.

Every line of the text takes as many lines as its width needs. The lines are counted in 64 bits.
-/

set_option autoImplicit false
set_option relaxedAutoImplicit false

namespace LayerTree.Text

variable {α : Type} [Scalar α]

/-- The width of an average glyph, as a fraction of the font size. -/
def advanceRatio : α := 0.5

/-- The height of a line, as a fraction of the font size. -/
def lineHeightRatio : α := 1.2

/-- How many lines a text of the given width takes; one when there is no width to wrap to. -/
def wrappedLines (width maxWidth : α) : UInt64 :=
  if Scalar.isFinite maxWidth && decide (0 < maxWidth) && decide (maxWidth < width) then
    Scalar.toUInt64 (Scalar.ceil (width / maxWidth))
  else 1

def lineCount (text : List Char) (fontSize maxWidth : α) : UInt64 :=
  ((splitAll '\n' text).map fun line =>
    wrappedLines ((line.length : α) * (advanceRatio * fontSize)) maxWidth).foldl (· + ·) 0

/-- The height of a text wrapped to a width; nothing for a font without a size. -/
def estimatedHeight (text : String) (fontSize maxWidth : α) : α :=
  if Scalar.isFinite fontSize && decide (0 < fontSize) then
    ((lineCount text.toList fontSize maxWidth).toNat : α) * lineHeightRatio * fontSize
  else 0

end LayerTree.Text
