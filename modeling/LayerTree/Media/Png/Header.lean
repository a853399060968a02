import LayerTree.Media.Bytes

/-!
What the first chunk of a PNG file says: the size of the image and the form of its pixels.
-/

set_option autoImplicit false
set_option relaxedAutoImplicit false

namespace LayerTree.Media.Png

open Scan

/-- What the samples of a pixel stand for. -/
inductive ColorKind where
  | gray | rgb | indexed | grayAlpha | rgba
  deriving DecidableEq

namespace ColorKind

def ofNumber : UInt8 → Option ColorKind
  | 0 => some gray
  | 2 => some rgb
  | 3 => some indexed
  | 4 => some grayAlpha
  | 6 => some rgba
  | _ => none

/-- The numbers of bits that a sample may have. -/
def depths : ColorKind → List UInt8
  | gray => [1, 2, 4, 8, 16]
  | indexed => [1, 2, 4, 8]
  | _ => [8, 16]

/-- The channels of a pixel when it is shown, in which an index is replaced by its colour. -/
def channels (transparent : Bool) : ColorKind → Nat
  | gray => if transparent then 2 else 1
  | grayAlpha => 2
  | rgba => 4
  | _ => if transparent then 4 else 3

end ColorKind

structure Header where
  width : Nat
  height : Nat
  depth : UInt8
  color : ColorKind
  deriving DecidableEq

/-- A header with a size and a form that an image may have. -/
def header : Scan Header := do
  let width ← longBigEndian
  let height ← longBigEndian
  let depth ← byte
  let color ← (ColorKind.ofNumber (← byte) : Option ColorKind)
  let compression ← byte
  let filter ← byte
  let interlace ← byte
  require (width != 0 && height != 0)
  require (color.depths.contains depth)
  require (compression == 0 && filter == 0 && interlace ≤ 1)
  pure ⟨width, height, depth, color⟩

end LayerTree.Media.Png
