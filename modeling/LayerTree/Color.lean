import LayerTree.Scalar

/-!
Colours as four bytes, the first three already multiplied by the fourth.
-/

set_option autoImplicit false
set_option relaxedAutoImplicit false

namespace LayerTree

/-- A colour with its channels multiplied by its alpha. -/
structure Color where
  r : UInt8
  g : UInt8
  b : UInt8
  a : UInt8
  deriving DecidableEq, Inhabited

namespace Color

def black : Color := ⟨0, 0, 0, 255⟩

def transparent : Color := ⟨0, 0, 0, 0⟩

/-- A channel times alpha, both out of 255, to the nearest byte. -/
def premultiply (channel alpha : UInt8) : UInt8 :=
  UInt8.ofNat ((channel.toNat * alpha.toNat + 127) / 255)

def ofStraight (r g b a : UInt8) : Color :=
  ⟨premultiply r a, premultiply g a, premultiply b a, a⟩

variable {α : Type} [Scalar α]

/-- A fraction of 255 to the nearest byte. -/
def byteOfUnit (x : α) : UInt8 :=
  Scalar.toUInt8 (Scalar.round (Scalar.clamp 0 1 x * 255.0))

/-- The colour whose channels are given as fractions; all are clamped to the unit interval before
they are multiplied by alpha. -/
def ofUnit (r g b a : α) : Color :=
  let alpha := Scalar.clamp 0 1 a
  let channel (x : α) : UInt8 := byteOfUnit (Scalar.clamp 0 1 x * alpha)
  ⟨channel r, channel g, channel b, byteOfUnit alpha⟩

/-- The byte at fraction `t` of the way from `a` to `b`. -/
def lerpByte (a b : UInt8) (t : α) : UInt8 :=
  let start : α := (a.toNat : α)
  let finish : α := (b.toNat : α)
  Scalar.toUInt8 (Scalar.clamp 0 255.0 (Scalar.round (start + (finish - start) * t)))

def lerp (a b : Color) (t : α) : Color :=
  ⟨lerpByte a.r b.r t, lerpByte a.g b.g t, lerpByte a.b b.b t, lerpByte a.a b.a t⟩

end Color

end LayerTree
