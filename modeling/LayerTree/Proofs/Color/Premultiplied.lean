import LayerTree.Color.Reader
import LayerTree.Proofs.Scalar.Rational

/-!
Premultiplied colours.

No channel of a colour is above its alpha. This is so for every colour that is read, because each
step from fractions to bytes keeps the order of channel and alpha, and it stays so between two such
colours.
-/

set_option autoImplicit false
set_option relaxedAutoImplicit false

namespace LayerTree.Color

/-- No channel is above alpha. -/
structure Premultiplied (c : Color) : Prop where
  r : c.r ≤ c.a
  g : c.g ≤ c.a
  b : c.b ≤ c.a

theorem premultiplied_black : black.Premultiplied := ⟨by decide, by decide, by decide⟩

theorem premultiplied_transparent : transparent.Premultiplied := ⟨by decide, by decide, by decide⟩

theorem byteOfUnit_mono {x y : Rat} (h : x ≤ y) : byteOfUnit x ≤ byteOfUnit y := by
  have clamped : Scalar.clamp 0 1 x ≤ Scalar.clamp 0 1 y := Rational.clamp_mono (by decide) h
  have scaled : Scalar.clamp 0 1 x * 255.0 ≤ Scalar.clamp 0 1 y * 255.0 :=
    mul_le_mul_of_nonneg_right clamped (by norm_num)
  exact Rational.toUInt8_mono (Int.cast_le.mpr (Rational.round_mono scaled))

theorem premultiplied_ofUnit (r g b a : Rat) : (ofUnit r g b a).Premultiplied := by
  have channel (x : Rat) :
      byteOfUnit (Scalar.clamp 0 1 x * Scalar.clamp 0 1 a) ≤ byteOfUnit (Scalar.clamp 0 1 a) := by
    have alpha := (Rational.clamp_mem (by decide : (0 : Rat) ≤ 1) a).1
    have fraction := (Rational.clamp_mem (by decide : (0 : Rat) ≤ 1) x).2
    exact byteOfUnit_mono (mul_le_of_le_one_left alpha fraction)
  exact ⟨channel r, channel g, channel b⟩

theorem premultiplied_of_read? {value : Option Json.Value} {c : Color}
    (h : read? Rat value = some c) : c.Premultiplied := by
  obtain ⟨channels, -, rfl⟩ := Option.map_eq_some_iff.mp h
  exact premultiplied_ofUnit ..

theorem premultiplied_readD (value : Option Json.Value) {default : Color}
    (h : default.Premultiplied) : (readD Rat value default).Premultiplied := by
  unfold readD
  cases read : read? Rat value with
  | none => exact h
  | some c => exact premultiplied_of_read? read

theorem lerpByte_mono {a b c d : UInt8} {t : Rat} (low : 0 ≤ t) (high : t ≤ 1) (start : a ≤ c)
    (finish : b ≤ d) : lerpByte a b t ≤ lerpByte c d t := by
  have start : (a.toNat : Rat) ≤ c.toNat := Nat.cast_le.mpr (UInt8.le_iff_toNat_le.mp start)
  have finish : (b.toNat : Rat) ≤ d.toNat := Nat.cast_le.mpr (UInt8.le_iff_toNat_le.mp finish)
  have between : (a.toNat : Rat) + (b.toNat - a.toNat) * t ≤ c.toNat + (d.toNat - c.toNat) * t := by
    have before := mul_le_mul_of_nonneg_right start (sub_nonneg.mpr high)
    have after := mul_le_mul_of_nonneg_right finish low
    linarith
  have rounded := Int.cast_le (R := Rat).mpr (Rational.round_mono between)
  exact Rational.toUInt8_mono (Rational.clamp_mono (by norm_num) rounded)

theorem Premultiplied.lerp {c d : Color} (hc : c.Premultiplied) (hd : d.Premultiplied) {t : Rat}
    (low : 0 ≤ t) (high : t ≤ 1) : (c.lerp d t).Premultiplied :=
  ⟨lerpByte_mono low high hc.r hd.r, lerpByte_mono low high hc.g hd.g,
    lerpByte_mono low high hc.b hd.b⟩

end LayerTree.Color
