import LayerTree.Scalar.Rational
import Mathlib.Data.Rat.Floor
import Mathlib.Tactic.Linarith

/-!
Clamping, rounding and casting of exact numbers.

None of them changes the order of two numbers. The remainder of a division, as a fraction of the
divisor, lies in the unit interval.
-/

set_option autoImplicit false
set_option relaxedAutoImplicit false

namespace LayerTree.Rational

theorem isFinite (x : Rat) : Scalar.isFinite x = true := by simp [Scalar.isFinite]

theorem round_mono {x y : Rat} (h : x ≤ y) : round x ≤ round y := by
  unfold round
  by_cases neg : x < 0
  · rw [if_pos neg]
    by_cases neg' : y < 0
    · rw [if_pos neg']
      have less : x - 1 / 2 ≤ y - 1 / 2 := by linarith
      exact Rat.ceil_le_iff.mpr (less.trans Rat.le_ceil)
    · rw [if_neg neg']
      have low : (x - 1 / 2).ceil ≤ 0 := Rat.ceil_le_iff.mpr (by push_cast; linarith)
      have high : 0 ≤ (y + 1 / 2).floor := Rat.le_floor_iff.mpr (by push_cast; linarith)
      exact low.trans high
  · rw [if_neg neg, if_neg (by linarith)]
    exact Rat.floor_monotone (by linarith)

theorem round_natCast (n : Nat) : round (n : Rat) = n := by
  have nonneg : ¬(n : Rat) < 0 := not_lt.mpr (Nat.cast_nonneg n)
  have whole : ⌊(n : Rat) + 1 / 2⌋ = n := by
    refine Int.floor_eq_iff.mpr ⟨?_, ?_⟩ <;> push_cast <;> linarith
  unfold round
  rw [if_neg nonneg]
  exact whole

theorem scalarRound_natCast (n : Nat) : Scalar.round (n : Rat) = n := by
  change ((round (n : Rat) : Int) : Rat) = n
  rw [round_natCast]
  rfl

theorem toNat_toUInt64 (x : Rat) :
    (toUInt64 x).toNat = min (UInt64.size - 1) x.floor.toNat :=
  UInt64.toNat_ofNat_of_lt' (Nat.lt_of_le_of_lt (Nat.min_le_left _ _) (by decide))

theorem toNat_toUInt8 (x : Rat) :
    (Scalar.toUInt8 x).toNat = min (UInt8.size - 1) (min (UInt64.size - 1) x.floor.toNat) := by
  rw [← toNat_toUInt64]
  exact UInt8.toNat_ofNat_of_lt' (Nat.lt_of_le_of_lt (Nat.min_le_left _ _) (by decide))

theorem toUInt8_toNat (b : UInt8) : Scalar.toUInt8 (b.toNat : Rat) = b := by
  have floor : ((b.toNat : Nat) : Rat).floor = b.toNat := Int.floor_natCast (R := Rat) _
  have small : b.toNat < 256 := b.toNat_lt
  apply UInt8.toNat_inj.mp
  rw [toNat_toUInt8, floor, Int.toNat_natCast]
  simp only [UInt8.size, UInt64.size]
  omega

theorem toUInt8_mono {x y : Rat} (h : x ≤ y) : Scalar.toUInt8 x ≤ Scalar.toUInt8 y := by
  have floors : x.floor.toNat ≤ y.floor.toNat := Int.toNat_le_toNat (Rat.floor_monotone h)
  rw [UInt8.le_iff_toNat_le, toNat_toUInt8, toNat_toUInt8]
  omega

variable {lo hi x y : Rat}

theorem clamp_mem (bounds : lo ≤ hi) (x : Rat) :
    lo ≤ Scalar.clamp lo hi x ∧ Scalar.clamp lo hi x ≤ hi := by
  unfold Scalar.clamp
  by_cases below : x < lo
  · rw [if_pos below]
    exact ⟨le_rfl, bounds⟩
  · rw [if_neg below]
    by_cases above : hi < x
    · rw [if_pos above]
      exact ⟨bounds, le_rfl⟩
    · rw [if_neg above]
      exact ⟨not_lt.mp below, not_lt.mp above⟩

theorem clamp_of_mem (low : lo ≤ x) (high : x ≤ hi) : Scalar.clamp lo hi x = x := by
  rw [Scalar.clamp, if_neg low.not_gt, if_neg high.not_gt]

theorem clamp_mono (bounds : lo ≤ hi) (h : x ≤ y) :
    Scalar.clamp lo hi x ≤ Scalar.clamp lo hi y := by
  unfold Scalar.clamp
  split_ifs <;> linarith

theorem rem_div_eq_fract (hx : 0 ≤ x) (hy : 0 < y) : rem x y / y = Int.fract (x / y) := by
  have quotient : 0 ≤ x / y := div_nonneg hx hy.le
  have whole : trunc (x / y) = ⌊x / y⌋ := if_neg quotient.not_gt
  unfold rem
  rw [whole, sub_div, mul_div_cancel_left₀ _ hy.ne', Int.self_sub_floor]

theorem rem_div_mem (hx : 0 ≤ x) (hy : 0 < y) : 0 ≤ rem x y / y ∧ rem x y / y < 1 := by
  rw [rem_div_eq_fract hx hy]
  exact ⟨Int.fract_nonneg _, Int.fract_lt_one _⟩

end LayerTree.Rational
