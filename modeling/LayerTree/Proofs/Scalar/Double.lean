import LayerTree.Scalar.Double
import Mathlib.Algebra.Ring.Nat

/-!
The integer part of floats above one.

A float above one is infinite, or a mantissa times a power of two that is at least `2^(-52)`.
Shifting the mantissa to the units drops less than all of it, so at least one is left.
-/

set_option autoImplicit false
set_option relaxedAutoImplicit false

namespace LayerTree.Double

open Float.Model Float.Model.UnpackedFloat

theorem shiftRight_mantissa (em : ExtendedMantissa) (k : Nat) :
    (em >>> k).mantissa = em.mantissa / 2 ^ k := by
  induction k with
  | zero => exact (Nat.div_one em.mantissa).symm
  | succ k ih =>
    change (em >>> k).mantissa / 2 = _
    rw [ih, Nat.div_div_eq_div_mul, ← Nat.pow_succ]

theorem roundToInt_positive (m : Nat) (e : Int) :
    roundToInt .positive m e = ((m * 2 ^ e.toNat / 2 ^ (-(e - e.toNat)).toNat : Nat) : Int) := by
  have shifted := shiftRight_mantissa ⟨m <<< (e - 0).toNat, false, false⟩
    (0 - (e - (e - 0).toNat)).toNat
  refine (congrArg Int.ofNat shifted).trans ?_
  rw [Int.sub_zero, Nat.shiftLeft_eq, Int.zero_sub]
  rfl

theorem mantissa_of_unpack {b : BitVec Format.binary64.numBits} {s : Sign} {m : Nat} {e : Int}
    {pos : 0 < m} (h : UnpackedFloat.unpack Format.binary64 b = .finite s m e pos) :
    2 ^ 52 ≤ m ∨ e = -1074 := by
  unfold UnpackedFloat.unpack at h
  dsimp only at h
  by_cases top : unpackExponent b = -1#11
  · rw [if_pos top] at h
    by_cases zero : unpackMantissa b = 0#52
    · rw [if_pos zero] at h
      cases h
    · rw [if_neg zero] at h
      cases h
  · rw [if_neg top] at h
    by_cases least : unpackExponent b = 0#11
    · rw [if_pos least] at h
      by_cases zero : unpackMantissa b = 0#52
      · rw [dif_pos zero] at h
        cases h
      · rw [dif_neg zero] at h
        cases h
        right
        rw [least]
        decide
    · rw [if_neg least] at h
      cases h
      left
      have fits := (@unpackMantissa Format.binary64 b).isLt
      rw [BitVec.toNat_append, ← Nat.shiftLeft_add_eq_or_of_lt fits]
      exact Nat.le_add_right _ _

theorem unpack_one : (1 : Float).toModel.unpack = .finite .positive (2 ^ 52) (-52) (by decide) := by
  rfl

theorem one_le_ofNatClamp {n : Nat} (h : 1 ≤ n) : 1 ≤ (UInt64.ofNatClamp n).toNat := by
  unfold UInt64.ofNatClamp
  split
  · exact h
  · decide

theorem one_le_roundToInt {m : Nat} {e : Int} (normal : 2 ^ 52 ≤ m) (large : -52 ≤ e) :
    1 ≤ roundToInt .positive m e := by
  rw [roundToInt_positive]
  have low : (-(e - e.toNat)).toNat ≤ 52 := by omega
  have scale : 2 ^ (-(e - e.toNat)).toNat ≤ 2 ^ 52 := Nat.pow_le_pow_right (by decide) low
  have units : 2 ^ (-(e - e.toNat)).toNat ≤ m * 2 ^ e.toNat :=
    Nat.le_trans scale (Nat.le_trans normal (Nat.le_mul_of_pos_right m (Nat.two_pow_pos _)))
  have kept := Nat.div_pos units (Nat.two_pow_pos _)
  omega

theorem one_le_toUInt64 {x : Float} (h : 1 < x) : 1 ≤ x.toUInt64.toNat := by
  have above : UnpackedFloat.compare (.finite .positive (2 ^ 52) (-52) (by decide))
      x.toModel.unpack = some .lt := by
    have less : ((1 : Float).toModel.unpack.compare x.toModel.unpack == some .lt) = true :=
      of_decide_eq_true h
    rw [← unpack_one]
    exact eq_of_beq less
  change 1 ≤ (x.toModel.unpack.toUInt64).toNat
  cases shape : x.toModel.unpack with
  | infinity sign =>
    rw [shape] at above
    cases sign with
    | negative => exact nomatch above
    | positive => exact one_le_ofNatClamp (by decide)
  | notANumber =>
    rw [shape] at above
    exact nomatch above
  | zero sign =>
    rw [shape] at above
    exact nomatch above
  | finite sign m e pos =>
    rw [shape] at above
    cases sign with
    | negative => exact nomatch above
    | positive =>
      have order : (compare (-52) e).then (compare (2 ^ 52) m) = .lt := Option.some.inj above
      have large : -52 ≤ e := by
        rw [Ordering.then_eq_lt, Int.compare_eq_lt, Int.compare_eq_eq] at order
        omega
      have normal : 2 ^ 52 ≤ m := by
        rcases mantissa_of_unpack shape with full | least
        · exact full
        · omega
      have whole := one_le_roundToInt normal large
      exact one_le_ofNatClamp (by change 1 ≤ (roundToInt .positive m e).toNat; omega)

theorem one_le_toUInt32_max (x : Float) : 1 ≤ (Scalar.toUInt32 (Scalar.max x 1)).toNat := by
  have value : Scalar.max x 1 = 1 ∨ 1 < Scalar.max x 1 := by
    unfold Scalar.max
    split
    · exact .inl rfl
    · split
      · next nan => exact absurd nan (by decide)
      · split
        · next less => exact .inr less
        · exact .inl rfl
  have whole : 1 ≤ (Scalar.max x 1).toUInt64.toNat := by
    rcases value with same | above
    · rw [same]
      decide
    · exact one_le_toUInt64 above
  change 1 ≤ (UInt32.ofNat (Nat.min (UInt32.size - 1) (Scalar.max x 1).toUInt64.toNat)).toNat
  have fits : Nat.min (UInt32.size - 1) (Scalar.max x 1).toUInt64.toNat < UInt32.size :=
    Nat.lt_of_le_of_lt (Nat.min_le_left _ _) (by decide)
  rw [UInt32.toNat_ofNat_of_lt' fits]
  exact Nat.le_min.mpr ⟨by decide, whole⟩

end LayerTree.Double
