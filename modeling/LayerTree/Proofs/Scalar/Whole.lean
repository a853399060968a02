import LayerTree.Proofs.Scalar.Double
import Mathlib.Tactic.Ring

/-!
Whole numbers as floats.

A whole number below `2^53` is a float: its digits fill a mantissa of 53 bits from the top. What has
only zeros after these bits is not rounded at all, so to add one to such a float is to add one to
the number.
-/

set_option autoImplicit false
set_option relaxedAutoImplicit false

namespace LayerTree.Double

open Float.Model Float.Model.UnpackedFloat

theorem log2_mul_two_pow {n : Nat} (pos : 0 < n) (k : Nat) : (n * 2 ^ k).log2 = n.log2 + k := by
  induction k with
  | zero => rw [Nat.pow_zero, Nat.mul_one, Nat.add_zero]
  | succ k ih =>
    have longer : n * 2 ^ (k + 1) = 2 * (n * 2 ^ k) := by ring
    have product : n * 2 ^ k ≠ 0 := (Nat.mul_pos pos (Nat.two_pow_pos k)).ne'
    rw [longer, Nat.log2_two_mul product, ih, Nat.add_assoc]

theorem shiftRight_zeros (m k : Nat) :
    (ExtendedMantissa.mk (m * 2 ^ k) false false) >>> k = ⟨m, false, false⟩ := by
  induction k generalizing m with
  | zero =>
    rw [Nat.pow_zero, Nat.mul_one]
    rfl
  | succ k ih =>
    have longer : m * 2 ^ (k + 1) = m * 2 * 2 ^ k := by ring
    calc (ExtendedMantissa.mk (m * 2 ^ (k + 1)) false false) >>> (k + 1)
        = ((ExtendedMantissa.mk (m * 2 ^ (k + 1)) false false) >>> k).shiftRightOne := rfl
      _ = (ExtendedMantissa.mk (m * 2) false false).shiftRightOne := by rw [longer, ih]
      _ = ⟨m, false, false⟩ := by simp [ExtendedMantissa.shiftRightOne]

theorem decreaseExponent_zeros (n zeros wanted : Nat) :
    decreaseExponent (n * 2 ^ zeros) (-zeros) (-wanted) =
      (n * 2 ^ max zeros wanted, -((max zeros wanted : Nat) : Int)) := by
  have amount : (-(zeros : Int) - -wanted).toNat = wanted - zeros := by omega
  have all : zeros + (wanted - zeros) = max zeros wanted := by omega
  unfold decreaseExponent
  dsimp only
  rw [amount, Nat.shiftLeft_eq, Nat.mul_assoc, ← Nat.pow_add, all]
  congr 1
  omega

theorem unpackSign_packComponents (sign : Sign) (exponent : BitVec 11) (mantissa : BitVec 52) :
    unpackSign (packComponents Format.binary64 sign exponent mantissa) = sign.toBitVec := by
  change (sign.toBitVec ++ exponent ++ mantissa).extractLsb' 63 1 = sign.toBitVec
  rw [BitVec.extractLsb'_append_eq_of_le (by decide),
    BitVec.extractLsb'_append_eq_of_le (by decide)]
  cases sign <;> rfl

theorem finite_eq {s s' : Sign} {m m' : Nat} {e e' : Int} {pos : 0 < m} {pos' : 0 < m'}
    (sign : s = s') (mantissa : m = m') (exponent : e = e') :
    UnpackedFloat.finite s m e pos = .finite s' m' e' pos' := by
  subst sign mantissa exponent
  rfl

theorem unpack_normal {b : BitVec Format.binary64.numBits}
    (top : (unpackExponent b : BitVec 11) ≠ -1#11) (least : (unpackExponent b : BitVec 11) ≠ 0#11)
    (pos : 0 < (1#1 ++ (unpackMantissa b : BitVec 52)).toNat) :
    UnpackedFloat.unpack Format.binary64 b =
      .finite (Sign.ofBitVec (unpackSign b)) (1#1 ++ (unpackMantissa b : BitVec 52)).toNat
        ((unpackExponent b).toNat - ((Format.binary64.exponentBias : Nat) + (52 : Nat))) pos := by
  unfold UnpackedFloat.unpack
  dsimp only
  rw [if_neg top, if_neg least]

section

variable {format : Format} {m k : Nat} {e : Int}
  (target : format.targetExponent (totalExponent (m * 2 ^ k) e) = e + k)

include target

theorem shiftToTargetExponent_zeros :
    shiftToTargetExponent format (m * 2 ^ k) e .exact = (⟨m, false, false⟩, e + k) := by
  have amount : (e + k - e).toNat = k := by omega
  unfold shiftToTargetExponent
  rw [target]
  simp only [shiftToExponent, amount, ExtendedMantissa.ofMantissaAndAccuracy, shiftRight_zeros]

theorem roundWithAccuracy_zeros (sign : Sign) (pos : 0 < m) :
    roundWithAccuracy format sign (m * 2 ^ k) e .exact = .finite sign m (e + k) pos := by
  have total : totalExponent (m * 2 ^ k) e = totalExponent m (e + k) := by
    unfold totalExponent
    rw [log2_mul_two_pow pos]
    push_cast
    omega
  have again : shiftToTargetExponent format m (e + k) .exact = (⟨m, false, false⟩, e + k) := by
    have still : shiftToTargetExponent format (m * 2 ^ 0) (e + k) .exact =
        (⟨m, false, false⟩, e + k + (0 : Nat)) :=
      shiftToTargetExponent_zeros (by rw [Nat.pow_zero, Nat.mul_one, ← total, target]; omega)
    simpa using still
  have rounded : (ExtendedMantissa.mk m false false).roundedMantissa = m := rfl
  unfold roundWithAccuracy
  rw [shiftToTargetExponent_zeros target]
  dsimp only
  rw [rounded, again]
  exact dif_neg pos.ne'

end

def padding (n : Nat) : Nat := 52 - n.log2

def whole (n : Nat) (pos : 0 < n) : UnpackedFloat :=
  .finite .positive (n * 2 ^ padding n) (-padding n) (Nat.mul_pos pos (Nat.two_pow_pos _))

def exponentBits (n : Nat) : BitVec 11 := BitVec.ofNat 11 (1075 - padding n)

theorem toNat_exponentBits (n : Nat) : (exponentBits n).toNat = 1075 - padding n :=
  Nat.mod_eq_of_lt (by omega)

theorem exponentBits_ne (n : Nat) {b : BitVec 11} (special : b.toNat < 1023 ∨ 1075 < b.toNat) :
    exponentBits n ≠ b := by
  rintro rfl
  rw [toNat_exponentBits] at special
  have few : padding n ≤ 52 := Nat.sub_le _ _
  omega

section

variable {n : Nat} (pos : 0 < n) (small : n < 2 ^ 53)

include pos small

theorem log2_padded : (n * 2 ^ padding n).log2 = 52 := by
  have fits : n.log2 < 53 := (Nat.log2_lt pos.ne').mpr small
  rw [log2_mul_two_pow pos, padding]
  omega

theorem targetExponent_whole (zeros : Nat) :
    Format.binary64.targetExponent (totalExponent (n * 2 ^ zeros) (-zeros)) = -padding n := by
  have fits : n.log2 < 53 := (Nat.log2_lt pos.ne').mpr small
  have least : Format.binary64.minExponent = -1074 := by decide
  have wide : Format.binary64.mantissaBits = 53 := rfl
  unfold Format.targetExponent totalExponent padding
  rw [log2_mul_two_pow pos, least, wide]
  push_cast
  omega

theorem roundWithAccuracy_whole {zeros : Nat} (enough : padding n ≤ zeros) :
    roundWithAccuracy Format.binary64 .positive (n * 2 ^ zeros) (-zeros) .exact = whole n pos := by
  obtain ⟨more, rfl⟩ := Nat.exists_eq_add_of_le enough
  have target := targetExponent_whole pos small (padding n + more)
  have split : n * 2 ^ (padding n + more) = n * 2 ^ padding n * 2 ^ more := by ring
  have exponent : (-(padding n + more : Nat) + more : Int) = -padding n := by
    push_cast
    ring
  rw [split] at target ⊢
  rw [roundWithAccuracy_zeros (by rw [target, exponent]) .positive
    (Nat.mul_pos pos (Nat.two_pow_pos _))]
  exact finite_eq rfl rfl exponent

theorem round_whole (zeros : Nat) :
    UnpackedFloat.round Format.binary64 .positive (n * 2 ^ zeros) (-zeros) = whole n pos := by
  unfold UnpackedFloat.round
  dsimp only
  rw [targetExponent_whole pos small zeros, decreaseExponent_zeros]
  exact roundWithAccuracy_whole pos small (Nat.le_max_right _ _)

theorem pack_whole : UnpackedFloat.pack Format.binary64 (whole n pos) =
    packComponents Format.binary64 .positive (exponentBits n)
      (BitVec.ofNat 52 (n * 2 ^ padding n)) := by
  have few : padding n ≤ 52 := Nat.sub_le _ _
  have bias : Format.binary64.exponentBias = 1023 := by decide
  have biased : (-(padding n : Int) + Format.binary64.exponentBias + (52 : Nat)).toNat =
      1075 - padding n := by
    omega
  unfold whole UnpackedFloat.pack
  dsimp only
  rw [biased, log2_padded pos small, if_neg (by omega)]
  exact if_pos rfl

theorem toNat_mantissa :
    (1#1 ++ BitVec.ofNat 52 (n * 2 ^ padding n)).toNat = n * 2 ^ padding n := by
  have bounds := (Nat.log2_eq_iff (Nat.mul_pos pos (Nat.two_pow_pos _)).ne').mp
    (log2_padded pos small)
  rw [BitVec.toNat_append, ← Nat.shiftLeft_add_eq_or_of_lt (BitVec.isLt _), BitVec.toNat_ofNat]
  change 2 ^ 52 + n * 2 ^ padding n % 2 ^ 52 = _
  omega

theorem unpack_pack_whole :
    UnpackedFloat.unpack Format.binary64 (UnpackedFloat.pack Format.binary64 (whole n pos)) =
      whole n pos := by
  have few : padding n ≤ 52 := Nat.sub_le _ _
  have bias : Format.binary64.exponentBias = 1023 := by decide
  have exponent : (exponentBits n).toNat = 1075 - padding n := toNat_exponentBits n
  rw [pack_whole pos small]
  refine (unpack_normal ?_ ?_ ?_).trans (finite_eq ?_ ?_ ?_)
  · rw [unpackExponent_packComponents]
    exact exponentBits_ne n (by decide)
  · rw [unpackExponent_packComponents]
    exact exponentBits_ne n (by decide)
  · rw [unpackMantissa_packComponents, toNat_mantissa pos small]
    exact Nat.mul_pos pos (Nat.two_pow_pos _)
  · rw [unpackSign_packComponents]
    rfl
  · rw [unpackMantissa_packComponents]
    exact toNat_mantissa pos small
  · rw [unpackExponent_packComponents, exponent]
    omega

end

/-! Floats of whole numbers. -/

section

variable {n : Nat} (small : n < 2 ^ 53)

include small

theorem normalize_whole (pos : 0 < n) (zeros : Nat) :
    UnpackedFloat.normalize Format.binary64 ((n * 2 ^ zeros : Nat) : Int) (-zeros) .positive =
      whole n pos := by
  have above : compare ((n * 2 ^ zeros : Nat) : Int) 0 = .gt :=
    Int.compare_eq_gt.mpr (by exact_mod_cast Nat.mul_pos pos (Nat.two_pow_pos zeros))
  unfold UnpackedFloat.normalize
  rw [above]
  exact round_whole pos small zeros

theorem ofUInt64_whole (pos : 0 < n) :
    Float.Model.ofUInt64 n.toUInt64 = .pack (whole n pos) := by
  have same : n.toUInt64.toNat = n :=
    UInt64.toNat_ofNat_of_lt' (small.trans (by decide))
  have digits := normalize_whole small pos 0
  rw [Nat.pow_zero, Nat.mul_one] at digits
  unfold Float.Model.ofUInt64 UnpackedFloat.ofUInt64 UnpackedFloat.ofNat UnpackedFloat.ofInt
  rw [same]
  exact congrArg Float.Model.pack digits

theorem unpack_whole (pos : 0 < n) : (Float.Model.pack (whole n pos)).unpack = whole n pos :=
  unpack_pack_whole pos small

theorem ofNat_eq (pos : 0 < n) : Float.ofNat n = .ofModel (.pack (whole n pos)) := by
  have direct : Float.ofNat n = n.toUInt64.toFloat * Float.ofBits 0x3FF0000000000000 :=
    dif_pos ⟨small, by decide⟩
  have unit : (Float.ofBits 0x3FF0000000000000).toModel.unpack =
      .finite .positive (2 ^ 52) (-52) (by decide) := by rfl
  have product : UnpackedFloat.mul Format.binary64 (whole n pos)
      (.finite .positive (2 ^ 52) (-52) (by decide)) = whole n pos := by
    have mantissa : n * 2 ^ padding n * 2 ^ 52 = n * 2 ^ (padding n + 52) := by ring
    have exponent : (-padding n + -52 : Int) = -(padding n + 52 : Nat) := by
      push_cast
      ring
    change roundWithAccuracy Format.binary64 .positive (n * 2 ^ padding n * 2 ^ 52)
      (-padding n + -52) .exact = _
    rw [mantissa, exponent]
    exact roundWithAccuracy_whole pos small (Nat.le_add_right _ _)
  rw [direct]
  change Float.ofModel (.pack (UnpackedFloat.mul Format.binary64
    (Float.Model.ofUInt64 n.toUInt64).unpack _)) = _
  rw [ofUInt64_whole small pos, unpack_whole small pos, unit, product]

end

/-- Adding one to a whole number below `2^53`, as floats, adds one to the number. -/
theorem ofNat_add_one {n : Nat} (next : n + 1 < 2 ^ 53) :
    Float.ofNat n + 1 = Float.ofNat (n + 1) := by
  rcases Nat.eq_zero_or_pos n with rfl | pos
  · decide
  · have small : n < 2 ^ 53 := Nat.lt_of_succ_lt next
    have sum : UnpackedFloat.add Format.binary64 (whole n pos)
        (.finite .positive (2 ^ 52) (-52) (by decide)) = whole (n + 1) (Nat.succ_pos n) := by
      have few : padding n ≤ 52 := Nat.sub_le _ _
      have least : min (-padding n : Int) (-52) = -(52 : Nat) := by omega
      -- the number is written with as many zeros as the one has
      have first := decreaseExponent_zeros n (padding n) 52
      rw [Nat.max_eq_right few] at first
      have second : decreaseExponent (2 ^ 52) (-52) (-(52 : Nat) : Int) =
          (2 ^ 52, (-(52 : Nat) : Int)) := by
        rfl
      have digits : ((n * 2 ^ 52 : Nat) : Int) + (2 ^ 52 : Nat) = ((n + 1) * 2 ^ 52 : Nat) := by
        push_cast
        ring
      unfold whole UnpackedFloat.add
      dsimp only
      rw [least, first, second]
      dsimp only [Sign.apply]
      rw [digits]
      exact normalize_whole next (Nat.succ_pos n) 52
    rw [ofNat_eq small pos, ofNat_eq next (Nat.succ_pos n)]
    change Float.ofModel (.pack (UnpackedFloat.add Format.binary64
      (Float.Model.pack (whole n pos)).unpack _)) = _
    rw [unpack_whole small pos, unpack_one, sum]

end LayerTree.Double
