import LayerTree.Proofs.Scalar.Rounding

/-!
The ceiling of a quotient above one.

The quotient of a float by a smaller one above zero is computed with digits enough that none of its
leading ones is rounded away, so it is above zero. The ceiling of what is above zero is a whole
number from one on, and so is what is left of it in 64 bits.
-/

set_option autoImplicit false
set_option relaxedAutoImplicit false

namespace LayerTree.Double

open Float.Model Float.Model.UnpackedFloat

/-! Quotients of floats. -/

section

variable {m m' : Nat} {e e' : Int}

def supply (m m' : Nat) : Nat := 53 + m'.log2 - m.log2

theorem divCore_eq (h : Canonical m e) (pos : 0 < m) (less : e' ≤ e) (digits : m'.log2 ≤ m.log2) :
    ∃ accuracy, divCore Format.binary64 m e m' e' =
      (m * 2 ^ supply m m' / m', e - e' - supply m m', accuracy) := by
  have long : m.log2 < 53 := (Nat.log2_lt pos.ne').mpr h.fits
  have least : Format.binary64.minExponent = -1074 := by decide
  have wide : Format.binary64.mantissaBits = 53 := rfl
  have wanted : min (e - e') (Format.binary64.targetExponent
      (totalExponent m e - totalExponent m' e')) = e - e' - supply m m' := by
    unfold Format.targetExponent totalExponent supply
    rw [least, wide]
    omega
  have amount : (e - e' - (e - e' - supply m m')).toNat = supply m m' := by omega
  unfold divCore
  dsimp only
  rw [wanted, amount, Nat.shiftLeft_eq]
  exact ⟨_, rfl⟩

theorem le_quotient (h : Canonical m e) (pos : 0 < m) (pos' : 0 < m') :
    2 ^ 52 ≤ m * 2 ^ supply m m' / m' := by
  have long : m.log2 < 53 := (Nat.log2_lt pos.ne').mpr h.fits
  have total : 52 + (m'.log2 + 1) = m.log2 + supply m m' := by
    unfold supply
    omega
  rw [Nat.le_div_iff_mul_le pos']
  calc 2 ^ 52 * m' ≤ 2 ^ 52 * 2 ^ (m'.log2 + 1) := Nat.mul_le_mul_left _ Nat.lt_log2_self.le
    _ = 2 ^ m.log2 * 2 ^ supply m m' := by rw [← Nat.pow_add, total, Nat.pow_add]
    _ ≤ m * 2 ^ supply m m' := Nat.mul_le_mul_right _ (Nat.log2_self_le pos.ne')

theorem digits_of_place (h : Canonical m e) (h' : Canonical m' e') (pos : 0 < m) (pos' : 0 < m')
    (less : place m' e' < place m e) : e' ≤ e ∧ m'.log2 ≤ m.log2 := by
  have order : e' ≤ e := by
    by_contra more
    exact absurd less (place_lt_place h h' (by omega)).not_gt
  refine ⟨order, ?_⟩
  rcases order.lt_or_eq with fewer | same
  · have low := h'.low
    have full := (Nat.le_log2 pos.ne').mpr (h.full.resolve_right (by omega))
    have short := (Nat.log2_lt pos'.ne').mpr h'.fits
    omega
  · have smaller : m' ≤ m := by
      unfold place at less
      omega
    exact (Nat.le_log2 pos.ne').mpr ((Nat.log2_self_le pos'.ne').trans smaller)

theorem toNat_pack_div (h : Canonical m e) (h' : Canonical m' e') (pos : 0 < m) (pos' : 0 < m')
    (less : place m' e' < place m e) {bits : Nat}
    (packed : bits = (UnpackedFloat.pack Format.binary64 (UnpackedFloat.div Format.binary64
      (.finite .positive m e pos) (.finite .positive m' e' pos'))).toNat) :
    0 < bits ∧ bits ≤ top := by
  obtain ⟨order, digits⟩ := digits_of_place h h' pos pos' less
  obtain ⟨accuracy, quotient⟩ := divCore_eq h pos order digits
  have exponent : -1074 < e - e' - supply m m' := by
    unfold supply
    omega
  unfold UnpackedFloat.div at packed
  dsimp only at packed
  rw [quotient] at packed
  exact toNat_pack_full (le_quotient h pos pos') exponent accuracy packed

end

theorem div_pos_of_lt {x y : Float} (pos : 0 < y) (less : y < x) : 0 < x / y := by
  have hy := le_top_of_pos pos
  have hx := le_top_of_lt hy less
  have order := (lt_iff hy hx).mp less
  have positive := (pos_iff hy).mp pos
  obtain ⟨m', e', pos', canonical', there', shape'⟩ := finite_float positive (order.trans_le hx)
  have bits : (x / y).toBits.toNat = (UnpackedFloat.pack Format.binary64
      (UnpackedFloat.div Format.binary64 x.toModel.unpack y.toModel.unpack)).toNat := rfl
  rw [shape'] at bits
  rcases hx.lt_or_eq with finite | infinite
  · obtain ⟨m, e, pos, canonical, there, shape⟩ := finite_float (positive.trans order) finite
    rw [shape] at bits
    obtain ⟨nonzero, low⟩ := toNat_pack_div canonical canonical' pos pos' (by omega) bits
    exact (pos_iff low).mpr nonzero
  · have same : x = Float.ofBits 0x7FF0000000000000 := eq_of_toBits infinite
    have shape : x.toModel.unpack = .infinity .positive := by
      rw [same]
      rfl
    rw [shape] at bits
    change _ = top at bits
    rw [pos_iff bits.le, bits]
    decide

/-! Ceilings. -/

theorem one_le_toUInt64_of_le {x : Float} (low : x.toBits.toNat ≤ top)
    (h : (1 : Float).toBits.toNat ≤ x.toBits.toNat) : 1 ≤ x.toUInt64.toNat := by
  rcases h.lt_or_eq with above | same
  · exact one_le_toUInt64 ((lt_iff (h.trans low) low).mpr above)
  · rw [← eq_of_toBits same]
    decide

theorem one_le_toUInt64_ofNat {n : Nat} (pos : 0 < n) : 1 ≤ (Float.ofNat n).toUInt64.toNat := by
  have one : (1 : Float) = Float.ofNat 1 := by decide
  refine one_le_toUInt64_of_le (toBits_ofNat_le n) ?_
  rw [one]
  exact toBits_ofNat_mono pos

theorem toFloat_eq {n : UInt64} (pos : 0 < n.toNat) (small : n.toNat < 2 ^ 53) :
    n.toFloat = Float.ofNat n.toNat := by
  have same : n.toNat.toUInt64 = n := UInt64.ofNat_toNat
  have digits := ofUInt64_whole small pos
  rw [same] at digits
  rw [ofNat_eq small pos, ← digits]
  rfl

section

variable {x : Float} (h : 0 < x)

include h

theorem trunc_of_pos : Double.trunc x = if x < 9007199254740992 then x.toUInt64.toFloat else x := by
  have low := le_top_of_pos h
  have zero : (0 : Float).toBits.toNat ≤ top := by decide
  have above := (lt_iff zero low).mp h
  have nonzero : (x == 0) = false := by
    change (x.toModel.unpack.compare (0 : Float).toModel.unpack == some .eq) = false
    rw [compare_bits low zero, Nat.compare_eq_gt.mpr above]
    rfl
  have positive : ¬ x < 0 := fun less => above.not_gt ((lt_iff low zero).mp less)
  unfold Double.trunc
  rw [nonzero, if_neg Bool.false_ne_true, if_neg positive]

theorem toUInt64_lt (small : x < 9007199254740992) : x.toUInt64.toNat < 2 ^ 53 := by
  have low := le_top_of_pos h
  have bound : (9007199254740992 : Float).toBits.toNat = 1076 * 2 ^ 52 := by decide +kernel
  have below := (lt_iff low (by rw [bound]; decide)).mp small
  rw [bound] at below
  obtain ⟨m, e, pos, canonical, there, shape⟩ := finite_float ((pos_iff low).mp h)
    (below.trans (by decide))
  have exponent : e ≤ 0 := by
    have full := canonical.full
    have least := canonical.low
    rw [← there] at below
    unfold place at below
    omega
  have whole : roundToInt .positive m e ≤ m := by
    have zero : e.toNat = 0 := by omega
    rw [roundToInt_positive, zero, Nat.pow_zero, Nat.mul_one]
    exact_mod_cast Nat.div_le_self _ _
  have fits := canonical.fits
  have same : x.toUInt64 = UInt64.ofNatClamp (roundToInt .positive m e).toNat := by
    change x.toModel.unpack.toUInt64 = _
    rw [shape]
    rfl
  have kept : (roundToInt .positive m e).toNat < 2 ^ 53 := by omega
  rw [same]
  unfold UInt64.ofNatClamp
  rw [dif_pos (kept.trans (by decide))]
  exact kept

/-- The ceiling of a float above zero is not zero. -/
theorem one_le_ceil : 1 ≤ (Double.ceil x).toUInt64.toNat := by
  unfold Double.ceil
  rw [trunc_of_pos h]
  by_cases small : x < 9007199254740992
  · rw [if_pos small]
    have fits := toUInt64_lt h small
    rcases Nat.eq_zero_or_pos x.toUInt64.toNat with none | some
    · have nothing : x.toUInt64 = 0 := UInt64.toNat_inj.mp none
      have zero : x.toUInt64.toFloat = 0 := by
        rw [nothing]
        decide
      dsimp only
      rw [zero, if_pos h]
      decide
    · dsimp only
      rw [toFloat_eq some fits]
      split
      · rcases Nat.lt_or_ge (x.toUInt64.toNat + 1) (2 ^ 53) with next | last
        · rw [ofNat_add_one next]
          exact one_le_toUInt64_ofNat (Nat.succ_pos _)
        · have value : x.toUInt64.toNat = 2 ^ 53 - 1 := by omega
          rw [value]
          decide +kernel
      · exact one_le_toUInt64_ofNat some
  · rw [if_neg small]
    have low := le_top_of_pos h
    have order := (lt_iff low (by decide +kernel)).not.mp small
    have unchanged : ¬ x < x := fun less => ((lt_iff low low).mp less).false
    dsimp only
    rw [if_neg unchanged]
    exact one_le_toUInt64_of_le low ((by decide +kernel : _ ≤ _).trans (not_lt.mp order))

end

end LayerTree.Double
