import LayerTree.Proofs.Scalar.Whole

/-!
The floats from zero on, in their order.

Their bits, read as a number, count them up from zero to infinity. A mantissa and an exponent have a
place in this count whether the mantissa is full or not, and a mantissa that got one digit too many
has the place of the next exponent. So comparing such floats is comparing their bits.
-/

set_option autoImplicit false
set_option relaxedAutoImplicit false

namespace LayerTree.Double

open Float.Model Float.Model.UnpackedFloat

def top : Nat := 2047 * 2 ^ 52

/-- The place of a mantissa with an exponent. -/
def place (m : Nat) (e : Int) : Nat := (e + 1074).toNat * 2 ^ 52 + m

/-- The mantissas and exponents that floats are made of; the exponent has no upper bound. -/
structure Canonical (m : Nat) (e : Int) : Prop where
  fits : m < 2 ^ 53
  full : 2 ^ 52 ≤ m ∨ e = -1074
  low : -1074 ≤ e

theorem place_pos {m : Nat} (e : Int) (pos : 0 < m) : 0 < place m e := Nat.add_pos_right _ pos

theorem place_lt_place {m m' : Nat} {e e' : Int} (h : Canonical m e) (h' : Canonical m' e')
    (less : e < e') : place m e < place m' e' := by
  obtain ⟨fits, -, low⟩ := h
  have full := h'.full
  unfold place
  omega

/-- The floats from zero on. -/
inductive Counted : UnpackedFloat → Prop
  | zero : Counted (.zero .positive)
  | finite {m : Nat} {e : Int} {pos : 0 < m} (canonical : Canonical m e) (below : place m e < top) :
      Counted (.finite .positive m e pos)
  | infinity : Counted (.infinity .positive)

def rank : UnpackedFloat → Nat
  | .infinity _ => top
  | .finite _ m e _ => place m e
  | _ => 0

theorem compare_place {m m' : Nat} {e e' : Int} (h : Canonical m e) (h' : Canonical m' e') :
    (compare e e').then (compare m m') = compare (place m e) (place m' e') := by
  rcases Int.lt_trichotomy e e' with less | same | more
  · rw [Int.compare_eq_lt.mpr less, Nat.compare_eq_lt.mpr (place_lt_place h h' less)]
    rfl
  · subst same
    rw [Int.compare_eq_eq.mpr rfl]
    change compare m m' = _
    rcases Nat.lt_trichotomy m m' with less | same | more
    · have lower : place m e < place m' e := by unfold place; omega
      rw [Nat.compare_eq_lt.mpr less, Nat.compare_eq_lt.mpr lower]
    · rw [same, Nat.compare_eq_eq.mpr rfl, Nat.compare_eq_eq.mpr rfl]
    · have higher : place m' e < place m e := by unfold place; omega
      rw [Nat.compare_eq_gt.mpr more, Nat.compare_eq_gt.mpr higher]
  · rw [Int.compare_eq_gt.mpr more, Nat.compare_eq_gt.mpr (place_lt_place h' h more)]
    rfl

theorem compare_rank {a b : UnpackedFloat} (ha : Counted a) (hb : Counted b) :
    a.compare b = some (compare (rank a) (rank b)) := by
  cases ha with
  | zero =>
    cases hb with
    | zero => rfl
    | @finite m e pos _ _ => exact congrArg some (Nat.compare_eq_lt.mpr (place_pos e pos)).symm
    | infinity => rfl
  | @finite m e pos canonical below =>
    cases hb with
    | zero => exact congrArg some (Nat.compare_eq_gt.mpr (place_pos e pos)).symm
    | finite canonical' _ => exact congrArg some (compare_place canonical canonical')
    | infinity => exact congrArg some (Nat.compare_eq_lt.mpr below).symm
  | infinity =>
    cases hb with
    | zero => rfl
    | finite _ below => exact congrArg some (Nat.compare_eq_gt.mpr below).symm
    | infinity => rfl

inductive Uncounted : UnpackedFloat → Prop
  | notANumber : Uncounted .notANumber
  | zero : Uncounted (.zero .negative)
  | finite {m : Nat} {e : Int} {pos : 0 < m} : Uncounted (.finite .negative m e pos)
  | infinity : Uncounted (.infinity .negative)

theorem Counted.not_lt {a b : UnpackedFloat} (ha : Counted a) (hb : Uncounted b) :
    a.compare b ≠ some .lt := by
  cases hb <;> cases ha <;> rintro ⟨⟩

/-! The bits. -/

theorem toNat_unpackExponent (b : BitVec Format.binary64.numBits) :
    (unpackExponent b).toNat = b.toNat / 2 ^ 52 % 2 ^ 11 := by
  unfold unpackExponent
  rw [BitVec.toNat_cast, BitVec.extractLsb_toNat, Nat.shiftRight_eq_div_pow]
  rfl

theorem toNat_unpackMantissa (b : BitVec Format.binary64.numBits) :
    (unpackMantissa b).toNat = b.toNat % 2 ^ 52 := by
  unfold unpackMantissa
  rw [BitVec.toNat_cast, BitVec.extractLsb_toNat, Nat.shiftRight_eq_div_pow, Nat.pow_zero,
    Nat.div_one]
  rfl

theorem toNat_unpackSign (b : BitVec Format.binary64.numBits) :
    (unpackSign b).toNat = b.toNat / 2 ^ 63 := by
  have fits : b.toNat < 2 ^ 64 := b.isLt
  have bit : b.toNat / 2 ^ 63 < 2 := by omega
  unfold unpackSign
  rw [BitVec.toNat_cast, BitVec.extractLsb_toNat, Nat.shiftRight_eq_div_pow]
  exact Nat.mod_eq_of_lt bit

theorem toNat_packComponents (exponent : BitVec 11) (mantissa : BitVec 52) :
    (packComponents Format.binary64 .positive exponent mantissa).toNat =
      exponent.toNat * 2 ^ 52 + mantissa.toNat := by
  change (0#1 ++ exponent ++ mantissa).toNat = _
  rw [BitVec.toNat_append, BitVec.toNat_append, ← Nat.shiftLeft_add_eq_or_of_lt mantissa.isLt,
    Nat.shiftLeft_eq]
  simp

theorem toNat_pack {m : Nat} {e : Int} (h : Canonical m e) (pos : 0 < m) :
    (UnpackedFloat.pack Format.binary64 (.finite .positive m e pos)).toNat =
      min (place m e) top := by
  obtain ⟨fits, full, low⟩ := h
  have bias : (e + Format.binary64.exponentBias + (52 : Nat)).toNat = (e + 1074).toNat + 1 := by
    have value : Format.binary64.exponentBias = 1023 := by decide
    omega
  unfold UnpackedFloat.pack
  dsimp only
  rw [bias]
  unfold place top
  split
  · next beyond =>
    change 2 ^ 11 ≤ _ at beyond
    have infinite : (packedInfinity Format.binary64 .positive).toNat = 2047 * 2 ^ 52 := by decide
    rw [infinite]
    omega
  · next below =>
    change ¬ 2 ^ 11 ≤ _ at below
    split
    · next normal =>
      have leading : m.log2 = 52 := Nat.succ.inj (normal.trans (Nat.add_comm _ _))
      have bounds := (Nat.log2_eq_iff pos.ne').mp leading
      rw [toNat_packComponents, BitVec.toNat_ofNat, BitVec.toNat_ofNat]
      omega
    · next subnormal =>
      have short : m < 2 ^ 52 := by
        by_contra long
        exact subnormal (congrArg (· + 1) ((Nat.log2_eq_iff pos.ne').mpr ⟨by omega, fits⟩))
      rw [toNat_packComponents, BitVec.toNat_ofNat, BitVec.toNat_ofNat]
      omega

section

variable {b : BitVec Format.binary64.numBits}

theorem counted_finite {n m : Nat} {e : Int} {pos : 0 < m} (canonical : Canonical m e)
    (there : place m e = n) (below : n < top) :
    Counted (.finite .positive m e pos) ∧ rank (.finite .positive m e pos) = n :=
  ⟨.finite canonical (there.trans_lt below), there⟩

theorem counted_unpack (low : b.toNat ≤ top) :
    Counted (UnpackedFloat.unpack Format.binary64 b) ∧
      rank (UnpackedFloat.unpack Format.binary64 b) = b.toNat := by
  have exponent := toNat_unpackExponent b
  have mantissa := toNat_unpackMantissa b
  have positive : Sign.ofBitVec (unpackSign b) = .positive := by
    have sign : (unpackSign b).toNat = 0 := by
      rw [toNat_unpackSign]
      unfold top at low
      omega
    rw [BitVec.eq_of_toNat_eq (y := 0#1) sign]
    rfl
  have bias : Format.binary64.exponentBias = 1023 := by decide
  unfold UnpackedFloat.unpack
  dsimp only
  rw [positive, bias]
  unfold top at low
  by_cases full : unpackExponent b = -1#11
  · rw [full] at exponent
    change 2047 = _ at exponent
    have zero : unpackMantissa b = 0#52 := BitVec.eq_of_toNat_eq (mantissa.trans (by
      change _ = 0
      omega))
    rw [if_pos full, if_pos zero]
    refine ⟨.infinity, ?_⟩
    change 2047 * 2 ^ 52 = _
    omega
  · have below : b.toNat < top := by
      have limited : b.toNat / 2 ^ 52 % 2 ^ 11 ≠ 2047 := fun ones =>
        full (BitVec.eq_of_toNat_eq (exponent.trans ones))
      unfold top
      omega
    rw [if_neg full]
    by_cases least : unpackExponent b = 0#11
    · rw [if_pos least]
      rw [least] at exponent ⊢
      change 0 = _ at exponent
      by_cases zero : unpackMantissa b = 0#52
      · rw [dif_pos zero]
        rw [zero] at mantissa
        change 0 = _ at mantissa
        refine ⟨.zero, ?_⟩
        change 0 = _
        omega
      · rw [dif_neg zero]
        refine counted_finite ⟨by omega, .inr rfl, le_rfl⟩ ?_ below
        rw [mantissa]
        change 0 * 2 ^ 52 + _ = _
        omega
    · rw [if_neg least]
      have nonzero : b.toNat / 2 ^ 52 % 2 ^ 11 ≠ 0 := fun zero =>
        least (BitVec.eq_of_toNat_eq (exponent.trans zero))
      have digits : (1#1 ++ (unpackMantissa b : BitVec 52)).toNat = 2 ^ 52 + b.toNat % 2 ^ 52 := by
        rw [BitVec.toNat_append, ← Nat.shiftLeft_add_eq_or_of_lt (BitVec.isLt _), mantissa]
        rfl
      refine counted_finite ⟨by omega, .inl (by omega), by omega⟩ ?_ below
      rw [digits, exponent]
      unfold place
      omega

theorem uncounted_unpack (negative : Sign.ofBitVec (unpackSign b) = .negative) :
    Uncounted (UnpackedFloat.unpack Format.binary64 b) := by
  unfold UnpackedFloat.unpack
  dsimp only
  rw [negative]
  by_cases full : unpackExponent b = -1#11
  · rw [if_pos full]
    by_cases zero : unpackMantissa b = 0#52
    · rw [if_pos zero]
      exact .infinity
    · rw [if_neg zero]
      exact .notANumber
  · rw [if_neg full]
    by_cases least : unpackExponent b = 0#11
    · rw [if_pos least]
      by_cases zero : unpackMantissa b = 0#52
      · rw [dif_pos zero]
        exact .zero
      · rw [dif_neg zero]
        exact .finite
    · rw [if_neg least]
      exact .finite

theorem le_top_of_compare {a : UnpackedFloat} (counted : Counted a)
    (h : a.compare (UnpackedFloat.unpack Format.binary64 b) = some .lt) : b.toNat ≤ top := by
  by_contra beyond
  have fits : b.toNat < 2 ^ 64 := b.isLt
  refine counted.not_lt ?_ h
  unfold top at beyond
  by_cases positive : b.toNat < 2 ^ 63
  · have full : unpackExponent b = -1#11 :=
      BitVec.eq_of_toNat_eq ((toNat_unpackExponent b).trans (by
        change _ = 2047
        omega))
    have nonzero : unpackMantissa b ≠ 0#52 := by
      intro zero
      have mantissa := toNat_unpackMantissa b
      rw [zero] at mantissa
      change 0 = _ at mantissa
      omega
    unfold UnpackedFloat.unpack
    dsimp only
    rw [if_pos full, if_neg nonzero]
    exact .notANumber
  · have sign : (unpackSign b).toNat = 1 := by
      rw [toNat_unpackSign]
      omega
    refine uncounted_unpack ?_
    rw [BitVec.eq_of_toNat_eq (y := 1#1) sign]
    rfl

end

/-! Comparisons. -/

section

variable {x y : Float}

theorem counted_float (low : x.toBits.toNat ≤ top) :
    Counted x.toModel.unpack ∧ rank x.toModel.unpack = x.toBits.toNat :=
  counted_unpack low

theorem le_top_of_lt (hx : x.toBits.toNat ≤ top) (h : x < y) : y.toBits.toNat ≤ top :=
  le_top_of_compare (counted_float hx).1 (eq_of_beq (of_decide_eq_true h))

theorem le_top_of_pos (h : 0 < x) : x.toBits.toNat ≤ top :=
  le_top_of_lt (x := 0) (by decide) h

theorem finite_float (pos : 0 < x.toBits.toNat) (finite : x.toBits.toNat < top) :
    ∃ (m : Nat) (e : Int) (pos : 0 < m), Canonical m e ∧ place m e = x.toBits.toNat ∧
      x.toModel.unpack = .finite .positive m e pos := by
  obtain ⟨counted, there⟩ := counted_float finite.le
  cases shape : x.toModel.unpack with
  | zero =>
    rw [shape] at there
    exact absurd there pos.ne
  | notANumber =>
    rw [shape] at counted
    exact nomatch counted
  | infinity =>
    rw [shape] at there
    exact absurd there finite.ne'
  | finite sign m e pos =>
    rw [shape] at counted there
    cases counted with
    | finite canonical below => exact ⟨m, e, pos, canonical, there, rfl⟩

theorem compare_bits (hx : x.toBits.toNat ≤ top) (hy : y.toBits.toNat ≤ top) :
    x.toModel.unpack.compare y.toModel.unpack =
      some (compare x.toBits.toNat y.toBits.toNat) := by
  obtain ⟨first, firstPlace⟩ := counted_float hx
  obtain ⟨second, secondPlace⟩ := counted_float hy
  rw [compare_rank first second, firstPlace, secondPlace]

theorem lt_iff (hx : x.toBits.toNat ≤ top) (hy : y.toBits.toNat ≤ top) :
    x < y ↔ x.toBits.toNat < y.toBits.toNat := by
  refine decide_eq_true_iff.trans ?_
  change (x.toModel.unpack.compare y.toModel.unpack == some .lt) = true ↔ _
  rw [compare_bits hx hy, beq_iff_eq, Option.some_inj, Nat.compare_eq_lt]

theorem le_iff (hx : x.toBits.toNat ≤ top) (hy : y.toBits.toNat ≤ top) :
    x ≤ y ↔ x.toBits.toNat ≤ y.toBits.toNat := by
  refine decide_eq_true_iff.trans ?_
  change (x.toModel.unpack.compare y.toModel.unpack).any (·.isLE) = true ↔ _
  rw [compare_bits hx hy, ← Nat.isLE_compare]
  rfl

theorem pos_iff (low : x.toBits.toNat ≤ top) : 0 < x ↔ 0 < x.toBits.toNat := by
  have zero : (0 : Float).toBits.toNat = 0 := by decide
  rw [lt_iff (by rw [zero]; exact Nat.zero_le _) low, zero]

theorem eq_of_toBits (h : x.toBits.toNat = y.toBits.toNat) : x = y := by
  obtain ⟨⟨bits, valid⟩⟩ := x
  obtain ⟨⟨bits', valid'⟩⟩ := y
  have same : bits = bits' := UInt64.toNat_inj.mp h
  subst same
  rfl

theorem lt_top_of_isFinite (h : 0 < x) (finite : Scalar.isFinite x = true) :
    x.toBits.toNat < top := by
  refine (le_top_of_pos h).lt_of_ne fun infinite => ?_
  have same : x = Float.ofBits 0x7FF0000000000000 := eq_of_toBits infinite
  rw [same] at finite
  exact absurd finite (by decide)

end

end LayerTree.Double
