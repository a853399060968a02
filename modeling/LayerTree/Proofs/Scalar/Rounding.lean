import LayerTree.Proofs.Scalar.Places

/-!
Rounding keeps the order of floats.

A product is rounded to 53 digits, or to as many as there are from the least exponent on; of two
floats equally near it takes the even one. The count of the place absorbs a digit too many, so the
place of the rounded product is a function of its mantissa and exponent that grows with the
mantissa. Whole numbers become floats by the same rounding.
-/

set_option autoImplicit false
set_option relaxedAutoImplicit false

namespace LayerTree.Double

open Float.Model Float.Model.UnpackedFloat

/-! Quotients. -/

/-- The whole number nearest to a quotient, the even one of two. -/
def toEven (m d : Nat) : Nat :=
  m / d + if d < 2 * (m % d) then 1 else if 2 * (m % d) = d then m / d % 2 else 0

theorem div_le_toEven (m d : Nat) : m / d ≤ toEven m d := Nat.le_add_right _ _

theorem toEven_le (m d : Nat) : toEven m d ≤ m / d + 1 := by
  unfold toEven
  split
  · omega
  · split <;> omega

theorem toEven_mono {m m' : Nat} (d : Nat) (le : m ≤ m') : toEven m d ≤ toEven m' d := by
  rcases (Nat.div_le_div_right (c := d) le).lt_or_eq with less | same
  · exact (toEven_le m d).trans (less.trans_le (div_le_toEven m' d))
  · have parts := Nat.div_add_mod m d
    have parts' := Nat.div_add_mod m' d
    have rest : m % d ≤ m' % d := by
      rw [same] at parts
      omega
    unfold toEven
    rw [same]
    split
    · rw [if_pos (by omega)]
    · split
      · split
        · omega
        · rw [if_pos (by omega)]
      · omega

theorem toEven_mul_right (m d : Nat) {c : Nat} (pos : 0 < c) :
    toEven (m * c) (d * c) = toEven m d := by
  have quotient : m * c / (d * c) = m / d := Nat.mul_div_mul_right m d pos
  have above : d * c < 2 * (m % d * c) ↔ d < 2 * (m % d) := by
    rw [← Nat.mul_assoc, Nat.mul_lt_mul_right pos]
  have half : 2 * (m % d * c) = d * c ↔ 2 * (m % d) = d := by
    rw [← Nat.mul_assoc, Nat.mul_left_inj pos.ne']
  unfold toEven
  rw [quotient, Nat.mul_mod_mul_right]
  simp only [above, half]

/-! Shifted mantissas. -/

theorem shiftRight_exact (m k : Nat) :
    (ExtendedMantissa.mk m false false) >>> (k + 1) =
      ⟨m / 2 ^ (k + 1), m / 2 ^ k % 2 != 0, m % 2 ^ k != 0⟩ := by
  induction k with
  | zero => simp [HShiftRight.hShiftRight, Nat.repeat, ExtendedMantissa.shiftRightOne, Nat.mod_one]
  | succ k ih =>
    change ((ExtendedMantissa.mk m false false) >>> (k + 1)).shiftRightOne = _
    rw [ih]
    unfold ExtendedMantissa.shiftRightOne
    have digits := Nat.mod_pow_succ (x := m) (b := 2) (k := k)
    have sticky : (m / 2 ^ k % 2 != 0 || m % 2 ^ k != 0) = (m % 2 ^ (k + 1) != 0) := by
      rw [digits, Bool.eq_iff_iff]
      have := Nat.two_pow_pos k
      rcases Nat.mod_two_eq_zero_or_one (m / 2 ^ k) with even | odd
      · simp [even]
      · simp [odd]
    dsimp only
    rw [Nat.div_div_eq_div_mul, ← Nat.pow_succ, sticky]

theorem roundedMantissa_shiftRight (m k : Nat) :
    ((ExtendedMantissa.mk m false false) >>> k).roundedMantissa = toEven m (2 ^ k) := by
  cases k with
  | zero =>
    change m = m / 1 + _
    simp [Nat.mod_one]
  | succ k =>
    have power : 2 ^ (k + 1) = 2 * 2 ^ k := Nat.pow_succ'
    have digits := Nat.mod_pow_succ (x := m) (b := 2) (k := k)
    have rest := Nat.mod_lt m (Nat.two_pow_pos k)
    rw [shiftRight_exact]
    unfold toEven
    rw [digits, power]
    rcases Nat.mod_two_eq_zero_or_one (m / 2 ^ k) with even | odd
    · rw [even, if_neg (by omega), if_neg (by omega)]
      cases m % 2 ^ k != 0 <;> rfl
    · rw [odd]
      rcases Nat.eq_zero_or_pos (m % 2 ^ k) with none | some
      · rw [none, if_neg (by omega), if_pos (by omega)]
        rfl
      · rw [if_pos (by omega), bne_iff_ne.mpr some.ne']
        rfl

theorem mantissa_le_rounded (em : ExtendedMantissa) :
    em.mantissa ≤ em.roundedMantissa ∧ em.roundedMantissa ≤ em.mantissa + 1 := by
  have parity := Nat.mod_lt em.mantissa Nat.two_pos
  unfold ExtendedMantissa.roundedMantissa
  cases em.accuracy with
  | exact => exact ⟨le_rfl, Nat.le_succ _⟩
  | inexact order =>
    cases order with
    | lt => exact ⟨le_rfl, Nat.le_succ _⟩
    | eq => exact ⟨Nat.le_add_right _ _, Nat.add_le_add_left (Nat.le_of_lt_succ parity) _⟩
    | gt => exact ⟨Nat.le_succ _, le_rfl⟩

theorem rounded_bounds (m k : Nat) (accuracy : Accuracy) :
    m / 2 ^ k ≤ (ExtendedMantissa.ofMantissaAndAccuracy m accuracy >>> k).roundedMantissa ∧
      (ExtendedMantissa.ofMantissaAndAccuracy m accuracy >>> k).roundedMantissa ≤
        m / 2 ^ k + 1 := by
  have cut : (ExtendedMantissa.ofMantissaAndAccuracy m accuracy >>> k).mantissa = m / 2 ^ k := by
    rw [shiftRight_mantissa]
    cases accuracy with
    | exact => rfl
    | inexact order => cases order <;> rfl
  rw [← cut]
  exact mantissa_le_rounded _

/-! Results in their place. -/

/-- The exponent that a mantissa with an exponent is rounded to. -/
def target (m : Nat) (e : Int) : Int := max (m.log2 + e - 52) (-1074)

theorem targetExponent_eq (m : Nat) (e : Int) :
    Format.binary64.targetExponent (totalExponent m e) = target m e := by
  have least : Format.binary64.minExponent = -1074 := by decide
  have wide : Format.binary64.mantissaBits = 53 := rfl
  unfold Format.targetExponent totalExponent target
  rw [least, wide]
  omega

def excess (m : Nat) (e : Int) : Nat := (target m e - e).toNat

section

variable {m : Nat} {e : Int}

theorem div_excess_lt (m : Nat) (e : Int) : m / 2 ^ excess m e < 2 ^ 53 := by
  have digits : m.log2 + 1 ≤ 53 + excess m e := by
    unfold excess target
    omega
  rw [Nat.div_lt_iff_lt_mul (Nat.two_pow_pos _), ← Nat.pow_add]
  exact Nat.lt_log2_self.trans_le (Nat.pow_le_pow_right Nat.two_pos digits)

theorem le_div_excess (fine : e ≤ target m e) (pos : 0 < m) (higher : target m e ≠ -1074) :
    2 ^ 52 ≤ m / 2 ^ excess m e := by
  have digits : 52 + excess m e = m.log2 := by
    unfold excess
    unfold target at fine higher ⊢
    omega
  rw [Nat.le_div_iff_mul_le (Nat.two_pow_pos _), ← Nat.pow_add, digits]
  exact Nat.log2_self_le pos.ne'

theorem shift_rounded {r : Nat} {t : Int} (short : r ≤ 2 ^ 53) (low : -1074 ≤ t) :
    shiftToTargetExponent Format.binary64 r t .exact =
      if r = 2 ^ 53 then (⟨2 ^ 52, false, false⟩, t + 1) else (⟨r, false, false⟩, t) := by
  unfold shiftToTargetExponent shiftToExponent
  rw [targetExponent_eq]
  dsimp only [ExtendedMantissa.ofMantissaAndAccuracy]
  split
  · next full =>
    subst full
    have one : (target (2 ^ 53) t - t).toNat = 1 := by
      have digits : (2 ^ 53 : Nat).log2 = 53 := by decide
      unfold target
      omega
    rw [one]
    rfl
  · next less =>
    have zero : (target r t - t).toNat = 0 := by
      have digits : r.log2 < 53 := by
        rcases Nat.eq_zero_or_pos r with rfl | pos
        · decide
        · exact (Nat.log2_lt pos.ne').mpr (by omega)
      unfold target
      omega
    rw [zero]
    refine Prod.ext rfl ?_
    change t + (0 : Nat) = t
    omega

theorem shift_target (fine : e ≤ target m e) (accuracy : Accuracy) :
    shiftToTargetExponent Format.binary64 m e accuracy =
      (ExtendedMantissa.ofMantissaAndAccuracy m accuracy >>> excess m e, target m e) := by
  have moved : e + ((target m e - e).toNat : Int) = target m e := by omega
  unfold shiftToTargetExponent shiftToExponent
  rw [targetExponent_eq]
  exact Prod.ext rfl moved

theorem toNat_pack_round (fine : e ≤ target m e) (pos : 0 < m) (accuracy : Accuracy) :
    (UnpackedFloat.pack Format.binary64
      (roundWithAccuracy Format.binary64 .positive m e accuracy)).toNat =
      min (place (ExtendedMantissa.ofMantissaAndAccuracy m accuracy >>> excess m e).roundedMantissa
        (target m e)) top := by
  have low : -1074 ≤ target m e := Int.le_max_right _ _
  have bounds := rounded_bounds m (excess m e) accuracy
  have fits := div_excess_lt m e
  have digits : 2 ^ 52 ≤ m / 2 ^ excess m e ∨ target m e = -1074 :=
    or_iff_not_imp_right.mpr (le_div_excess fine pos)
  unfold roundWithAccuracy
  rw [shift_target fine]
  dsimp only
  generalize (ExtendedMantissa.ofMantissaAndAccuracy m accuracy >>> excess m e).roundedMantissa = r
    at bounds
  rw [shift_rounded (by omega) low]
  by_cases full : r = 2 ^ 53
  · have carried : place r (target m e) = place (2 ^ 52) (target m e + 1) := by
      unfold place
      omega
    rw [if_pos full, carried]
    exact toNat_pack ⟨by decide, .inl le_rfl, by omega⟩ (by decide)
  · rw [if_neg full]
    dsimp only
    by_cases zero : r = 0
    · have least : target m e = -1074 := by omega
      rw [dif_pos zero, zero, least]
      rfl
    · rw [dif_neg zero]
      exact toNat_pack ⟨by omega, by omega, low⟩ _

theorem toNat_pack_full (full : 2 ^ 52 ≤ m) (low : -1074 < e) (accuracy : Accuracy) {bits : Nat}
    (packed : bits = (UnpackedFloat.pack Format.binary64
      (roundWithAccuracy Format.binary64 .positive m e accuracy)).toNat) :
    0 < bits ∧ bits ≤ top := by
  have pos : 0 < m := (Nat.two_pow_pos 52).trans_le full
  have digits : 52 ≤ m.log2 := (Nat.le_log2 pos.ne').mpr full
  have fine : e ≤ target m e := by
    unfold target
    omega
  have kept := (le_div_excess fine pos (by omega)).trans (rounded_bounds m _ accuracy).1
  have positive := place_pos (target m e) ((Nat.two_pow_pos 52).trans_le kept)
  rw [toNat_pack_round fine pos] at packed
  rw [packed]
  exact ⟨Nat.lt_min.mpr ⟨positive, by decide⟩, Nat.min_le_right _ _⟩

end

/-- The place of the float nearest to a mantissa with an exponent. -/
def nearest (m : Nat) (e : Int) : Nat := place (toEven m (2 ^ excess m e)) (target m e)

section

variable {m : Nat} {e : Int}

theorem toNat_pack_exact (fine : e ≤ target m e) (pos : 0 < m) :
    (UnpackedFloat.pack Format.binary64
      (roundWithAccuracy Format.binary64 .positive m e .exact)).toNat = min (nearest m e) top := by
  rw [toNat_pack_round fine pos, ExtendedMantissa.ofMantissaAndAccuracy, roundedMantissa_shiftRight]
  rfl

theorem nearest_zeros {k : Nat} (fine : e + k ≤ target m (e + k)) (pos : 0 < m) :
    nearest (m * 2 ^ k) e = nearest m (e + k) := by
  have same : target (m * 2 ^ k) e = target m (e + k) := by
    unfold target
    rw [log2_mul_two_pow pos]
    push_cast
    omega
  have more : excess (m * 2 ^ k) e = excess m (e + k) + k := by
    unfold excess
    rw [same]
    omega
  unfold nearest
  rw [same, more, Nat.pow_add, toEven_mul_right _ _ (Nat.two_pow_pos k)]

theorem nearest_mono {m' : Nat} (fine : e ≤ target m e) (pos : 0 < m) (le : m ≤ m') :
    nearest m e ≤ nearest m' e := by
  have digits : m.log2 ≤ m'.log2 :=
    (Nat.le_log2 (pos.trans_le le).ne').mpr ((Nat.log2_self_le pos.ne').trans le)
  have low : -1074 ≤ target m e := Int.le_max_right _ _
  have grows : target m e ≤ target m' e := by
    unfold target
    omega
  rcases grows.lt_or_eq with less | same
  · -- the rounded mantissa has at most one digit too many, and the one above all of its digits
    have short := (toEven_le m (2 ^ excess m e)).trans (div_excess_lt m e)
    have full := (le_div_excess (fine.trans grows) (pos.trans_le le) (by omega)).trans
      (div_le_toEven m' (2 ^ excess m' e))
    unfold nearest place
    omega
  · have cut : excess m e = excess m' e := by
      unfold excess
      rw [same]
    have rounded := toEven_mono (2 ^ excess m' e) le
    unfold nearest place
    rw [same, cut]
    omega

end

/-! Products. -/

section

variable {m m' : Nat} {e e' : Int}

theorem le_target_mul (h : Canonical m e) (h' : Canonical m' e') (pos : 0 < m) (pos' : 0 < m') :
    e + e' ≤ target (m * m') (e + e') := by
  have product : m * m' ≠ 0 := (Nat.mul_pos pos pos').ne'
  have long (full : 2 ^ 52 ≤ m * m') : 52 ≤ (m * m').log2 := (Nat.le_log2 product).mpr full
  unfold target
  rcases h.full with full | least
  · have := long (full.trans (Nat.le_mul_of_pos_right m pos'))
    omega
  · rcases h'.full with full | least'
    · have := long (full.trans (Nat.le_mul_of_pos_left m' pos))
      omega
    · omega

theorem nearest_mul_mono (h : Canonical m e) (h' : Canonical m' e') (pos : 0 < m) (pos' : 0 < m')
    (le : place m e ≤ place m' e') {n : Nat} {f : Int} (factor : Canonical n f)
    (factorPos : 0 < n) : nearest (m * n) (e + f) ≤ nearest (m' * n) (e' + f) := by
  have order : e ≤ e' := by
    by_contra more
    exact absurd le (place_lt_place h' h (by omega)).not_ge
  obtain ⟨k, rfl⟩ := Int.le.dest order
  have digits : m ≤ m' * 2 ^ k := by
    rcases Nat.eq_zero_or_pos k with rfl | more
    · unfold place at le
      omega
    · have fits := h.fits
      have low := h.low
      have full := h'.full
      have twice : m' * 2 ^ 1 ≤ m' * 2 ^ k :=
        Nat.mul_le_mul_left m' (Nat.pow_le_pow_right Nat.two_pos more)
      omega
  have there := le_target_mul h' factor pos' factorPos
  have moved : e + k + f = e + f + k := by omega
  rw [moved] at there ⊢
  calc nearest (m * n) (e + f)
      ≤ nearest (m' * n * 2 ^ k) (e + f) := by
        refine nearest_mono (le_target_mul h factor pos factorPos) (Nat.mul_pos pos factorPos) ?_
        calc m * n ≤ m' * 2 ^ k * n := Nat.mul_le_mul_right n digits
          _ = m' * n * 2 ^ k := Nat.mul_right_comm m' (2 ^ k) n
    _ = nearest (m' * n) (e + f + k) := nearest_zeros there (Nat.mul_pos pos' factorPos)

theorem toNat_pack_mul_le {a : UnpackedFloat} (ha : Counted a) (h : Canonical m e) (pos : 0 < m) :
    (UnpackedFloat.pack Format.binary64
      (UnpackedFloat.mul Format.binary64 a (.finite .positive m e pos))).toNat ≤ top := by
  cases ha with
  | zero => exact Nat.zero_le _
  | @finite n f posA canonical _ =>
    refine (toNat_pack_exact (le_target_mul canonical h posA pos)
      (Nat.mul_pos posA pos)).trans_le ?_
    exact Nat.min_le_right _ _
  | infinity => exact le_rfl

theorem toNat_pack_mul_mono {a b : UnpackedFloat} (ha : Counted a) (hb : Counted b)
    (le : rank a ≤ rank b) (h : Canonical m e) (pos : 0 < m) :
    (UnpackedFloat.pack Format.binary64
      (UnpackedFloat.mul Format.binary64 a (.finite .positive m e pos))).toNat ≤
    (UnpackedFloat.pack Format.binary64
      (UnpackedFloat.mul Format.binary64 b (.finite .positive m e pos))).toNat := by
  cases ha with
  | zero => exact Nat.zero_le _
  | infinity =>
    cases hb with
    | zero => exact absurd le (by decide)
    | finite _ below => exact absurd le below.not_ge
    | infinity => exact le_rfl
  | @finite n f posA canonical below =>
    have product := toNat_pack_exact (le_target_mul canonical h posA pos) (Nat.mul_pos posA pos)
    cases hb with
    | zero => exact absurd le (place_pos f posA).not_ge
    | infinity => exact product.trans_le (Nat.min_le_right _ _)
    | @finite n' f' posB canonical' below' =>
      have product' := toNat_pack_exact (le_target_mul canonical' h posB pos)
        (Nat.mul_pos posB pos)
      have less := nearest_mul_mono canonical canonical' posA posB le h pos
      exact (product.trans_le (min_le_min_right top less)).trans_eq product'.symm

end

section

variable {x y z : Float} (posFactor : 0 < z.toBits.toNat) (finite : z.toBits.toNat < top)

include posFactor finite

theorem toBits_mul_le (hx : x.toBits.toNat ≤ top) : (x * z).toBits.toNat ≤ top := by
  obtain ⟨m, e, pos, canonical, -, shape⟩ := finite_float posFactor finite
  change (UnpackedFloat.pack Format.binary64
    (UnpackedFloat.mul Format.binary64 x.toModel.unpack z.toModel.unpack)).toNat ≤ _
  rw [shape]
  exact toNat_pack_mul_le (counted_float hx).1 canonical pos

theorem toBits_mul_mono (hy : y.toBits.toNat ≤ top) (le : x.toBits.toNat ≤ y.toBits.toNat) :
    (x * z).toBits.toNat ≤ (y * z).toBits.toNat := by
  obtain ⟨m, e, pos, canonical, -, shape⟩ := finite_float posFactor finite
  obtain ⟨first, firstPlace⟩ := counted_float (le.trans hy)
  obtain ⟨second, secondPlace⟩ := counted_float hy
  change (UnpackedFloat.pack Format.binary64
    (UnpackedFloat.mul Format.binary64 x.toModel.unpack z.toModel.unpack)).toNat ≤
    (UnpackedFloat.pack Format.binary64
      (UnpackedFloat.mul Format.binary64 y.toModel.unpack z.toModel.unpack)).toNat
  rw [shape]
  exact toNat_pack_mul_mono first second (by rw [firstPlace, secondPlace]; exact le) canonical pos

end

/-! Whole numbers. -/

theorem le_target_whole {n : Nat} (pos : 0 < n) : -53 ≤ target (n * 2 ^ 53) (-53) := by
  unfold target
  rw [log2_mul_two_pow pos]
  omega

theorem toBits_ofNat {n : Nat} (pos : 0 < n) :
    (Float.ofNat n).toBits.toNat = min (nearest (n * 2 ^ 53) (-53)) top := by
  have product : 0 < n * 2 ^ 53 := Nat.mul_pos pos (Nat.two_pow_pos 53)
  rw [← toNat_pack_exact (le_target_whole pos) product]
  by_cases small : n < 2 ^ 53
  · have rounded : roundWithAccuracy Format.binary64 .positive (n * 2 ^ 53) (-53) .exact =
        whole n pos :=
      roundWithAccuracy_whole pos small ((Nat.sub_le _ _).trans (by decide))
    rw [ofNat_eq small pos, rounded]
    rfl
  · have slow : Float.ofNat n = .ofModel (Float.Model.ofScientific n 0) :=
      dif_neg fun fast => small fast.1
    have digits : n <<< 53 * 10 ^ (0 : Int).toNat = n * 2 ^ 53 := by
      rw [Nat.shiftLeft_eq]
      exact Nat.mul_one _
    have scaled : UnpackedFloat.ofScientific Format.binary64 n 0 =
        roundWithAccuracy Format.binary64 .positive (n * 2 ^ 53) (-53) .exact := by
      have range : -((2 ^ Format.binary64.exponentBits : Int) + n.log2) ≤ 0 := by
        have : (0 : Int) ≤ 2 ^ Format.binary64.exponentBits := by decide
        omega
      unfold UnpackedFloat.ofScientific
      rw [dif_neg pos.ne', if_neg (by decide), if_neg range.not_gt, if_pos le_rfl, ← digits]
      rfl
    rw [slow, ← scaled]
    rfl

theorem toBits_ofNat_le (n : Nat) : (Float.ofNat n).toBits.toNat ≤ top := by
  rcases Nat.eq_zero_or_pos n with rfl | pos
  · decide
  · exact (toBits_ofNat pos).trans_le (Nat.min_le_right _ _)

theorem toBits_ofNat_mono {n n' : Nat} (le : n ≤ n') :
    (Float.ofNat n).toBits.toNat ≤ (Float.ofNat n').toBits.toNat := by
  rcases Nat.eq_zero_or_pos n with rfl | pos
  · have zero : (Float.ofNat 0).toBits.toNat = 0 := by decide
    rw [zero]
    exact Nat.zero_le _
  · rw [toBits_ofNat pos, toBits_ofNat (pos.trans_le le)]
    have more : n * 2 ^ 53 ≤ n' * 2 ^ 53 := Nat.mul_le_mul_right _ le
    exact min_le_min_right top
      (nearest_mono (le_target_whole pos) (Nat.mul_pos pos (Nat.two_pow_pos 53)) more)

end LayerTree.Double
