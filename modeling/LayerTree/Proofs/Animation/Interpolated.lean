import LayerTree.Animation.Value
import LayerTree.Proofs.Scalar.Rational
import Mathlib.Tactic.Ring

/-!
Values between two values, in exact numbers.

The way starts at the first value and ends at the second one, whatever the two values are. Between
two numbers it never leaves their range.
-/

set_option autoImplicit false
set_option relaxedAutoImplicit false

namespace LayerTree

theorem Color.lerpByte_eq {a b c : UInt8} {t : Rat}
    (here : (a.toNat : Rat) + (b.toNat - a.toNat) * t = c.toNat) : lerpByte a b t = c := by
  have small : (c.toNat : Rat) ≤ 255.0 := by
    norm_num
    exact Nat.le_of_lt_succ c.toNat_lt
  unfold lerpByte
  dsimp only
  rw [here, Rational.scalarRound_natCast, Rational.clamp_of_mem (Nat.cast_nonneg _) small,
    Rational.toUInt8_toNat]

theorem Color.lerpByte_zero (a b : UInt8) : lerpByte a b (0 : Rat) = a :=
  lerpByte_eq (by ring)

theorem Color.lerpByte_one (a b : UInt8) : lerpByte a b (1 : Rat) = b :=
  lerpByte_eq (by ring)

theorem Color.lerpByte_self (a : UInt8) (t : Rat) : lerpByte a a t = a :=
  lerpByte_eq (by ring)

theorem Color.lerp_zero (c d : Color) : c.lerp d (0 : Rat) = c := by
  simp only [lerp, lerpByte_zero]

theorem Color.lerp_one (c d : Color) : c.lerp d (1 : Rat) = d := by
  simp only [lerp, lerpByte_one]

theorem Point.lerp_zero (p q : Point Rat) : p.lerp q 0 = p := by
  simp [lerp]

theorem Point.lerp_one (p q : Point Rat) : p.lerp q 1 = q := by
  simp [lerp]

theorem Transform.lerp_zero (f g : Transform Rat) : f.lerp g 0 = f := by
  simp [lerp, Vec.lerp]

theorem Transform.lerp_one (f g : Transform Rat) : f.lerp g 1 = g := by
  simp [lerp, Vec.lerp]

theorem PathElement.lerp_zero (e f : PathElement Rat) : lerp 0 e f = e := by
  cases e <;> cases f <;> simp only [lerp, Point.lerp_zero]

theorem PathElement.lerp_one {e f : PathElement Rat} (same : e.sameKind f = true) :
    lerp 1 e f = f := by
  cases e <;> cases f <;> cases same <;> simp only [lerp, Point.lerp_one]

theorem Outline.zipWith_lerp_zero {o p : Outline Rat} (same : sameStructure o p = true) :
    List.zipWith (PathElement.lerp 0) o p = o := by
  induction o generalizing p with
  | nil => rfl
  | cons e o ih =>
    cases p with
    | nil => cases same
    | cons f p =>
      have rest := (Bool.and_eq_true_iff.mp same).2
      rw [List.zipWith_cons_cons, PathElement.lerp_zero, ih rest]

theorem Outline.lerp_zero (o p : Outline Rat) : lerp o p 0 = o := by
  have early : (0 : Rat) < 0.5 := by norm_num
  unfold lerp
  by_cases same : sameStructure o p = true
  · rw [if_pos same, zipWith_lerp_zero same]
  · rw [if_neg same, if_pos early]

theorem Outline.zipWith_lerp_one {o p : Outline Rat} (same : sameStructure o p = true) :
    List.zipWith (PathElement.lerp 1) o p = p := by
  induction o generalizing p with
  | nil =>
    cases p with
    | nil => rfl
    | cons f p => cases same
  | cons e o ih =>
    cases p with
    | nil => cases same
    | cons f p =>
      obtain ⟨first, rest⟩ := Bool.and_eq_true_iff.mp same
      rw [List.zipWith_cons_cons, PathElement.lerp_one first, ih rest]

theorem Outline.lerp_one (o p : Outline Rat) : lerp o p 1 = p := by
  have late : ¬(1 : Rat) < 0.5 := by norm_num
  unfold lerp
  by_cases same : sameStructure o p = true
  · rw [if_pos same, zipWith_lerp_one same]
  · rw [if_neg same, if_neg late]

namespace AnimValue

theorem lerp_zero (a b : AnimValue Rat) : a.lerp b 0 = a := by
  unfold lerp
  split
  · next x y => rw [mul_zero, add_zero]
  · next c d => rw [Color.lerp_zero]
  · next f g => rw [Transform.lerp_zero]
  · next o p => rw [Outline.lerp_zero]
  · exact if_pos one_pos

theorem lerp_one (a b : AnimValue Rat) : a.lerp b 1 = b := by
  unfold lerp
  split
  · next x y => rw [mul_one, add_sub_cancel]
  · next c d => rw [Color.lerp_one]
  · next f g => rw [Transform.lerp_one]
  · next o p => rw [Outline.lerp_one]
  · exact if_neg (lt_irrefl 1)

theorem lerp_scalar_mem (x y : Rat) {t : Rat} (low : 0 ≤ t) (high : t ≤ 1) :
    ∃ s, (scalar x).lerp (scalar y) t = scalar s ∧ min x y ≤ s ∧ s ≤ max x y := by
  have rest : 0 ≤ 1 - t := sub_nonneg.mpr high
  refine ⟨x + (y - x) * t, rfl, ?_, ?_⟩
  · have before := mul_le_mul_of_nonneg_right (min_le_left x y) rest
    have after := mul_le_mul_of_nonneg_right (min_le_right x y) low
    linarith
  · have before := mul_le_mul_of_nonneg_right (le_max_left x y) rest
    have after := mul_le_mul_of_nonneg_right (le_max_right x y) low
    linarith

end AnimValue

end LayerTree
