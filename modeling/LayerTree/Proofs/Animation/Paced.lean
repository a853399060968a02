import Mathlib.Algebra.Order.BigOperators.Group.List
import Mathlib.Data.Rat.Floor
import LayerTree.Animation.Directive
import LayerTree.Proofs.Scalar.Rational

/-!
Motion at constant speed.

A phase of the cycle falls at that fraction of the whole length. The part that it falls into is the
first one that reaches so far; the lengths before it and the length into it make up the distance. So
a later phase never falls into an earlier part, nor less far into the same one, whatever parts
without length there are.
-/

set_option autoImplicit false
set_option relaxedAutoImplicit false

namespace LayerTree

/-- Where a distance along consecutive lengths falls: `d` into the part `i`. -/
structure FallsAt (lengths : List Rat) (distance : Rat) (i : Nat) (d : Rat) : Prop where
  inside : i < lengths.length
  start : 0 ≤ d
  finish : d ≤ lengths[i]
  reached : (lengths.take i).sum + d = distance
  /-- No part before reaches so far. -/
  first : ∀ j < i, (lengths.take (j + 1)).sum < distance

namespace FallsAt

variable {lengths : List Rat} {length distance d : Rat} {i : Nat}

theorem head (low : 0 ≤ distance) (high : distance ≤ length) :
    FallsAt (length :: lengths) distance 0 distance where
  inside := Nat.succ_pos _
  start := low
  finish := high
  reached := by simp
  first := fun _ less => absurd less (Nat.not_lt_zero _)

theorem tail (beyond : length < distance) (falls : FallsAt lengths (distance - length) i d) :
    FallsAt (length :: lengths) distance (i + 1) d where
  inside := Nat.succ_lt_succ falls.inside
  start := falls.start
  finish := falls.finish
  reached := by
    have reached := falls.reached
    rw [List.take_succ_cons, List.sum_cons]
    linarith
  first := by
    intro j less
    cases j with
    | zero => simpa using beyond
    | succ j =>
      have short := falls.first j (Nat.lt_of_succ_lt_succ less)
      rw [List.take_succ_cons, List.sum_cons]
      linarith

theorem mono {distance' d' : Rat} {i' : Nat} (falls : FallsAt lengths distance i d)
    (falls' : FallsAt lengths distance' i' d') (h : distance ≤ distance') :
    i < i' ∨ i = i' ∧ d ≤ d' := by
  rcases Nat.lt_trichotomy i i' with less | same | more
  · exact .inl less
  · subst same
    have reached := falls.reached
    have reached' := falls'.reached
    exact .inr ⟨rfl, by linarith⟩
  · -- the earlier part would already have reached the shorter distance
    have short := falls.first i' more
    have reached' := falls'.reached
    have finish' := falls'.finish
    rw [List.take_succ_eq_append_getElem falls'.inside, List.sum_append,
      List.sum_singleton] at short
    linarith

end FallsAt

theorem Scalar.sum_eq (lengths : List Rat) : Scalar.sum lengths = lengths.sum := by
  rw [List.sum_eq_foldl]
  rfl

theorem Scalar.min_eq_left {a b : Rat} (h : a ≤ b) : Scalar.min a b = a := by
  rcases h.lt_or_eq with less | rfl
  · simp [Scalar.min, Scalar.isNaN, less]
  · simp [Scalar.min]

/-- A distance up to the whole length falls somewhere, and it is found there. -/
theorem locate_fallsAt {lengths : List Rat} (nonempty : lengths ≠ []) {distance : Rat}
    (low : 0 ≤ distance) (high : distance ≤ lengths.sum) :
    ∃ i d, locate lengths distance = some (i, d) ∧ FallsAt lengths distance i d := by
  induction lengths generalizing distance with
  | nil => exact absurd rfl nonempty
  | cons length lengths ih =>
    by_cases within : distance ≤ length
    · refine ⟨0, distance, ?_, .head low within⟩
      cases lengths with
      | nil => rw [locate, Scalar.min_eq_left within]
      | cons next lengths => rw [locate, if_pos within, Scalar.min_eq_left within]
    · have beyond : length < distance := not_le.mp within
      cases lengths with
      | nil => exact absurd (by simpa using high) within
      | cons next lengths =>
        rw [List.sum_cons] at high
        obtain ⟨i, d, found, falls⟩ := ih (List.cons_ne_nil _ _)
          (by linarith : 0 ≤ distance - length) (by linarith)
        refine ⟨i + 1, d, ?_, falls.tail beyond⟩
        rw [locate, if_neg within, found]
        rfl

namespace Directive

def paced (lengths : List Rat) (phase : Rat) : Option (Nat × Rat) :=
  locate lengths (Scalar.clamp 0 1 phase * Scalar.sum lengths)

theorem paced_fallsAt {lengths : List Rat} (positive : 0 < lengths.sum) {phase : Rat}
    (low : 0 ≤ phase) (high : phase ≤ 1) :
    ∃ i d, paced lengths phase = some (i, d) ∧ FallsAt lengths (phase * lengths.sum) i d := by
  have nonempty : lengths ≠ [] := by
    rintro rfl
    exact absurd positive (by simp)
  rw [paced, Rational.clamp_of_mem low high, Scalar.sum_eq]
  exact locate_fallsAt nonempty (mul_nonneg low positive.le)
    (mul_le_of_le_one_left positive.le high)

/-- What parts of given lengths are passed at constant speed. -/
structure KeepsPace (lengths : List Rat) : Prop where
  /-- A phase falls into some part, and the lengths before it and the length into it are the phase's
  fraction of the whole. -/
  falls : ∀ phase, 0 ≤ phase → phase ≤ 1 → ∃ i d, paced lengths phase = some (i, d) ∧
    ∃ inside : i < lengths.length, 0 ≤ d ∧ d ≤ lengths[i] ∧
      (lengths.take i).sum + d = phase * lengths.sum
  /-- A later phase does not fall short of an earlier one. -/
  forward : ∀ p q i d j e, 0 ≤ p → p ≤ q → q ≤ 1 → paced lengths p = some (i, d) →
    paced lengths q = some (j, e) → i < j ∨ i = j ∧ d ≤ e
  /-- Along curves of these lengths, the point and the tangent at a phase are those of the curve
  that it falls into, at the length into it, or at the start of a curve without length. -/
  shown : ∀ [Analytic Rat] (segs : List (Segment Rat)), segs.map Segment.length = lengths →
    ∀ phase, 0 ≤ phase → phase ≤ 1 → ∃ i d seg, paced lengths phase = some (i, d) ∧
      segs[i]? = some seg ∧ (seg.length = 0 → d = 0) ∧
      sampleAlong segs phase =
        some (tangentAt seg (if 0 < seg.length then seg.parameterAt d else 0))

theorem sampleAlong_eq [Analytic Rat] {segs : List (Segment Rat)}
    (positive : 0 < (segs.map Segment.length).sum) (phase : Rat) :
    sampleAlong segs phase =
      (paced (segs.map Segment.length) phase).bind fun (index, distance) =>
        segs[index]?.map fun seg =>
          tangentAt seg (if 0 < seg.length then seg.parameterAt distance else 0) := by
  cases segs with
  | nil => exact absurd positive (by simp)
  | cons first rest =>
    have long : ¬Scalar.sum ((first :: rest).map Segment.length) ≤ (0 : Rat) := by
      rw [Scalar.sum_eq]
      exact not_le.mpr positive
    exact if_neg long

/-- Curves of any lengths, as long as they have some length together, are passed at constant
speed. -/
theorem keepsPace {lengths : List Rat} (positive : 0 < lengths.sum) : KeepsPace lengths where
  falls := by
    intro phase low high
    obtain ⟨i, d, found, falls⟩ := paced_fallsAt positive low high
    exact ⟨i, d, found, falls.inside, falls.start, falls.finish, falls.reached⟩
  forward := by
    intro p q i d j e low less high hp hq
    obtain ⟨i', d', found, falls⟩ := paced_fallsAt positive low (less.trans high)
    obtain ⟨j', e', found', falls'⟩ := paced_fallsAt positive (low.trans less) high
    obtain ⟨rfl, rfl⟩ := Prod.mk.inj (Option.some.inj (found.symm.trans hp))
    obtain ⟨rfl, rfl⟩ := Prod.mk.inj (Option.some.inj (found'.symm.trans hq))
    exact falls.mono falls' (mul_le_mul_of_nonneg_right less positive.le)
  shown := by
    rintro _ segs rfl phase low high
    obtain ⟨i, d, found, falls⟩ := paced_fallsAt positive low high
    have inside : i < segs.length := by simpa using falls.inside
    refine ⟨i, d, segs[i], found, List.getElem?_eq_getElem inside, fun flat => ?_, ?_⟩
    · have finish : d ≤ segs[i].length := by simpa using falls.finish
      exact le_antisymm (flat ▸ finish) falls.start
    · rw [sampleAlong_eq positive, found]
      simp [List.getElem?_eq_getElem inside]

def corner : List (Segment Rat) :=
  [.line ⟨0, 0⟩ ⟨3, 0⟩, .line ⟨3, 0⟩ ⟨3, 0⟩, .line ⟨3, 0⟩ ⟨3, 4⟩]

theorem keepsPace_corner : ∃ _ : Analytic Rat,
    corner.map Segment.length = [3, 0, 4] ∧ KeepsPace (corner.map Segment.length) ∧
    paced (corner.map Segment.length) (3 / 7) = some (0, 3) ∧
    paced (corner.map Segment.length) (5 / 7) = some (2, 2) ∧
    (sampleAlong corner (5 / 7)).map Prod.fst = some ⟨3, 2⟩ := by
  let analytic : Analytic Rat :=
    ⟨fun x => Nat.sqrt x.num.toNat, id, id, id, fun x _ => x, fun x _ => x⟩
  have measured : corner.map Segment.length = [3, 0, 4] := by decide +kernel
  have pace : KeepsPace (corner.map Segment.length) := keepsPace (by rw [measured]; norm_num)
  obtain ⟨i, d, seg, found, there, -, seen⟩ := pace.shown corner rfl (5 / 7) (by norm_num)
    (by norm_num)
  have later : paced (corner.map Segment.length) (5 / 7) = some (2, 2) := by decide +kernel
  obtain ⟨rfl, rfl⟩ := Prod.mk.inj (Option.some.inj (found.symm.trans later))
  obtain rfl : Segment.line ⟨3, 0⟩ ⟨3, 4⟩ = seg := Option.some.inj there
  refine ⟨analytic, measured, pace, by decide +kernel, later, ?_⟩
  rw [seen]
  decide +kernel

end Directive

end LayerTree
