import LayerTree.Animation.Directive
import LayerTree.Proofs.Scalar.Rational

/-!
Samples of directives.

A sample is one of the values, or lies between two that follow each other. In exact numbers the
phase of a cycle lies in the unit interval, and so does the way that has been made between the two
values around it.
-/

set_option autoImplicit false
set_option relaxedAutoImplicit false

namespace LayerTree.Directive

section

variable {α : Type} [Scalar α] {vs : List (AnimValue α)}

theorem sampleValues_cases (nonempty : vs ≠ []) (phase : α) (calculation : Calculation) :
    (∃ v ∈ vs, sampleValues vs phase calculation = some v) ∨
      2 ≤ vs.length ∧ ¬1 ≤ phase ∧
        sampleValues vs phase calculation = betweenValues vs phase := by
  have length : 0 < vs.length := List.length_pos_iff.mpr nonempty
  by_cases held : (vs.length ≤ 1 || decide (1 ≤ phase)) = true
  · left
    refine ⟨vs.getLast nonempty, List.getLast_mem nonempty, ?_⟩
    unfold sampleValues
    rw [if_pos held, List.getLast?_eq_some_getLast nonempty]
  · have inner : ¬vs.length ≤ 1 ∧ ¬1 ≤ phase := by
      simpa only [Bool.or_eq_true, decide_eq_true_eq, not_or] using held
    unfold sampleValues
    rw [if_neg held]
    cases calculation with
    | linear => exact .inr ⟨by omega, inner.2, rfl⟩
    | paced => exact .inr ⟨by omega, inner.2, rfl⟩
    | discrete =>
      left
      have inside (share : Nat) : Nat.min share (vs.length - 1) < vs.length :=
        Nat.lt_of_le_of_lt (Nat.min_le_right _ _) (by omega)
      exact ⟨_, List.getElem_mem (inside _), List.getElem?_eq_getElem (inside _)⟩

theorem exists_neighbours (two : 2 ≤ vs.length) (phase : α) :
    ∃ i a b x, vs[i]? = some a ∧ vs[i + 1]? = some b ∧
      betweenValues vs phase = some (a.lerp b x) := by
  unfold betweenValues
  dsimp only
  generalize index : Nat.min _ (vs.length - 2) = i
  have low : i ≤ vs.length - 2 := index ▸ Nat.min_le_right _ _
  have here : i < vs.length := by omega
  have next : i + 1 < vs.length := by omega
  rw [List.getElem?_eq_getElem here, List.getElem?_eq_getElem next]
  exact ⟨i, _, _, _, List.getElem?_eq_getElem here, List.getElem?_eq_getElem next, rfl⟩

theorem exists_betweenValues (two : 2 ≤ vs.length) (phase : α) :
    ∃ a ∈ vs, ∃ b ∈ vs, ∃ x, betweenValues vs phase = some (a.lerp b x) := by
  obtain ⟨i, a, b, x, ha, hb, value⟩ := exists_neighbours two phase
  exact ⟨a, List.mem_of_getElem? ha, b, List.mem_of_getElem? hb, x, value⟩

end

theorem phase_mem (d : Directive Rat) (t : Rat) : 0 ≤ d.phase t ∧ d.phase t ≤ 1 := by
  unfold phase
  split
  · exact ⟨le_rfl, zero_le_one⟩
  · next started =>
    split
    · exact ⟨zero_le_one, le_rfl⟩
    · simp only [Bool.or_eq_true, decide_eq_true_eq, not_or, not_le] at started
      obtain ⟨⟨-, later⟩, moves⟩ := started
      have share := Rational.rem_div_mem (sub_nonneg.mpr later.le) moves
      exact ⟨share.1, share.2.le⟩

theorem index_of_place {place : Rat} {i : Nat} (fits : i < UInt64.size) (low : (i : Rat) ≤ place)
    (high : place < i + 1) : (Scalar.toUInt64 (Scalar.floor place)).toNat = i := by
  have whole : ⌊place⌋ = (i : Int) := Int.floor_eq_iff.mpr ⟨low, high⟩
  have cast : (Scalar.floor place : Rat) = (i : Nat) := by
    change ((⌊place⌋ : Int) : Rat) = _
    rw [whole]
    rfl
  have floor : (i : Rat).floor = i := Int.floor_natCast (R := Rat) i
  change (Rational.toUInt64 (Scalar.floor place)).toNat = i
  rw [cast, Rational.toNat_toUInt64, floor, Int.toNat_natCast]
  omega

theorem floor_place {place : Rat} {steps : Nat} (fits : steps < UInt64.size) (low : 0 ≤ place)
    (high : place < steps) :
    ∃ i : Nat, i < steps ∧ (i : Rat) ≤ place ∧ place < i + 1 ∧
      (Scalar.toUInt64 (Scalar.floor place)).toNat = i := by
  have below : (⌊place⌋₊ : Rat) ≤ place := Nat.floor_le low
  have above : place < ⌊place⌋₊ + 1 := Nat.lt_floor_add_one place
  have inside : ⌊place⌋₊ < steps := Nat.cast_lt.mp (below.trans_lt high)
  exact ⟨_, inside, below, above, index_of_place (inside.trans fits) below above⟩

theorem betweenValues_eq {vs : List (AnimValue Rat)} (two : 2 ≤ vs.length)
    (fits : vs.length ≤ UInt64.size) {phase : Rat} (low : 0 ≤ phase) (high : phase < 1) :
    ∃ (i : Nat) (a b : AnimValue Rat), vs[i]? = some a ∧ vs[i + 1]? = some b ∧
      (i : Rat) ≤ phase * (vs.length - 1 : Nat) ∧ phase * (vs.length - 1 : Nat) < i + 1 ∧
      betweenValues vs phase = some (a.lerp b (phase * (vs.length - 1 : Nat) - i)) := by
  have steps : (0 : Rat) < (vs.length - 1 : Nat) := Nat.cast_pos.mpr (by omega)
  obtain ⟨i, inside, below, above, index⟩ := floor_place (by omega : vs.length - 1 < UInt64.size)
    (mul_nonneg low steps.le) (mul_lt_of_lt_one_left steps high)
  have here : i < vs.length := by omega
  have next : i + 1 < vs.length := by omega
  refine ⟨i, vs[i], vs[i + 1], List.getElem?_eq_getElem here, List.getElem?_eq_getElem next,
    below, above, ?_⟩
  have kept : Nat.min i (vs.length - 2) = i := Nat.min_eq_left (by omega)
  simp only [betweenValues, index, kept, List.getElem?_eq_getElem here,
    List.getElem?_eq_getElem next]

theorem exists_sampleValues {vs : List (AnimValue Rat)} (nonempty : vs ≠ [])
    (fits : vs.length ≤ UInt64.size) {phase : Rat} (low : 0 ≤ phase) (calculation : Calculation) :
    ∃ v, sampleValues vs phase calculation = some v ∧
      (v ∈ vs ∨ ∃ a ∈ vs, ∃ b ∈ vs, ∃ x, 0 ≤ x ∧ x ≤ 1 ∧ v = a.lerp b x) := by
  rcases sampleValues_cases nonempty phase calculation with ⟨v, there, held⟩ | ⟨two, inner, between⟩
  · exact ⟨v, held, .inl there⟩
  · obtain ⟨i, a, b, ha, hb, below, above, value⟩ :=
      betweenValues_eq two fits low (not_le.mp inner)
    refine ⟨_, between.trans value, .inr ⟨a, List.mem_of_getElem? ha, b, List.mem_of_getElem? hb,
      _, sub_nonneg.mpr below, ?_, rfl⟩⟩
    linarith

end LayerTree.Directive
