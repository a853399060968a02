import LayerTree.Proofs.Scalar.Ceiling
import LayerTree.Text.Height
import Mathlib.Algebra.BigOperators.Group.List.Basic

/-!
The height of a text from the lines it takes.

Every line of the text takes one line or more, so all together take no fewer than the text has, and
the estimate is no lower than that of the lines unwrapped: rounding keeps the order. The number of
lines that a single one takes is clamped to 64 bits, but their sum is not. It is the sum modulo
`2^64`, so a text of more than one line may be estimated to have no height at all.
-/

set_option autoImplicit false
set_option relaxedAutoImplicit false

namespace LayerTree.Text

theorem length_splitAll (separator : Char) (cs : List Char) :
    (splitAll separator cs).length = cs.count separator + 1 := by
  induction cs with
  | nil => rfl
  | cons c cs ih =>
    unfold splitAll
    split
    · next here => rw [List.length_cons, ih, eq_of_beq here, List.count_cons_self]
    · next apart =>
      rw [List.count_cons_of_ne (ne_of_beq_false (Bool.not_eq_true _ ▸ apart))]
      cases parts : splitAll separator cs with
      | nil =>
        rw [parts] at ih
        exact absurd ih (Nat.succ_ne_zero _).symm
      | cons part rest =>
        rw [parts] at ih
        exact ih

theorem one_le_wrappedLines (width maxWidth : Float) :
    1 ≤ (wrappedLines width maxWidth).toNat := by
  unfold wrappedLines
  split
  · next wide =>
    simp only [Bool.and_eq_true, decide_eq_true_eq] at wide
    obtain ⟨⟨-, pos⟩, wider⟩ := wide
    exact Double.one_le_ceil (Double.div_pos_of_lt pos wider)
  · decide

theorem toNat_foldl_add (counts : List UInt64) (start : UInt64) :
    (counts.foldl (· + ·) start).toNat =
      (start.toNat + (counts.map UInt64.toNat).sum) % 2 ^ 64 := by
  induction counts generalizing start with
  | nil => exact (Nat.mod_eq_of_lt start.toNat_lt).symm
  | cons n counts ih =>
    rw [List.foldl_cons, ih, List.map_cons, List.sum_cons, UInt64.toNat_add, Nat.mod_add_mod,
      Nat.add_assoc]

def checkedAdd (a b : UInt64) : Option UInt64 :=
  if a.toNat + b.toNat < 2 ^ 64 then some (a + b) else none

theorem foldlM_checkedAdd (counts : List UInt64) (start : UInt64) :
    counts.foldlM checkedAdd start =
      if start.toNat + (counts.map UInt64.toNat).sum < 2 ^ 64 then
        some (counts.foldl (· + ·) start)
      else none := by
  induction counts generalizing start with
  | nil => exact (if_pos start.toNat_lt).symm
  | cons n counts ih =>
    rw [List.foldlM_cons, List.map_cons, List.sum_cons, List.foldl_cons, checkedAdd]
    by_cases fits : start.toNat + n.toNat < 2 ^ 64
    · rw [if_pos fits, Option.bind_eq_bind, Option.bind_some, ih, UInt64.toNat_add,
        Nat.mod_eq_of_lt fits, Nat.add_assoc]
    · rw [if_neg fits, if_neg (by omega)]
      rfl

def taken (text : String) (fontSize maxWidth : Float) : List UInt64 :=
  (splitAll '\n' text.toList).map fun line =>
    wrappedLines ((line.length : Float) * (advanceRatio * fontSize)) maxWidth

def total (text : String) (fontSize maxWidth : Float) : Nat :=
  ((taken text fontSize maxWidth).map UInt64.toNat).sum

theorem height_mono {fontSize : Float} (pos : 0 < fontSize)
    (finite : Scalar.isFinite fontSize = true) {n n' : Nat} (le : n ≤ n') :
    Float.ofNat n * 1.2 * fontSize ≤ Float.ofNat n' * 1.2 * fontSize := by
  have size := Double.le_top_of_pos pos
  have positive := (Double.pos_iff size).mp pos
  have below := Double.lt_top_of_isFinite pos finite
  have ratio : 0 < (1.2 : Float).toBits.toNat ∧ (1.2 : Float).toBits.toNat < Double.top := by
    decide +kernel
  have spaced (k : Nat) := Double.toBits_mul_le ratio.1 ratio.2 (Double.toBits_ofNat_le k)
  have high (k : Nat) := Double.toBits_mul_le positive below (spaced k)
  rw [Double.le_iff (high n) (high n')]
  exact Double.toBits_mul_mono positive below (spaced n')
    (Double.toBits_mul_mono ratio.1 ratio.2 (Double.toBits_ofNat_le n')
      (Double.toBits_ofNat_mono le))

structure Estimated (text : String) (fontSize maxWidth : Float) : Prop where
  /-- All lines of the text are counted. -/
  all : (taken text fontSize maxWidth).length = text.toList.count '\n' + 1
  /-- None of them is counted as nothing. -/
  each : ∀ n ∈ taken text fontSize maxWidth, 1 ≤ n.toNat
  /-- Their number is what they take modulo `2^64`. -/
  number : (lineCount text.toList fontSize maxWidth).toNat = total text fontSize maxWidth % 2 ^ 64
  /-- It is counted without overflow exactly when that is less than `2^64`. -/
  counted : (taken text fontSize maxWidth).foldlM checkedAdd 0 =
    if total text fontSize maxWidth < 2 ^ 64 then
      some (lineCount text.toList fontSize maxWidth)
    else none
  /-- The text is then estimated as no lower than its lines. -/
  height : total text fontSize maxWidth < 2 ^ 64 →
    Float.ofNat (text.toList.count '\n' + 1) * 1.2 * fontSize ≤
      estimatedHeight text fontSize maxWidth
  /-- A text of one line never takes more. -/
  single : '\n' ∉ text.toList → total text fontSize maxWidth < 2 ^ 64

/-- Every text is estimated from its lines. -/
theorem estimated (text : String) {fontSize : Float} (maxWidth : Float) (pos : 0 < fontSize)
    (finite : Scalar.isFinite fontSize = true) : Estimated text fontSize maxWidth := by
  have all : (taken text fontSize maxWidth).length = text.toList.count '\n' + 1 := by
    rw [taken, List.length_map, length_splitAll]
  have each : ∀ n ∈ taken text fontSize maxWidth, 1 ≤ n.toNat := by
    intro n mem
    obtain ⟨line, -, rfl⟩ := List.mem_map.mp mem
    exact one_le_wrappedLines _ _
  have number : (lineCount text.toList fontSize maxWidth).toNat =
      total text fontSize maxWidth % 2 ^ 64 := by
    rw [lineCount, toNat_foldl_add, UInt64.toNat_zero, Nat.zero_add]
    rfl
  refine ⟨all, each, number, ?_, ?_, ?_⟩
  · rw [foldlM_checkedAdd, UInt64.toNat_zero, Nat.zero_add]
    rfl
  · intro fits
    have lines : text.toList.count '\n' + 1 ≤ (lineCount text.toList fontSize maxWidth).toNat := by
      rw [number, Nat.mod_eq_of_lt fits, ← all, total, ← List.length_map UInt64.toNat]
      exact List.length_le_sum_of_one_le _ (List.forall_mem_map.mpr each)
    have sized : (Scalar.isFinite fontSize && decide (0 < fontSize)) = true := by
      rw [finite, decide_eq_true pos]
      rfl
    rw [estimatedHeight, if_pos sized]
    exact height_mono pos finite lines
  · intro whole
    rw [List.count_eq_zero.mpr whole] at all
    obtain ⟨only, eq⟩ := List.length_eq_one_iff.mp all
    rw [total, eq, List.map_singleton, List.sum_singleton]
    exact only.toNat_lt

theorem estimated_wrapped : (0 < (10 : Float) ∧ Scalar.isFinite (10 : Float) = true) ∧
    (taken "ab\nabcd" 10 7 = [2, 3] ∧ total "ab\nabcd" 10 7 < 2 ^ 64) ∧
    Estimated "ab\nabcd" 10 7 :=
  ⟨by decide +kernel, by decide +kernel, estimated "ab\nabcd" 7 (by decide) (by decide)⟩

/-- Two lines of a text that take `2^63` lines each, in a width of `2^(-63)`, have no height. -/
theorem height_lost :
    (taken "a\nb" 2 (Float.ofBits 0x3C00000000000000)).map UInt64.toNat = [2 ^ 63, 2 ^ 63] ∧
      (taken "a\nb" 2 (Float.ofBits 0x3C00000000000000)).foldlM checkedAdd 0 = none ∧
      estimatedHeight "a\nb" 2 (Float.ofBits 0x3C00000000000000) = 0 ∧
      ¬ Float.ofNat ("a\nb".toList.count '\n' + 1) * 1.2 * 2 ≤
        estimatedHeight "a\nb" 2 (Float.ofBits 0x3C00000000000000) := by
  decide +kernel

end LayerTree.Text
