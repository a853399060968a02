import LayerTree.Layout.Box
import LayerTree.Scalar.Rational
import Mathlib.Algebra.Order.Ring.Rat

/-!
Boxes in exact numbers.

The content of a box is as large as its fields ask for, wherever the box stands, and its frame is
its local box with every coordinate multiplied by the scale. Floats round, so these are laws of the
rationals.
-/

set_option autoImplicit false
set_option relaxedAutoImplicit false

namespace LayerTree

theorem Scalar.max_rat (a b : Rat) : Scalar.max a b = Max.max a b := by
  have number (c : Rat) : Scalar.isNaN c = false := by simp [Scalar.isNaN]
  simp only [Scalar.max, number, Bool.false_eq_true, ite_false]
  by_cases less : b < a
  · rw [if_pos less, max_eq_left less.le]
  · rw [if_neg less, max_eq_right (not_lt.mp less)]

theorem Scalar.min_rat (a b : Rat) : Scalar.min a b = Min.min a b := by
  have number (c : Rat) : Scalar.isNaN c = false := by simp [Scalar.isNaN]
  simp only [Scalar.min, number, Bool.false_eq_true, ite_false]
  by_cases less : a < b
  · rw [if_pos less, min_eq_left less.le]
  · rw [if_neg less, min_eq_right (not_lt.mp less)]

theorem Rect.ofOriginSize_rat (origin : Point Rat) {size : Size Rat} (wide : 0 ≤ size.width)
    (high : 0 ≤ size.height) :
    Rect.ofOriginSize origin size =
      ⟨origin.x, origin.y, origin.x + size.width, origin.y + size.height⟩ := by
  have right : origin.x ≤ origin.x + size.width := le_add_of_nonneg_right wide
  have down : origin.y ≤ origin.y + size.height := le_add_of_nonneg_right high
  simp only [Rect.ofOriginSize, Scalar.max_rat, Scalar.min_rat, min_eq_left right,
    min_eq_left down, max_eq_right right, max_eq_right down]

def ScaleFactor.applyRect {α : Type} [Scalar α] (k : ScaleFactor α) (r : Rect α) : Rect α :=
  ⟨r.x0 * k.x, r.y0 * k.y, r.x1 * k.x, r.y1 * k.y⟩

theorem ScaleFactor.applyRect_ofOriginSize {k : ScaleFactor Rat} (hx : 0 ≤ k.x) (hy : 0 ≤ k.y)
    (origin : Point Rat) {size : Size Rat} (wide : 0 ≤ size.width) (high : 0 ≤ size.height) :
    Rect.ofOriginSize (k.applyPoint origin) (k.applySize size) =
      k.applyRect (Rect.ofOriginSize origin size) := by
  have wide' : 0 ≤ (k.applySize size).width := mul_nonneg wide hx
  have high' : 0 ≤ (k.applySize size).height := mul_nonneg high hy
  rw [Rect.ofOriginSize_rat _ wide high, Rect.ofOriginSize_rat _ wide' high']
  simp only [applyRect, applyPoint, applySize, add_mul]

namespace Layout

theorem contentSize_box (desc : Record) (container : Size Rat) (natural : Option (Size Rat))
    (k : ScaleFactor Rat) :
    (box desc container natural k).contentSize =
      let asked := sizeOf container natural (extent (desc.get? "w") container.width)
        (extent (desc.get? "h") container.height)
      ⟨Max.max asked.width 0, Max.max asked.height 0⟩ := by
  simp only [box, Box.contentSize, Scalar.max_rat]
  rw [Rect.ofOriginSize_rat _ (le_max_right _ _) (le_max_right _ _)]
  simp only [Rect.size, Rect.width, Rect.height, add_sub_cancel_left]

theorem logical_box (desc : Record) (container : Size Rat) (natural : Option (Size Rat))
    (k : ScaleFactor Rat) :
    (box desc container natural k).logical =
      let size := (box desc container natural k).contentSize
      (Rect.mk 0 0 size.width size.height).translate
        ⟨offset (desc.get? "x") .horizontal container.width size.width,
          offset (desc.get? "y") .vertical container.height size.height⟩ := by
  rw [contentSize_box]
  simp only [box, Scalar.max_rat]
  rw [Rect.ofOriginSize_rat _ (le_max_right _ _) (le_max_right _ _)]
  simp only [Rect.translate, zero_add, add_comm]

theorem frame_box {k : ScaleFactor Rat} (hx : 0 ≤ k.x) (hy : 0 ≤ k.y) (desc : Record)
    (container : Size Rat) (natural : Option (Size Rat)) :
    (box desc container natural k).frame =
      k.applyRect (box desc container natural k).logical := by
  simp only [box, Scalar.max_rat]
  exact ScaleFactor.applyRect_ofOriginSize hx hy _ (le_max_right _ _) (le_max_right _ _)

end Layout

end LayerTree
