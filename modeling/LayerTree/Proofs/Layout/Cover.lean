import LayerTree.Proofs.Layout.Exact
import Mathlib.Algebra.Field.Rat
import Mathlib.Algebra.Order.Field.Basic

/-!
Boxes that fill their container.

When a size field asks to fill, the box is the smallest one of the content's aspect that leaves no
part of the container bare, whatever the other size field says; without content it is the container
itself. These are laws of exact numbers: a float's quotient of two sides does not give the sides
back.
-/

set_option autoImplicit false
set_option relaxedAutoImplicit false

namespace LayerTree

namespace Layout

/-- A size of the content's aspect that covers a container and goes beyond it along one axis at
most. -/
structure Covers (container natural size : Size Rat) : Prop where
  width : container.width ≤ size.width
  height : container.height ≤ size.height
  touches : size.width = container.width ∨ size.height = container.height
  aspect : size.width * natural.height = size.height * natural.width

theorem usable_rat {s : Size Rat} : usable s = true ↔ 0 < s.width ∧ 0 < s.height := by
  have finite (c : Rat) : Scalar.isFinite c = true := by simp [Scalar.isFinite]
  simp only [usable, finite, Bool.true_and, Bool.and_eq_true, decide_eq_true_eq]

theorem usable_of_intrinsicSize {α : Type} [Scalar α] [Analytic α] {image mask : Option (Size α)}
    {outline : Option (Outline α)} {natural : Size α}
    (h : intrinsicSize image mask outline = some natural) : usable natural = true := by
  unfold intrinsicSize at h
  rcases Option.or_eq_some_iff.mp h with pictured | ⟨-, outlined⟩
  · rcases Option.or_eq_some_iff.mp pictured with seen | ⟨-, masked⟩
    · exact (Option.filter_eq_some_iff.mp seen).2
    · exact (Option.filter_eq_some_iff.mp masked).2
  · exact (Option.filter_eq_some_iff.mp outlined).2

theorem coverSize_covers {container natural : Size Rat} (wide : 0 < natural.width)
    (high : 0 < natural.height) : Covers container natural (coverSize container natural) := by
  have width_ne : natural.width ≠ 0 := wide.ne'
  have height_ne : natural.height ≠ 0 := high.ne'
  unfold coverSize
  dsimp only
  split
  · next taller =>
    -- as wide as the container, the content is higher than it
    refine ⟨le_rfl, taller.le, .inl rfl, ?_⟩
    rw [mul_assoc, div_mul_cancel₀ _ width_ne]
  · next lower =>
    have aspect_nonneg : 0 ≤ natural.width / natural.height := div_nonneg wide.le high.le
    have inverse : natural.height / natural.width * (natural.width / natural.height) = 1 := by
      rw [div_mul_div_cancel₀ width_ne, div_self height_ne]
    refine ⟨?_, le_rfl, .inr rfl, ?_⟩
    · calc container.width
          = container.width * (natural.height / natural.width) *
              (natural.width / natural.height) := by rw [mul_assoc, inverse, mul_one]
        _ ≤ container.height * (natural.width / natural.height) :=
            mul_le_mul_of_nonneg_right (not_lt.mp lower) aspect_nonneg
    · rw [mul_assoc, div_mul_cancel₀ _ height_ne]

theorem extent_fill {α : Type} [Scalar α] (full : α) :
    extent (some (.text "fill")) full = Extent.fill := rfl

theorem sizeOf_of_fills {α : Type} [Scalar α] {w h : Extent α} (asked : fills w h = true)
    (container : Size α) (natural : Option (Size α)) :
    sizeOf container natural w h = natural.elim container (coverSize container) := by
  cases w with
  | fill => cases natural <;> rfl
  | fixed width =>
    cases h with
    | fill => cases natural <;> rfl
    | _ => exact absurd asked Bool.false_ne_true
  | natural =>
    cases h with
    | fill => cases natural <;> rfl
    | _ => exact absurd asked Bool.false_ne_true

theorem fills_of_asked {α : Type} [Scalar α] {desc : Record}
    (asks : desc.get? "w" = some (.text "fill") ∨ desc.get? "h" = some (.text "fill"))
    (container : Size α) :
    fills (extent (desc.get? "w") container.width) (extent (desc.get? "h") container.height) =
      true := by
  rcases asks with across | down
  · rw [across, extent_fill]
    rfl
  · rw [down, extent_fill]
    cases extent (desc.get? "w") container.width <;> rfl

theorem contentSize_of_fills {desc : Record} {container : Size Rat} {natural : Option (Size Rat)}
    (filled : fills (extent (desc.get? "w") container.width)
      (extent (desc.get? "h") container.height) = true) (k : ScaleFactor Rat)
    (wide : 0 ≤ (natural.elim container (coverSize container)).width)
    (high : 0 ≤ (natural.elim container (coverSize container)).height) :
    (box desc container natural k).contentSize =
      natural.elim container (coverSize container) := by
  rw [contentSize_box, sizeOf_of_fills filled]
  simp only [max_eq_left wide, max_eq_left high]

/-- A box that has a size field which asks to fill covers its container with the aspect of its
content, and reaches beyond the container along one axis at most. Without content it is the
container, moved to where the fields for its place put it. -/
theorem box_covers [Analytic Rat] {desc : Record} {container : Size Rat}
    (asks : desc.get? "w" = some (.text "fill") ∨ desc.get? "h" = some (.text "fill"))
    (wide : 0 ≤ container.width) (high : 0 ≤ container.height) (image mask : Option (Size Rat))
    (outline : Option (Outline Rat)) (k : ScaleFactor Rat) :
    let b := box desc container (intrinsicSize image mask outline) k
    b.fill = true ∧
    (∀ natural, intrinsicSize image mask outline = some natural →
      Covers container natural b.logical.size) ∧
    (intrinsicSize image mask outline = none →
      b.logical.size = container ∧
      b.logical = (Rect.mk 0 0 container.width container.height).translate
        ⟨offset (desc.get? "x") .horizontal container.width container.width,
          offset (desc.get? "y") .vertical container.height container.height⟩) := by
  have filled := fills_of_asked asks container
  refine ⟨filled, ?_, ?_⟩
  · intro natural content
    obtain ⟨positiveWidth, positiveHeight⟩ := usable_rat.mp (usable_of_intrinsicSize content)
    have covers : Covers container natural (coverSize container natural) :=
      coverSize_covers positiveWidth positiveHeight
    have size : (box desc container (some natural) k).logical.size = coverSize container natural :=
      contentSize_of_fills filled k (wide.trans covers.width) (high.trans covers.height)
    rw [content, size]
    exact covers
  · intro content
    have size : (box desc container none k).contentSize = container :=
      contentSize_of_fills filled k wide high
    have logical := logical_box desc container none k
    rw [size] at logical
    rw [content]
    exact ⟨size, logical⟩

def poster : Record := ⟨[("w", .number (.integer 7)), ("h", .text "fill")]⟩

theorem box_covers_poster : ∃ _ : Analytic Rat,
    (box poster (⟨200, 100⟩ : Size Rat) (intrinsicSize none (some ⟨10, 20⟩) none)
      ⟨2, 3⟩).logical.size = ⟨200, 400⟩ ∧
    Covers ⟨200, 100⟩ ⟨10, 20⟩
      (box poster ⟨200, 100⟩ (intrinsicSize none (some ⟨10, 20⟩) none) ⟨2, 3⟩).logical.size := by
  let analytic : Analytic Rat := ⟨id, id, id, id, fun x _ => x, fun x _ => x⟩
  have asks : poster.get? "w" = some (.text "fill") ∨ poster.get? "h" = some (.text "fill") :=
    .inr rfl
  have wide : (0 : Rat) ≤ (Size.mk (200 : Rat) 100).width := by decide
  have high : (0 : Rat) ≤ (Size.mk (200 : Rat) 100).height := by decide
  obtain ⟨-, covers, -⟩ := box_covers asks wide high none (some ⟨10, 20⟩) none ⟨2, 3⟩
  exact ⟨analytic, by decide +kernel, covers ⟨10, 20⟩ (by decide +kernel)⟩

end Layout

end LayerTree
