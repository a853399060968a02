import LayerTree.Layer
import LayerTree.Proofs.Scalar.Rational
import LayerTree.Proofs.Scalar.Whole
import Mathlib.Tactic.Ring

/-!
Rectangles side by side.

Where a cell of a sprite sheet ends its neighbour begins: the number of a column is not rounded, so
both edges are the same quotient of floats. In exact numbers the cells divide the sheet among
themselves.

The tiles around the bounds of an element are copies at its sides. When all of them are shifted
towards one side, the copy from the other side follows closely, and it stands in the place of the
bounds when they have moved away by their size.
-/

set_option autoImplicit false
set_option relaxedAutoImplicit false

namespace LayerTree

/-- The rectangle has the point. Of its edges it has the left and the upper one, so that a point
between neighbours belongs to one of them. -/
def Rect.Holds (r : Rect Rat) (p : Point Rat) : Prop :=
  (r.x0 ≤ p.x ∧ p.x < r.x1) ∧ (r.y0 ≤ p.y ∧ p.y < r.y1)

def Rect.Reaches (r : Rect Rat) (p : Point Rat) : Prop :=
  (r.x0 ≤ p.x ∧ p.x ≤ r.x1) ∧ (r.y0 ≤ p.y ∧ p.y ≤ r.y1)

/-! The cells of a sheet. -/

namespace Cell

structure In (slice cell : Cell) : Prop where
  column : cell.column < max slice.column 1
  row : cell.row < max slice.row 1

/-- Neighbouring cells of a sheet have a common edge, as far as floats count without a gap. -/
structure Abut (slice : Cell) : Prop where
  columns : ∀ column row row', column + 1 < 2 ^ 53 →
    (rect slice ⟨column, row⟩ : Rect Float).x1 = (rect slice ⟨column + 1, row'⟩ : Rect Float).x0
  rows : ∀ column column' row, row + 1 < 2 ^ 53 →
    (rect slice ⟨column, row⟩ : Rect Float).y1 = (rect slice ⟨column', row + 1⟩ : Rect Float).y0

theorem abut (slice : Cell) : Abut slice where
  columns column row row' few := by
    have next : (column : Float) + 1 = ((column + 1 : Nat) : Float) := Double.ofNat_add_one few
    simp only [rect, next]
  rows column column' row few := by
    have next : (row : Float) + 1 = ((row + 1 : Nat) : Float) := Double.ofNat_add_one few
    simp only [rect, next]

/-- The cells of a sheet lie in the unit square, and each of its points is in one of them. -/
structure Tile (slice : Cell) : Prop where
  inside : ∀ cell, In slice cell → ∀ p, (rect slice cell).Holds p → Rect.Holds ⟨0, 0, 1, 1⟩ p
  unique : ∀ p, Rect.Holds ⟨0, 0, 1, 1⟩ p → ∃! cell, In slice cell ∧ (rect slice cell).Holds p

section

variable {parts : Nat} (pos : 0 < parts) {x : Rat}

include pos

theorem part_iff (low : 0 ≤ x) {part : Nat} :
    (part : Rat) / parts ≤ x ∧ x < ((part : Rat) + 1) / parts ↔ ⌊x * parts⌋₊ = part := by
  have wide : (0 : Rat) < parts := Nat.cast_pos.mpr pos
  rw [Nat.floor_eq_iff (mul_nonneg low wide.le), div_le_iff₀ wide, lt_div_iff₀ wide]

theorem part_lt (low : 0 ≤ x) (high : x < 1) : ⌊x * parts⌋₊ < parts := by
  have wide : (0 : Rat) < parts := Nat.cast_pos.mpr pos
  rw [Nat.floor_lt (mul_nonneg low wide.le)]
  exact mul_lt_of_lt_one_left wide high

theorem part_inside {part : Nat} (few : part < parts)
    (here : (part : Rat) / parts ≤ x ∧ x < ((part : Rat) + 1) / parts) : 0 ≤ x ∧ x < 1 := by
  have wide : (0 : Rat) < parts := Nat.cast_pos.mpr pos
  have last : ((part : Rat) + 1) / parts ≤ 1 := by
    rw [div_le_one wide]
    exact_mod_cast few
  exact ⟨(div_nonneg (Nat.cast_nonneg part) wide.le).trans here.1, here.2.trans_le last⟩

end

theorem tile (slice : Cell) : Tile slice := by
  have columns : 0 < max slice.column 1 := Nat.lt_of_lt_of_le Nat.one_pos (Nat.le_max_right _ _)
  have rows : 0 < max slice.row 1 := Nat.lt_of_lt_of_le Nat.one_pos (Nat.le_max_right _ _)
  refine ⟨fun cell within p holds => ?_, fun p holds => ?_⟩
  · exact ⟨part_inside columns within.column holds.1, part_inside rows within.row holds.2⟩
  · obtain ⟨⟨left, right⟩, upper, lower⟩ := holds
    refine ⟨⟨⌊p.x * (max slice.column 1 : Nat)⌋₊, ⌊p.y * (max slice.row 1 : Nat)⌋₊⟩, ?_, ?_⟩
    · exact ⟨⟨part_lt columns left right, part_lt rows upper lower⟩,
        (part_iff columns left).mpr rfl, (part_iff rows upper).mpr rfl⟩
    · rintro ⟨column, row⟩ ⟨-, across, down⟩
      rw [(part_iff columns left).mp across, (part_iff rows upper).mp down]

end Cell

/-! The tiles around a rectangle. -/

inductive Rect.Step (r : Rect Rat) : Vec Rat → Prop
  | left : Step r ⟨-r.width, 0⟩
  | right : Step r ⟨r.width, 0⟩
  | up : Step r ⟨0, -r.height⟩
  | down : Step r ⟨0, r.height⟩

namespace TilingHost

/-- The tiles, all shifted by the same displacement, cover the rectangle. -/
def Covers (host : TilingHost Rat) (shift : Vec Rat) (r : Rect Rat) : Prop :=
  ∀ p, r.Reaches p → ∃ tile ∈ host.tiles, (tile.translate shift).Reaches p

/-- The tiles, all shifted by the same displacement, show at a point the given place of the content
that each of them has, as seen from the corner of the content. -/
def Shows (host : TilingHost Rat) (shift : Vec Rat) (p : Point Rat) (place : Vec Rat) : Prop :=
  ∃ tile ∈ host.tiles, (tile.translate shift).Holds p ∧
    place = p.sub ⟨(tile.translate shift).x0, (tile.translate shift).y0⟩

variable {r : Rect Rat}

theorem mem_around {tile : Rect Rat} :
    tile ∈ (around r).tiles ↔ tile = r ∨ ∃ v, r.Step v ∧ tile = r.translate v := by
  simp only [around, List.mem_cons, List.not_mem_nil, or_false]
  constructor
  · rintro (rfl | rfl | rfl | rfl | rfl)
    · exact .inl rfl
    · exact .inr ⟨_, .left, rfl⟩
    · exact .inr ⟨_, .right, rfl⟩
    · exact .inr ⟨_, .up, rfl⟩
    · exact .inr ⟨_, .down, rfl⟩
  · rintro (rfl | ⟨v, left | right | up | down, rfl⟩)
    · exact .inl rfl
    · exact .inr (.inl rfl)
    · exact .inr (.inr (.inl rfl))
    · exact .inr (.inr (.inr (.inl rfl)))
    · exact .inr (.inr (.inr (.inr rfl)))

end TilingHost

namespace Rect

variable {r : Rect Rat} {v w : Vec Rat}

theorem Step.neg (step : r.Step v) : r.Step ⟨-v.x, -v.y⟩ := by
  cases step with
  | left => simpa only [neg_neg, neg_zero] using Step.right
  | right => simpa only [neg_zero] using Step.left
  | up => simpa only [neg_neg, neg_zero] using Step.down
  | down => simpa only [neg_zero] using Step.up

theorem Step.along (step : r.Step v) :
    (v.x = r.width ∨ v.x = -r.width) ∧ v.y = 0 ∨ v.x = 0 ∧ (v.y = r.height ∨ v.y = -r.height) := by
  cases step with
  | left => exact .inl ⟨.inr rfl, rfl⟩
  | right => exact .inl ⟨.inl rfl, rfl⟩
  | up => exact .inr ⟨rfl, .inr rfl⟩
  | down => exact .inr ⟨rfl, .inl rfl⟩

theorem translate_translate (r : Rect Rat) (v w : Vec Rat) :
    (r.translate v).translate w = r.translate ⟨v.x + w.x, v.y + w.y⟩ := by
  simp only [translate, add_assoc]

theorem translate_zero (r : Rect Rat) : r.translate ⟨0, 0⟩ = r := by
  simp only [translate, add_zero]

def Multiple (r : Rect Rat) (v : Vec Rat) : Prop :=
  ∃ i j : ℤ, v = ⟨i * r.width, j * r.height⟩

theorem multiple_zero (r : Rect Rat) : r.Multiple ⟨0, 0⟩ := ⟨0, 0, by simp⟩

theorem Multiple.add (first : r.Multiple v) (second : r.Multiple w) :
    r.Multiple ⟨v.x + w.x, v.y + w.y⟩ := by
  obtain ⟨i, j, rfl⟩ := first
  obtain ⟨i', j', rfl⟩ := second
  refine ⟨i + i', j + j', ?_⟩
  push_cast
  simp only [add_mul]

theorem Step.multiple (step : r.Step v) : r.Multiple v := by
  cases step with
  | left => exact ⟨-1, 0, by simp⟩
  | right => exact ⟨1, 0, by simp⟩
  | up => exact ⟨0, -1, by simp⟩
  | down => exact ⟨0, 1, by simp⟩

private theorem eq_zero_of_overlap {a b x : Rat} {k : ℤ} (here : a ≤ x ∧ x < b)
    (there : a + k * (b - a) ≤ x ∧ x < b + k * (b - a)) : k = 0 := by
  have wide : 0 < b - a := sub_pos.mpr (here.1.trans_lt here.2)
  have below : (k : Rat) < 1 := by
    refine lt_of_mul_lt_mul_right ?_ wide.le
    linarith
  have above : (-1 : Rat) < k := by
    refine lt_of_mul_lt_mul_right ?_ wide.le
    linarith
  have low : k < 1 := by exact_mod_cast below
  have high : -1 < k := by exact_mod_cast above
  omega

theorem eq_zero_of_holds {p : Point Rat} (multiple : r.Multiple v) (here : r.Holds p)
    (there : (r.translate v).Holds p) : v = ⟨0, 0⟩ := by
  obtain ⟨i, j, rfl⟩ := multiple
  have across : i = 0 := eq_zero_of_overlap here.1 there.1
  have down : j = 0 := eq_zero_of_overlap here.2 there.2
  rw [across, down]
  simp

private theorem follows_along {a b c s x : Rat} (side : c = b - a ∨ c = -(b - a)) (low : 0 ≤ s)
    (high : s ≤ 1) (here : a ≤ x ∧ x ≤ b) :
    (a + c * s ≤ x ∧ x ≤ b + c * s) ∨ (a + -c + c * s ≤ x ∧ x ≤ b + -c + c * s) := by
  have wide : 0 ≤ b - a := sub_nonneg.mpr (here.1.trans here.2)
  have moved : 0 ≤ (b - a) * s := mul_nonneg wide low
  have least : (b - a) * s ≤ b - a := mul_le_of_le_one_right wide high
  rcases side with rfl | rfl
  · rcases le_or_gt (a + (b - a) * s) x with reached | left
    · exact .inl ⟨reached, by linarith⟩
    · exact .inr ⟨by linarith, by linarith⟩
  · rcases le_or_gt x (b + -(b - a) * s) with reached | left
    · exact .inl ⟨by linarith, reached⟩
    · exact .inr ⟨by linarith, by linarith⟩

end Rect

namespace TilingHost

variable {r : Rect Rat} {v : Vec Rat} (step : r.Step v)

include step

theorem exists_tile_translate : ∃ tile ∈ (around r).tiles, tile.translate v = r := by
  refine ⟨_, mem_around.mpr (.inr ⟨_, step.neg, rfl⟩), ?_⟩
  simp only [Rect.translate_translate, neg_add_cancel, Rect.translate_zero]

theorem covers_around {s : Rat} (low : 0 ≤ s) (high : s ≤ 1) :
    (around r).Covers ⟨v.x * s, v.y * s⟩ r := by
  intro p here
  have moved : r ∈ (around r).tiles := mem_around.mpr (.inl rfl)
  have following := mem_around.mpr (.inr ⟨_, step.neg, rfl⟩)
  obtain ⟨side, level⟩ | ⟨level, side⟩ := step.along
  · rcases Rect.follows_along side low high here.1 with reached | reached
    · exact ⟨r, moved, reached, by simpa [Rect.translate, level] using here.2⟩
    · exact ⟨_, following, reached, by simpa [Rect.translate, level] using here.2⟩
  · rcases Rect.follows_along side low high here.2 with reached | reached
    · exact ⟨r, moved, by simpa [Rect.translate, level] using here.1, reached⟩
    · exact ⟨_, following, by simpa [Rect.translate, level] using here.1, reached⟩

omit step in
/-- Shifted by whole sides so that a tile is in the place of the rectangle, the tiles show in the
rectangle what that tile has there. -/
theorem shows_around_iff {p : Point Rat} {place : Vec Rat} (multiple : r.Multiple v)
    (back : ∃ tile ∈ (around r).tiles, tile.translate v = r) (here : r.Holds p) :
    (around r).Shows v p place ↔ place = p.sub ⟨r.x0, r.y0⟩ := by
  constructor
  · rintro ⟨tile, mem, there, rfl⟩
    have offset : ∃ w, r.Multiple w ∧ tile = r.translate w := by
      rcases mem_around.mp mem with rfl | ⟨w, step, eq⟩
      · exact ⟨_, tile.multiple_zero, tile.translate_zero.symm⟩
      · exact ⟨w, step.multiple, eq⟩
    obtain ⟨w, multiple', rfl⟩ := offset
    rw [Rect.translate_translate] at there ⊢
    rw [Rect.eq_zero_of_holds (multiple'.add multiple) here there, Rect.translate_zero]
  · rintro rfl
    obtain ⟨tile, mem, same⟩ := back
    exact ⟨tile, mem, by rwa [same], by rw [same]⟩

theorem shows_around_step {p : Point Rat} (here : r.Holds p) (place : Vec Rat) :
    (around r).Shows v p place ↔ (around r).Shows ⟨0, 0⟩ p place := by
  have still : ∃ tile ∈ (around r).tiles, tile.translate ⟨0, 0⟩ = r :=
    ⟨r, mem_around.mpr (.inl rfl), r.translate_zero⟩
  rw [shows_around_iff step.multiple (exists_tile_translate step) here,
    shows_around_iff r.multiple_zero still here]

end TilingHost

end LayerTree
