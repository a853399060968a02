import LayerTree.Proofs.Animation.Interpolated
import LayerTree.Proofs.Animation.Typed
import LayerTree.Proofs.Color.Premultiplied

/-!
What stands between two values of an animation, in exact numbers.

At every fraction of the way there is a value of the kind of one of the two. A colour keeps each of
its channels in the range of the two channels. Outlines that draw in the same way are passed point
by point, along the segments between corresponding points; of two others there is always the one or
the other.
-/

set_option autoImplicit false
set_option relaxedAutoImplicit false

namespace LayerTree

variable {α : Type}

def Point.OnSegment (x y z : Point Rat) : Prop :=
  ∃ s, 0 ≤ s ∧ s ≤ 1 ∧ z = ⟨(1 - s) * x.x + s * y.x, (1 - s) * x.y + s * y.y⟩

theorem Point.onSegment_lerp (x y : Point Rat) {t : Rat} (low : 0 ≤ t) (high : t ≤ 1) :
    OnSegment x y (x.lerp y t) := by
  refine ⟨t, low, high, ?_⟩
  unfold lerp
  congr 1 <;> ring

namespace PathElement

def kind (e : PathElement α) : PathElement Unit := e.mapPoints fun _ => ⟨(), ()⟩

def points : PathElement α → List (Point α)
  | moveTo p => [p]
  | lineTo p => [p]
  | quadTo p q => [p, q]
  | curveTo p q r => [p, q, r]
  | close => []

theorem sameKind_iff {e f : PathElement α} : e.sameKind f = true ↔ e.kind = f.kind := by
  cases e <;> cases f <;> simp [sameKind, kind, mapPoints]

theorem length_points {e f : PathElement α} (same : e.kind = f.kind) :
    e.points.length = f.points.length := by
  cases e <;> cases f <;> first | rfl | cases same

variable [Scalar α] (t : α)

theorem kind_lerp (e f : PathElement α) : (lerp t e f).kind = e.kind := by
  cases e <;> cases f <;> rfl

theorem points_lerp {e f : PathElement α} (same : e.kind = f.kind) :
    (lerp t e f).points = List.zipWith (fun x y => x.lerp y t) e.points f.points := by
  cases e <;> cases f <;> first | rfl | cases same

end PathElement

namespace Outline

def kinds (o : Outline α) : List (PathElement Unit) := o.map PathElement.kind

def points (o : Outline α) : List (Point α) := o.flatMap PathElement.points

theorem sameStructure_iff {o p : Outline α} : sameStructure o p = true ↔ o.kinds = p.kinds := by
  induction o generalizing p with
  | nil => cases p <;> simp [sameStructure, kinds]
  | cons e o ih =>
    cases p with
    | nil => simp [sameStructure, kinds]
    | cons f p =>
      simp only [sameStructure, Bool.and_eq_true, PathElement.sameKind_iff, ih]
      simp [kinds]

section

variable [Scalar α] (t : α) {o p : Outline α}

theorem lerp_of_same (same : o.kinds = p.kinds) :
    lerp o p t = List.zipWith (PathElement.lerp t) o p :=
  if_pos (sameStructure_iff.mpr same)

theorem kinds_zipWith_lerp (same : o.kinds = p.kinds) :
    kinds (List.zipWith (PathElement.lerp t) o p) = o.kinds := by
  induction o generalizing p with
  | nil => rfl
  | cons e o ih =>
    cases p with
    | nil => cases same
    | cons f p =>
      obtain ⟨-, rest⟩ := List.cons.inj same
      change (PathElement.lerp t e f).kind :: kinds (List.zipWith (PathElement.lerp t) o p) = _
      rw [PathElement.kind_lerp, ih rest]
      rfl

theorem points_zipWith_lerp (same : o.kinds = p.kinds) :
    points (List.zipWith (PathElement.lerp t) o p) =
      List.zipWith (fun x y => x.lerp y t) o.points p.points := by
  induction o generalizing p with
  | nil => rfl
  | cons e o ih =>
    cases p with
    | nil => cases same
    | cons f p =>
      obtain ⟨first, rest⟩ := List.cons.inj same
      calc points (List.zipWith (PathElement.lerp t) (e :: o) (f :: p))
          = (PathElement.lerp t e f).points ++ points (List.zipWith (PathElement.lerp t) o p) := rfl
        _ = List.zipWith (fun x y => x.lerp y t) e.points f.points ++
              List.zipWith (fun x y => x.lerp y t) (points o) (points p) := by
            rw [PathElement.points_lerp t first, ih rest]
        _ = List.zipWith (fun x y => x.lerp y t) (e.points ++ points o) (f.points ++ points p) :=
            (List.zipWith_append (PathElement.length_points first)).symm

end

/-- What an outline on the way between two outlines is, at a fraction of the way. -/
structure Between (o p : Outline Rat) (t : Rat) (q : Outline Rat) : Prop where
  /-- It draws in the way of one of the two. -/
  kinds : q.kinds = o.kinds ∨ q.kinds = p.kinds
  /-- Between outlines of the same structure, each point lies on the segment between the two points
  that it stands for. -/
  pointwise : o.kinds = p.kinds → 0 ≤ t → t ≤ 1 → ∀ (i : Nat) (x y : Point Rat),
    o.points[i]? = some x → p.points[i]? = some y →
      ∃ z, q.points[i]? = some z ∧ Point.OnSegment x y z
  /-- Between others there is the one or the other. -/
  switches : o.kinds ≠ p.kinds → q = o ∨ q = p

theorem between_lerp (o p : Outline Rat) (t : Rat) : Between o p t (lerp o p t) := by
  by_cases same : o.kinds = p.kinds
  · rw [lerp_of_same t same]
    refine ⟨.inl (kinds_zipWith_lerp t same), fun _ low high i x y hx hy => ?_, absurd same⟩
    refine ⟨x.lerp y t, ?_, Point.onSegment_lerp x y low high⟩
    rw [points_zipWith_lerp t same, List.getElem?_zipWith, hx, hy]
  · have switches : lerp o p t = o ∨ lerp o p t = p := by
      unfold lerp
      rw [if_neg (mt sameStructure_iff.mp same)]
      exact ite_eq_or_eq (t < 0.5) o p
    refine ⟨?_, fun here => absurd here same, fun _ => switches⟩
    rcases switches with eq | eq
    · exact .inl (congrArg kinds eq)
    · exact .inr (congrArg kinds eq)

end Outline

namespace Color

def ByteBetween (a b x : UInt8) : Prop := (a ≤ x ∧ x ≤ b) ∨ (b ≤ x ∧ x ≤ a)

/-- Each channel is in the range of the channels of two colours. -/
structure Between (c d e : Color) : Prop where
  r : ByteBetween c.r d.r e.r
  g : ByteBetween c.g d.g e.g
  b : ByteBetween c.b d.b e.b
  a : ByteBetween c.a d.a e.a

theorem byteBetween_lerpByte (a b : UInt8) {t : Rat} (low : 0 ≤ t) (high : t ≤ 1) :
    ByteBetween a b (lerpByte a b t) := by
  rcases UInt8.le_total a b with rises | falls
  · left
    have first := lerpByte_mono low high (UInt8.le_refl a) rises
    have last := lerpByte_mono low high rises (UInt8.le_refl b)
    rw [lerpByte_self] at first last
    exact ⟨first, last⟩
  · right
    have first := lerpByte_mono low high (UInt8.le_refl a) falls
    have last := lerpByte_mono low high falls (UInt8.le_refl b)
    rw [lerpByte_self] at first last
    exact ⟨last, first⟩

theorem between_lerp (c d : Color) {t : Rat} (low : 0 ≤ t) (high : t ≤ 1) :
    Between c d (c.lerp d t) :=
  ⟨byteBetween_lerpByte c.r d.r low high, byteBetween_lerpByte c.g d.g low high,
    byteBetween_lerpByte c.b d.b low high, byteBetween_lerpByte c.a d.a low high⟩

end Color

namespace AnimValue

theorem lerp_of_other [Scalar α] {a b : AnimValue α} (other : a.kind ≠ b.kind) (t : α) :
    a.lerp b t = if t < 1 then a else b := by
  cases a <;> cases b <;> first | exact absurd rfl other | rfl

theorem kind_lerp_mem [Scalar α] (a b : AnimValue α) (t : α) :
    (a.lerp b t).kind = a.kind ∨ (a.lerp b t).kind = b.kind := by
  by_cases same : a.kind = b.kind
  · exact .inl (kind_lerp same t)
  · rw [lerp_of_other same]
    rcases ite_eq_or_eq (t < 1) a b with eq | eq
    · exact .inl (congrArg kind eq)
    · exact .inr (congrArg kind eq)

/-- What the way between two values is like. -/
structure Joins (way : Rat → AnimValue Rat) (a b : AnimValue Rat) : Prop where
  start : way 0 = a
  finish : way 1 = b
  /-- Each value is of the kind of one of the two. -/
  kind : ∀ t, (way t).kind = a.kind ∨ (way t).kind = b.kind
  /-- Between outlines there are outlines. -/
  path : ∀ o p, a = .path o → b = .path p → ∀ t, ∃ q, way t = .path q ∧ Outline.Between o p t q
  /-- Between colours there are colours, and no channel leaves the range of the two channels. -/
  color : ∀ c d, a = .color c → b = .color d → ∀ t, 0 ≤ t → t ≤ 1 →
    ∃ e, way t = .color e ∧ Color.Between c d e

/-- Interpolation joins any two values: it hits both of them, and keeps their structure in
between. -/
theorem lerp_joins (a b : AnimValue Rat) : Joins (a.lerp b) a b where
  start := lerp_zero a b
  finish := lerp_one a b
  kind := kind_lerp_mem a b
  path := by
    rintro o p rfl rfl t
    exact ⟨_, rfl, Outline.between_lerp o p t⟩
  color := by
    rintro c d rfl rfl t low high
    exact ⟨_, rfl, Color.between_lerp c d low high⟩

end AnimValue

end LayerTree
