import LayerTree.Proofs.Layout.Exact
import Mathlib.Algebra.Field.Rat
import Mathlib.Algebra.Order.Field.Basic
import Mathlib.Tactic.Linarith
import Mathlib.Tactic.Ring

/-!
Boxes that do not fill their container, and where boxes stand.

A size field gives a length of its own or leaves it to the content, and then the length follows the
other axis, or is that of the content or of the container. Lengths below zero are dropped before the
box is put in its place, so keywords for the place hold of the edges of the final box.
-/

set_option autoImplicit false
set_option relaxedAutoImplicit false

namespace LayerTree.Layout

open Json (Value)

/-- A text that writes a percentage: a finite decimal before the sign, with blanks around either. -/
def Percentage (text : String) (x : Float) : Prop :=
  ∃ digits, Text.trim text.toList = digits ++ ['%'] ∧
    Decimal.read? (Text.trim digits) = some x ∧ x.isNaN = false ∧ x.isInf = false

/-- What a size field gives in a container of the given length: a number or a percentage is a
length, any other text is the length of the container, and whatever is no number and no text gives
none. -/
inductive Gives (full : Rat) : Option Value → Option Rat → Prop
  | number (n : Json.Number) : Gives full (some (.number n)) (some n.value)
  | percentage {text : String} {x : Float} : Percentage text x →
      Gives full (some (.text text)) (some (full * Rational.ofFloat x / 100))
  | otherText {text : String} : (∀ x, ¬Percentage text x) →
      Gives full (some (.text text)) (some full)
  | nothing {field : Option Value} : (∀ n, field ≠ some (.number n)) →
      (∀ text, field ≠ some (.text text)) → Gives full field none

/-- The length of a box along one axis, by what the size fields give along it and across it, and by
the lengths of the content along and across. -/
structure SizedAlong (full : Rat) (given crossing : Option Rat) (natural : Option (Rat × Rat))
    (length across : Rat) : Prop where
  fixed : ∀ l, given = some l → length = Max.max l 0
  bare : given = none → natural = none → length = Max.max full 0
  content : given = none → crossing = none → ∀ own other, natural = some (own, other) →
    length = own
  /-- A single length that is left to the content has the content's ratio to the other one. -/
  follows : given = none → crossing.isSome → ∀ own other, natural = some (own, other) →
    length * other = across * own

def Axis.other : Axis → Axis
  | horizontal => vertical
  | vertical => horizontal

/-- Where the edges of a box are along one axis, by the field for its place. -/
structure PlacedAlong (axis : Axis) (full : Rat) (field : Option Value) (near far : Rat) :
    Prop where
  number : ∀ n, field = some (.number n) → near = n.value
  percentage : ∀ text x, field = some (.text text) → Percentage text x →
    near = full * Rational.ofFloat x / 100
  atNear : field = some (.text axis.near) → near = 0
  atFar : field = some (.text axis.far) → far = full
  centered : field = some (.text "center") → near - 0 = full - far
  /-- The keywords of the other axis mean nothing on this one. -/
  crossed : field = some (.text axis.other.near) ∨ field = some (.text axis.other.far) → near = 0
  malformed : (∀ n, field ≠ some (.number n)) →
    (∀ text, field = some (.text text) →
      text ∉ [axis.near, axis.far, "center"] ∧ ∀ x, ¬Percentage text x) → near = 0

/-! What texts write. -/

theorem percentOf?_eq_some {text : String} {x : Float} :
    percentOf? text = some x ↔ Percentage text x := by
  unfold percentOf? Percentage
  dsimp only
  constructor
  · intro h
    split at h
    · next signed =>
      obtain ⟨digits, whole⟩ := List.getLast?_eq_some_iff.mp (eq_of_beq signed)
      obtain ⟨read, finite⟩ := Option.filter_eq_some_iff.mp h
      rw [whole, List.dropLast_concat] at read
      exact ⟨digits, whole, read, by simpa only [Bool.and_eq_true, Bool.not_eq_true'] using finite⟩
    · cases h
  · rintro ⟨digits, whole, read, number, finite⟩
    rw [whole, List.dropLast_concat, List.getLast?_concat, if_pos (beq_self_eq_true _), read]
    simp only [Option.filter_some, number, finite, Bool.not_false, Bool.and_self, if_true]

theorem percentOf?_eq_none {text : String} :
    percentOf? text = none ↔ ∀ x, ¬Percentage text x := by
  simp only [← percentOf?_eq_some, Option.eq_none_iff_forall_ne_some, ne_eq]

theorem percent_of_percentage {text : String} {x : Float} (writes : Percentage text x)
    (full default : Rat) : percent text full default = full * Rational.ofFloat x / 100 := by
  have hundred : (100.0 : Rat) = 100 := by norm_num
  simp only [percent, percentOf?_eq_some.mpr writes]
  exact congrArg (full * Rational.ofFloat x / ·) hundred

theorem percent_of_otherText {text : String} (noPercentage : ∀ x, ¬Percentage text x)
    (full default : Rat) : percent text full default = default := by
  simp only [percent, percentOf?_eq_none.mpr noPercentage]

/-! What size fields give. -/

def extentOf : Option Rat → Extent Rat
  | some length => .fixed length
  | none => .natural

theorem Gives.extent_eq {full : Rat} {field : Option Value} {given : Option Rat}
    (gives : Gives full field given) (noFill : field ≠ some (.text "fill")) :
    extent field full = extentOf given := by
  have other {text : String} (same : field = some (.text text)) : (text == "fill") = false := by
    refine beq_eq_false_iff_ne.mpr fun fill => noFill ?_
    rw [same, fill]
  cases gives with
  | number n => rfl
  | percentage writes =>
    simp only [extent, other rfl, percent_of_percentage writes, extentOf]
    rfl
  | otherText noPercentage =>
    simp only [extent, other rfl, percent_of_otherText noPercentage, extentOf]
    rfl
  | nothing noNumber noText =>
    unfold extent
    split
    · exact absurd rfl (noNumber _)
    · exact absurd rfl (noText _)
    · rfl

theorem exists_gives (full : Rat) (field : Option Value) : ∃ given, Gives full field given := by
  by_cases number : ∃ n, field = some (.number n)
  · obtain ⟨n, rfl⟩ := number
    exact ⟨_, .number n⟩
  · by_cases text : ∃ text, field = some (.text text)
    · obtain ⟨text, rfl⟩ := text
      cases read : percentOf? text with
      | some x => exact ⟨_, .percentage (percentOf?_eq_some.mp read)⟩
      | none => exact ⟨_, .otherText (percentOf?_eq_none.mp read)⟩
    · exact ⟨none, .nothing (fun n same => number ⟨n, same⟩) fun s same => text ⟨s, same⟩⟩

/-! Sizes. -/

theorem max_mul_div (length : Rat) {own other : Rat} (hown : 0 < own) (hother : 0 < other) :
    Max.max (length * (own / other)) 0 * other = Max.max length 0 * own := by
  have ratio : 0 ≤ own / other := (div_pos hown hother).le
  calc Max.max (length * (own / other)) 0 * other
      = Max.max length 0 * (own / other) * other := by
        rw [max_mul_of_nonneg _ _ ratio, zero_mul]
    _ = Max.max length 0 * own := by rw [mul_assoc, div_mul_cancel₀ _ hother.ne']

def lengthAlong (full : Rat) (given crossing : Option Rat) (natural : Option (Rat × Rat)) : Rat :=
  match given, natural, crossing with
  | some length, _, _ => length
  | none, none, _ => full
  | none, some (own, _), none => own
  | none, some (own, other), some length => length * (own / other)

theorem sizeOf_eq (container : Size Rat) (natural : Option (Size Rat)) (w h : Option Rat) :
    sizeOf container natural (extentOf w) (extentOf h) =
      ⟨lengthAlong container.width w h (natural.map fun n => (n.width, n.height)),
        lengthAlong container.height h w (natural.map fun n => (n.height, n.width))⟩ := by
  cases natural <;> cases w <;> cases h <;> rfl

theorem sizedAlong_lengthAlong (full full' : Rat) (given crossing : Option Rat)
    {natural : Option (Rat × Rat)} (turned : Option (Rat × Rat))
    (positive : ∀ own other, natural = some (own, other) → 0 < own ∧ 0 < other) :
    SizedAlong full given crossing natural (Max.max (lengthAlong full given crossing natural) 0)
      (Max.max (lengthAlong full' crossing given turned) 0) where
  fixed := by
    rintro l rfl
    rfl
  bare := by
    rintro rfl rfl
    rfl
  content := by
    rintro rfl rfl own other rfl
    exact max_eq_left (positive own other rfl).1.le
  follows := by
    rintro rfl given own other rfl
    obtain ⟨l, rfl⟩ := Option.isSome_iff_exists.mp given
    obtain ⟨hown, hother⟩ := positive own other rfl
    exact max_mul_div l hown hother

/-! Places. -/

theorem Axis.not_percentage (axis : Axis) :
    percentOf? axis.near = none ∧ percentOf? axis.far = none ∧ percentOf? "center" = none := by
  cases axis <;> exact ⟨rfl, rfl, rfl⟩

theorem offset_of_noKeyword {axis : Axis} {text : String}
    (noKeyword : text ∉ [axis.near, axis.far, "center"]) (container length : Rat) :
    offset (some (.text text)) axis container length = percent text container 0 := by
  simp only [List.mem_cons, List.not_mem_nil, or_false, not_or] at noKeyword
  simp only [offset, beq_iff_eq, if_neg noKeyword.1, if_neg noKeyword.2.1, if_neg noKeyword.2.2]

theorem Percentage.noKeyword {text : String} {x : Float} (writes : Percentage text x)
    (axis : Axis) : text ∉ [axis.near, axis.far, "center"] := by
  obtain ⟨near, far, center⟩ := axis.not_percentage
  have read := percentOf?_eq_some.mpr writes
  simp only [List.mem_cons, List.not_mem_nil, or_false]
  rintro (rfl | rfl | rfl)
  · exact nomatch near.symm.trans read
  · exact nomatch far.symm.trans read
  · exact nomatch center.symm.trans read

theorem offset_of_percentage {axis : Axis} {text : String} {x : Float}
    (writes : Percentage text x) (container length : Rat) :
    offset (some (.text text)) axis container length = container * Rational.ofFloat x / 100 := by
  rw [offset_of_noKeyword (writes.noKeyword axis), percent_of_percentage writes]

theorem offset_of_otherText {axis : Axis} {text : String}
    (noKeyword : text ∉ [axis.near, axis.far, "center"]) (noPercentage : ∀ x, ¬Percentage text x)
    (container length : Rat) : offset (some (.text text)) axis container length = 0 := by
  rw [offset_of_noKeyword noKeyword, percent_of_otherText noPercentage]

theorem offset_of_crossing (axis : Axis) (container length : Rat) :
    offset (some (.text axis.other.near)) axis container length = 0 ∧
      offset (some (.text axis.other.far)) axis container length = 0 := by
  obtain ⟨near, far, -⟩ := axis.other.not_percentage
  refine ⟨offset_of_otherText ?_ (percentOf?_eq_none.mp near) container length,
    offset_of_otherText ?_ (percentOf?_eq_none.mp far) container length⟩ <;>
  cases axis <;> decide

theorem placedAlong_offset (axis : Axis) (full length : Rat) (field : Option Value) :
    PlacedAlong axis full field (offset field axis full length)
      (offset field axis full length + length) where
  number := by
    rintro n rfl
    rfl
  percentage := by
    rintro text x rfl writes
    exact offset_of_percentage writes full length
  atNear := by
    rintro rfl
    cases axis <;> rfl
  atFar := by
    rintro rfl
    have start : offset (some (.text axis.far)) axis full length = full - length := by
      cases axis <;> rfl
    rw [start, sub_add_cancel]
  centered := by
    rintro rfl
    have two : (2.0 : Rat) = 2 := by norm_num
    have start : offset (some (.text "center")) axis full length = (full - length) / 2 := by
      cases axis <;> exact congrArg ((full - length) / ·) two
    rw [start]
    ring
  crossed := by
    rintro (rfl | rfl)
    · exact (offset_of_crossing axis full length).1
    · exact (offset_of_crossing axis full length).2
  malformed := by
    intro noNumber noText
    cases field with
    | none => rfl
    | some value =>
      cases value with
      | number n => exact absurd rfl (noNumber n)
      | text text => exact offset_of_otherText (noText text rfl).1 (noText text rfl).2 full length
      | null | bool | list | record => rfl

/-! Boxes. -/

theorem sizedAlong_box {desc : Record} {container : Size Rat} {natural : Option (Size Rat)}
    (positive : ∀ n, natural = some n → 0 < n.width ∧ 0 < n.height) (k : ScaleFactor Rat)
    (noFillW : desc.get? "w" ≠ some (.text "fill")) (noFillH : desc.get? "h" ≠ some (.text "fill"))
    {w h : Option Rat} (givesW : Gives container.width (desc.get? "w") w)
    (givesH : Gives container.height (desc.get? "h") h) :
    let size := (box desc container natural k).contentSize
    SizedAlong container.width w h (natural.map fun n => (n.width, n.height))
        size.width size.height ∧
      SizedAlong container.height h w (natural.map fun n => (n.height, n.width))
        size.height size.width := by
  intro size
  have sides : size = _ := contentSize_box desc container natural k
  rw [givesW.extent_eq noFillW, givesH.extent_eq noFillH, sizeOf_eq] at sides
  rw [sides]
  refine ⟨sizedAlong_lengthAlong _ _ w h _ ?_, sizedAlong_lengthAlong _ _ h w _ ?_⟩
  · intro own other content
    obtain ⟨n, there, ⟨⟩⟩ := Option.map_eq_some_iff.mp content
    exact positive n there
  · intro own other content
    obtain ⟨n, there, ⟨⟩⟩ := Option.map_eq_some_iff.mp content
    exact (positive n there).symm

theorem placedAlong_box (desc : Record) (container : Size Rat) (natural : Option (Size Rat))
    (k : ScaleFactor Rat) :
    let r := (box desc container natural k).logical
    PlacedAlong .horizontal container.width (desc.get? "x") r.x0 r.x1 ∧
      PlacedAlong .vertical container.height (desc.get? "y") r.y0 r.y1 := by
  intro r
  have corner : r = _ := logical_box desc container natural k
  rw [corner]
  simp only [Rect.translate, zero_add]
  constructor
  · rw [add_comm]
    exact placedAlong_offset ..
  · rw [add_comm]
    exact placedAlong_offset ..

/-- Unless a size field asks to fill, both lengths are as the size fields, the content and the
container have them. Whether one does or not, the edges of the box are where the fields for its
place want those of a box of this size, and its frame is the box scaled along each axis. -/
theorem box_sized_and_placed (desc : Record) (container : Size Rat) {natural : Option (Size Rat)}
    (positive : ∀ n, natural = some n → 0 < n.width ∧ 0 < n.height) {k : ScaleFactor Rat}
    (hx : 0 < k.x) (hy : 0 < k.y) :
    let b := box desc container natural k
    (desc.get? "w" ≠ some (.text "fill") → desc.get? "h" ≠ some (.text "fill") →
      (∃ w, Gives container.width (desc.get? "w") w) ∧
      (∃ h, Gives container.height (desc.get? "h") h) ∧
      ∀ w h, Gives container.width (desc.get? "w") w → Gives container.height (desc.get? "h") h →
        SizedAlong container.width w h (natural.map fun n => (n.width, n.height))
          b.logical.width b.logical.height ∧
        SizedAlong container.height h w (natural.map fun n => (n.height, n.width))
          b.logical.height b.logical.width) ∧
    PlacedAlong .horizontal container.width (desc.get? "x") b.logical.x0 b.logical.x1 ∧
    PlacedAlong .vertical container.height (desc.get? "y") b.logical.y0 b.logical.y1 ∧
    b.frame = k.applyRect b.logical := by
  intro b
  obtain ⟨right, down⟩ := placedAlong_box desc container natural k
  refine ⟨fun noFillW noFillH => ?_, right, down, frame_box hx.le hy.le desc container natural⟩
  exact ⟨exists_gives .., exists_gives .., fun w h givesW givesH =>
    sizedAlong_box positive k noFillW noFillH givesW givesH⟩

def banner : Record := ⟨[("w", .text " 50 %"), ("x", .text "right"), ("y", .text "center")]⟩

theorem box_sized_and_placed_banner :
    let b := box banner (⟨200, 100⟩ : Size Rat) (some ⟨10, 20⟩) ⟨2, 3⟩
    b.logical = ⟨100, -50, 200, 150⟩ ∧ b.frame = ⟨200, -150, 400, 450⟩ ∧
    SizedAlong 200 (some 100) none (some (10, 20)) b.logical.width b.logical.height ∧
    SizedAlong 100 none (some 100) (some (20, 10)) b.logical.height b.logical.width ∧
    PlacedAlong .horizontal 200 (some (.text "right")) b.logical.x0 b.logical.x1 ∧
    PlacedAlong .vertical 100 (some (.text "center")) b.logical.y0 b.logical.y1 := by
  intro b
  have positive : ∀ n, some (Size.mk (10 : Rat) 20) = some n → 0 < n.width ∧ 0 < n.height := by
    rintro n ⟨⟩
    decide
  obtain ⟨sized, right, middle, frame⟩ := box_sized_and_placed banner ⟨200, 100⟩ positive
    (k := ⟨2, 3⟩) (by decide) (by decide)
  have half : Gives 200 (banner.get? "w") (some 100) := by
    have writes : Percentage " 50 %" 50 := percentOf?_eq_some.mp (by decide +kernel)
    have length : (200 : Rat) * Rational.ofFloat 50 / 100 = 100 := by decide +kernel
    rw [← length]
    exact .percentage writes
  have left : Gives 100 (banner.get? "h") none := .nothing nofun nofun
  obtain ⟨-, -, both⟩ := sized (by simp [banner, Record.get?, Record.lookup])
    (by simp [banner, Record.get?, Record.lookup])
  obtain ⟨width, height⟩ := both (some 100) none half left
  exact ⟨by decide +kernel, by decide +kernel, width, height, right, middle⟩

end LayerTree.Layout
