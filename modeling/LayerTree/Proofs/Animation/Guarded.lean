import LayerTree.Proofs.Animation.Sampled

/-!
Sampling with guarded indices.

Sampling looks values and curves up by indices that it computes. Here it is written once more so
that a difference below zero and an index outside of its list are faults; no fault ever happens, and
the answers are the same. Nothing is assumed of the numbers, which may be floats that are infinite
or no numbers at all: every index is cut to the last one, and the walk along curves ends at the last
one.
-/

set_option autoImplicit false
set_option relaxedAutoImplicit false

namespace LayerTree

theorem exists_locate {α : Type} [Scalar α] {lengths : List α} (nonempty : lengths ≠ [])
    (distance : α) :
    ∃ i d, locate lengths distance = some (i, d) ∧ i < lengths.length := by
  induction lengths generalizing distance with
  | nil => exact absurd rfl nonempty
  | cons length rest ih =>
    cases rest with
    | nil => exact ⟨0, _, rfl, Nat.one_pos⟩
    | cons next rest =>
      unfold locate
      split
      · exact ⟨0, _, rfl, Nat.succ_pos _⟩
      · obtain ⟨i, d, found, inside⟩ := ih (List.cons_ne_nil _ _) (distance - length)
        rw [found]
        exact ⟨i + 1, d, rfl, Nat.succ_lt_succ inside⟩

theorem exists_locate_among {α : Type} [Scalar α] [Analytic α] {segs : List (Segment α)}
    (nonempty : segs ≠ []) (distance : α) :
    ∃ i d, locate (segs.map Segment.length) distance = some (i, d) ∧ i < segs.length := by
  obtain ⟨i, d, found, inside⟩ := exists_locate (List.map_eq_nil_iff.not.mpr nonempty) distance
  rw [List.length_map] at inside
  exact ⟨i, d, found, inside⟩

inductive IndexFault where
  | belowZero
  | outside
  deriving DecidableEq

namespace Guarded

def minus (m n : Nat) : Except IndexFault Nat :=
  if n ≤ m then .ok (m - n) else .error .belowZero

def item {β : Type} (xs : List β) (i : Nat) : Except IndexFault β :=
  match xs[i]? with
  | some x => .ok x
  | none => .error .outside

theorem minus_eq {m n : Nat} (h : n ≤ m) : minus m n = .ok (m - n) := if_pos h

theorem item_eq {β : Type} {xs : List β} {i : Nat} (h : i < xs.length) :
    item xs i = .ok xs[i] := by
  unfold item
  rw [List.getElem?_eq_getElem h]

variable {α : Type} [Scalar α]

def sampleValues (vs : List (AnimValue α)) (phase : α) (calculation : Calculation) :
    Except IndexFault (Option (AnimValue α)) :=
  match minus vs.length 1 with
  | .error _ => .ok none
  | .ok last =>
    if last == 0 || decide (1 ≤ phase) then .ok vs.getLast?
    else
      match calculation with
      | .discrete => do
        let share := (Scalar.toUInt64 (Scalar.floor (phase * (vs.length : α)))).toNat
        let value ← item vs (Nat.min share last)
        .ok (some value)
      | .linear | .paced => do
        let place := phase * (last : α)
        let beforeLast ← minus last 1
        let index := Nat.min (Scalar.toUInt64 (Scalar.floor place)).toNat beforeLast
        let a ← item vs index
        let b ← item vs (index + 1)
        .ok (some (a.lerp b (place - (index : α))))

def walk (last : Nat) : Nat → List α → α → Option (Nat × α)
  | _, [], _ => none
  | i, length :: rest, distance =>
    if distance ≤ length ∨ i = last then some (i, Scalar.min distance length)
    else walk last (i + 1) rest (distance - length)

variable [Analytic α]

def sampleAlong (segs : List (Segment α)) (phase : α) :
    Except IndexFault (Option (Point α × Vec α)) :=
  match segs with
  | [] => .ok none
  | first :: _ =>
    let lengths := segs.map Segment.length
    let total := Scalar.sum lengths
    if total ≤ 0 then .ok (some (first.eval 0, ⟨1, 0⟩))
    else do
      let last ← minus segs.length 1
      match walk last 0 lengths (Scalar.clamp 0 1 phase * total) with
      | none => .ok none
      | some (index, distance) =>
        let seg ← item segs index
        .ok (some (Directive.tangentAt seg
          (if 0 < seg.length then seg.parameterAt distance else 0)))

def sample (d : Directive α) (t : α) : Except IndexFault (Option (AnimValue α)) :=
  match d.keyframes with
  | .values vs => sampleValues vs (d.phase t) d.calculation
  | .motionPath path rotateAuto =>
    (sampleAlong path.segments (d.phase t)).map (Option.map fun (position, tangent) =>
      .motion position (if rotateAuto then Analytic.atan2 tangent.y tangent.x else 0))

omit [Analytic α]

theorem sampleValues_eq (vs : List (AnimValue α)) (phase : α) (calculation : Calculation) :
    sampleValues vs phase calculation = .ok (Directive.sampleValues vs phase calculation) := by
  cases vs with
  | nil => rfl
  | cons v rest =>
    have last : minus (v :: rest).length 1 = .ok rest.length := minus_eq (Nat.succ_pos _)
    have single : (rest.length == 0) = decide ((v :: rest).length ≤ 1) := by
      simp [beq_eq_decide]
    unfold sampleValues Directive.sampleValues
    simp only [last, single]
    split
    · rfl
    · next several =>
      have two : 1 ≤ rest.length := by
        simp only [List.length_cons, Bool.or_eq_true, decide_eq_true_eq, not_or] at several
        omega
      cases calculation with
      | discrete =>
        have inside (i : Nat) : Nat.min i rest.length < (v :: rest).length :=
          Nat.lt_succ_of_le (Nat.min_le_right _ _)
        simp only [Directive.heldValue, item_eq (inside _), List.length_cons,
          Nat.add_sub_cancel, List.getElem?_eq_getElem (inside _)]
        rfl
      | linear | paced =>
        have before : minus rest.length 1 = .ok (rest.length - 1) := minus_eq two
        have next (i : Nat) : Nat.min i (rest.length - 1) + 1 < (v :: rest).length := by
          have cut : Nat.min i (rest.length - 1) ≤ rest.length - 1 := Nat.min_le_right _ _
          rw [List.length_cons]
          omega
        have here (i : Nat) : Nat.min i (rest.length - 1) < (v :: rest).length :=
          Nat.lt_of_succ_lt (next i)
        simp only [Directive.betweenValues, before, List.length_cons, Nat.add_sub_cancel,
          Nat.reduceSubDiff, bind, Except.bind, item_eq (here _), item_eq (next _),
          List.getElem?_eq_getElem (here _), List.getElem?_eq_getElem (next _)]

theorem walk_eq_locate (lengths : List α) (i : Nat) (distance : α) :
    walk (i + lengths.length - 1) i lengths distance =
      (locate lengths distance).map fun (j, d) => (i + j, d) := by
  induction lengths generalizing i distance with
  | nil => rfl
  | cons length rest ih =>
    cases rest with
    | nil => simp [walk, locate]
    | cons next rest =>
      have onward : i + (length :: next :: rest).length - 1 =
          (i + 1) + (next :: rest).length - 1 := by
        simp only [List.length_cons]
        omega
      have other : i ≠ i + (length :: next :: rest).length - 1 := by
        simp only [List.length_cons]
        omega
      unfold walk locate
      by_cases within : distance ≤ length
      · rw [if_pos (.inl within), if_pos within]
        rfl
      · rw [if_neg (not_or.mpr ⟨within, other⟩), if_neg within, onward, ih, Option.map_map]
        congr 1
        funext ⟨j, d⟩
        exact congrArg (·, d) (Nat.add_right_comm i 1 j)

variable [Analytic α]

theorem sampleAlong_eq (segs : List (Segment α)) (phase : α) :
    sampleAlong segs phase = .ok (Directive.sampleAlong segs phase) := by
  cases segs with
  | nil => rfl
  | cons first rest =>
    have last : minus (first :: rest).length 1 = .ok rest.length := minus_eq (Nat.succ_pos _)
    have walked (distance : α) : walk rest.length 0 ((first :: rest).map Segment.length) distance =
        locate ((first :: rest).map Segment.length) distance := by
      have same := walk_eq_locate ((first :: rest).map Segment.length) 0 distance
      simpa using same
    unfold sampleAlong Directive.sampleAlong
    dsimp only
    split
    · rfl
    · obtain ⟨i, distance, found, inside⟩ := exists_locate_among (List.cons_ne_nil first rest)
        (Scalar.clamp 0 1 phase * Scalar.sum ((first :: rest).map Segment.length))
      simp only [last, walked, found, bind, Except.bind, item_eq inside, Option.bind_some,
        List.getElem?_eq_getElem inside, Option.map_some]

theorem sample_eq (d : Directive α) (t : α) : sample d t = .ok (d.sample t) := by
  unfold sample Directive.sample
  cases d.keyframes with
  | values vs => exact sampleValues_eq vs _ _
  | motionPath path rotateAuto =>
    simp only [sampleAlong_eq]
    rfl

end Guarded

namespace Directive

variable {α : Type} [Scalar α] [Analytic α]

theorem sampleAlong_eq_none {segs : List (Segment α)} {phase : α} :
    sampleAlong segs phase = none ↔ segs = [] := by
  refine ⟨fun nowhere => ?_, by rintro rfl; rfl⟩
  cases segs with
  | nil => rfl
  | cons first rest =>
    unfold sampleAlong at nowhere
    dsimp only at nowhere
    split at nowhere
    · cases nowhere
    · obtain ⟨i, distance, found, inside⟩ := exists_locate_among (List.cons_ne_nil first rest)
        (Scalar.clamp 0 1 phase * Scalar.sum ((first :: rest).map Segment.length))
      rw [found, Option.bind_some, List.getElem?_eq_getElem inside] at nowhere
      cases nowhere

omit [Analytic α] in
theorem sampleValues_eq_none {vs : List (AnimValue α)} {phase : α} {calculation : Calculation} :
    sampleValues vs phase calculation = none ↔ vs = [] := by
  refine ⟨fun nothing => ?_, by rintro rfl; rfl⟩
  by_contra some
  rcases sampleValues_cases some phase calculation with ⟨v, -, held⟩ | ⟨two, -, between⟩
  · exact nomatch nothing.symm.trans held
  · obtain ⟨i, a, b, x, -, -, value⟩ := exists_neighbours two phase
    exact nomatch nothing.symm.trans (between.trans value)

/-- Sampling a directive at any time, whatever numbers there are in it, computes no index below zero
and looks nothing up outside of a list. There is a sample unless there are no values, or nothing to
move along; and a sample of values is one of them or lies between two that follow each other. -/
theorem sample_total (d : Directive α) (t : α) :
    Guarded.sample d t = .ok (d.sample t) ∧
    (d.sample t = none ↔ d.keyframes = .values [] ∨
      ∃ path rotateAuto, d.keyframes = .motionPath path rotateAuto ∧ path.segments = []) ∧
    ∀ vs, d.keyframes = .values vs → ∀ v, d.sample t = some v →
      v ∈ vs ∨ ∃ i a b x, vs[i]? = some a ∧ vs[i + 1]? = some b ∧ v = a.lerp b x := by
  refine ⟨Guarded.sample_eq d t, ?_, ?_⟩
  · unfold sample
    cases d.keyframes with
    | values vs => simp [sampleValues_eq_none]
    | motionPath path rotateAuto => simp [sampleAlong_eq_none]
  · intro vs values v sampled
    simp only [sample, values] at sampled
    have nonempty : vs ≠ [] := by
      rintro rfl
      cases sampled
    rcases sampleValues_cases nonempty (d.phase t) d.calculation with
      ⟨w, there, held⟩ | ⟨two, -, between⟩
    · obtain rfl := Option.some.inj (sampled.symm.trans held)
      exact .inl there
    · obtain ⟨i, a, b, x, ha, hb, value⟩ := exists_neighbours two (d.phase t)
      exact .inr ⟨i, a, b, x, ha, hb,
        Option.some.inj (sampled.symm.trans (between.trans value))⟩

/-- At no time at all, a fading layer is as it was. -/
example : (transition .root .opacity (.scalar 1) (.scalar 0) : Directive Float).sample (0 / 0) =
    some (.scalar 1) := by
  decide +kernel

end Directive

end LayerTree
