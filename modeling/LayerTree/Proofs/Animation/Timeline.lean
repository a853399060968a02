import LayerTree.Proofs.Animation.Interpolated
import LayerTree.Proofs.Animation.Sampled
import Mathlib.Algebra.Order.Field.Basic
import Mathlib.Tactic.Linarith
import Mathlib.Tactic.Ring

/-!
Directives over values as functions of time, in exact numbers.

Before a directive begins its first value is held, and its last one when it is over. In between,
time is measured in cycles, and the progress of a cycle is what is left beside the whole ones. A
smooth directive meets its values at equal distances and goes straight from each to the next; a
discrete one holds each of them for an equal share of the cycle.
-/

set_option autoImplicit false
set_option relaxedAutoImplicit false

namespace LayerTree.Directive

def finish (d : Directive Rat) : Rat := d.begin + d.duration * d.repeatCount

def Runs (d : Directive Rat) (t : Rat) : Prop := d.begin ≤ t ∧ t < d.finish

/-- How far the cycle has come: the time since the beginning, in cycles, without the whole ones. -/
def progress (d : Directive Rat) (t : Rat) : Rat := Int.fract ((t - d.begin) / d.duration)

def steps (vs : List (AnimValue Rat)) : Rat := (vs.length - 1 : Nat)

/-- What a directive over given values shows at each time. -/
structure FollowsTimeline [Analytic Rat] (d : Directive Rat) (vs : List (AnimValue Rat)) :
    Prop where
  before : ∀ t, t ≤ d.begin → d.sample t = vs.head?
  after : ∀ t, d.finish ≤ t → d.sample t = vs.getLast?
  periodic : ∀ t, d.begin ≤ t → t + d.duration < d.finish →
    d.sample (t + d.duration) = d.sample t
  /-- Each value but the last is met where the steps before it end. -/
  keyframe : d.calculation ≠ .discrete → ∀ t, d.Runs t → ∀ k : Nat, k + 1 < vs.length →
    d.progress t = k / steps vs → d.sample t = vs[k]?
  /-- Within a step the sample is on the way between the two values around it. -/
  between : d.calculation ≠ .discrete → ∀ t, d.Runs t → ∀ (k : Nat) (a b : AnimValue Rat),
    vs[k]? = some a → vs[k + 1]? = some b → k / steps vs ≤ d.progress t →
    d.progress t < (k + 1) / steps vs → d.sample t = some (a.lerp b (d.progress t * steps vs - k))
  /-- A number on the way between two numbers stays in their range. -/
  inRange : d.calculation ≠ .discrete → ∀ t, d.Runs t → ∀ (k : Nat) (x y : Rat),
    vs[k]? = some (.scalar x) → vs[k + 1]? = some (.scalar y) → k / steps vs ≤ d.progress t →
    d.progress t < (k + 1) / steps vs →
    ∃ s, d.sample t = some (.scalar s) ∧ min x y ≤ s ∧ s ≤ max x y
  /-- Numbers do not jump where they meet a value inside the cycle. -/
  seamless : d.calculation ≠ .discrete → ∀ t₀, d.Runs t₀ → ∀ (k : Nat) (x y z : Rat),
    vs[k]? = some (.scalar x) → vs[k + 1]? = some (.scalar y) → vs[k + 2]? = some (.scalar z) →
    d.progress t₀ = (k + 1) / steps vs →
    ∀ ε, 0 < ε → ∃ δ, 0 < δ ∧ ∀ t, |t - t₀| < δ →
      ∃ s, d.sample t = some (.scalar s) ∧ |s - y| < ε
  /-- A discrete directive shows a value during the share of the cycle that has its number. -/
  held : d.calculation = .discrete → ∀ t, d.Runs t → ∀ (k : Nat) (v : AnimValue Rat),
    vs[k]? = some v → k / vs.length ≤ d.progress t → d.progress t < (k + 1) / vs.length →
    d.sample t = some v
  /-- It shows the value at no other progress, when no other value is equal. -/
  onlyHeld : d.calculation = .discrete → ∀ t, d.Runs t → ∀ (k : Nat) (v : AnimValue Rat),
    vs[k]? = some v → vs.Nodup → d.sample t = some v →
    k / vs.length ≤ d.progress t ∧ d.progress t < (k + 1) / vs.length

/-! The phase. -/

section

variable {d : Directive Rat} {t : Rat}

theorem phase_eq_zero (early : t ≤ d.begin) : d.phase t = 0 := by
  unfold phase
  rw [if_pos (by simp [early])]

theorem progress_nonneg (d : Directive Rat) (t : Rat) : 0 ≤ d.progress t := Int.fract_nonneg _

theorem progress_lt_one (d : Directive Rat) (t : Rat) : d.progress t < 1 := Int.fract_lt_one _

theorem progress_near {t₀ : Rat} (low : 0 ≤ d.progress t₀ + (t - t₀) / d.duration)
    (high : d.progress t₀ + (t - t₀) / d.duration < 1) :
    d.progress t = d.progress t₀ + (t - t₀) / d.duration := by
  refine Int.fract_eq_iff.mpr ⟨low, high, ⌊(t₀ - d.begin) / d.duration⌋, ?_⟩
  have whole : (t₀ - d.begin) / d.duration = ⌊(t₀ - d.begin) / d.duration⌋ + d.progress t₀ :=
    (Int.floor_add_fract _).symm
  have cycles : (t - d.begin) / d.duration =
      (t₀ - d.begin) / d.duration + (t - t₀) / d.duration := by
    rw [← add_div]
    ring
  linarith

variable (moves : 0 < d.duration)

include moves

theorem phase_of_begin_lt (later : d.begin < t) :
    d.phase t = if d.finish ≤ t then 1 else d.progress t := by
  have started :
      ¬(!Scalar.isFinite t || decide (t ≤ d.begin) || decide (d.duration ≤ 0)) = true := by
    simp [Rational.isFinite, later, moves]
  have ended : d.duration * d.repeatCount ≤ t - d.begin ↔ d.finish ≤ t := by
    rw [le_sub_iff_add_le, add_comm, finish]
  unfold phase
  rw [if_neg started]
  simp only [ended]
  congr 1
  exact Rational.rem_div_eq_fract (sub_nonneg.mpr later.le) moves

theorem phase_eq_progress (runs : d.Runs t) : d.phase t = d.progress t := by
  obtain ⟨started, running⟩ := runs
  rcases started.eq_or_lt with rfl | later
  · rw [phase_eq_zero le_rfl, progress, sub_self, zero_div, Int.fract_zero]
  · rw [phase_of_begin_lt moves later, if_neg running.not_ge]

theorem phase_eq_one (repeats : 0 < d.repeatCount) (ended : d.finish ≤ t) : d.phase t = 1 := by
  have later : d.begin < t := (lt_add_of_pos_right _ (mul_pos moves repeats)).trans_le ended
  rw [phase_of_begin_lt moves later, if_pos ended]

theorem progress_add_duration (t : Rat) : d.progress (t + d.duration) = d.progress t := by
  have cycles : (t + d.duration - d.begin) / d.duration = (t - d.begin) / d.duration + 1 := by
    rw [add_sub_right_comm, add_div, div_self moves.ne']
  unfold progress
  rw [cycles, Int.fract_add_one]

end

/-! Samples at a phase. -/

section

variable {vs : List (AnimValue Rat)} (fits : vs.length ≤ UInt64.size) {p : Rat} {k : Nat}

theorem sampleValues_one (vs : List (AnimValue Rat)) (calculation : Calculation) :
    sampleValues vs 1 calculation = vs.getLast? := by
  unfold sampleValues
  rw [if_pos (by simp)]

include fits

theorem sampleValues_discrete {v : AnimValue Rat} (there : vs[k]? = some v)
    (low : k / vs.length ≤ p) (high : p < (k + 1) / vs.length) :
    sampleValues vs p .discrete = some v := by
  obtain ⟨inside, rfl⟩ := List.getElem?_eq_some_iff.mp there
  have pos : (0 : Rat) < vs.length := Nat.cast_pos.mpr (Nat.zero_lt_of_lt inside)
  have early : ¬1 ≤ p := by
    have last : ((k : Rat) + 1) / vs.length ≤ 1 := by
      rw [div_le_one pos]
      exact_mod_cast inside
    linarith
  by_cases single : vs.length ≤ 1
  · have only : k = vs.length - 1 := by omega
    unfold sampleValues
    rw [if_pos (by simp [single]), List.getLast?_eq_getElem?, ← only, there]
  · have place := index_of_place (inside.trans_le fits) ((div_le_iff₀ pos).mp low)
      ((lt_div_iff₀ pos).mp high)
    have kept : Nat.min k (vs.length - 1) = k := Nat.min_eq_left (by omega)
    unfold sampleValues
    rw [if_neg (by simp [single, early])]
    simp only [heldValue, place, kept, there]

omit fits in
theorem add_one_le_steps (inside : k + 1 < vs.length) : (k : Rat) + 1 ≤ steps vs := by
  unfold steps
  exact_mod_cast (by omega : k + 1 ≤ vs.length - 1)

omit fits in
theorem steps_pos (two : 2 ≤ vs.length) : 0 < steps vs := by
  have first := add_one_le_steps (k := 0) two
  rw [Nat.cast_zero, zero_add] at first
  exact one_pos.trans_le first

theorem sampleValues_between {a b : AnimValue Rat} {calculation : Calculation}
    (smooth : calculation ≠ .discrete) (ha : vs[k]? = some a) (hb : vs[k + 1]? = some b)
    (low : k / steps vs ≤ p) (high : p < (k + 1) / steps vs) :
    sampleValues vs p calculation = some (a.lerp b (p * steps vs - k)) := by
  obtain ⟨inside, -⟩ := List.getElem?_eq_some_iff.mp hb
  have moving : 0 < steps vs := steps_pos (by omega)
  have early : ¬1 ≤ p := by
    have last : ((k : Rat) + 1) / steps vs ≤ 1 :=
      (div_le_one moving).mpr (add_one_le_steps inside)
    linarith
  have place := index_of_place ((Nat.lt_of_succ_lt inside).trans_le fits)
    ((div_le_iff₀ moving).mp low) ((lt_div_iff₀ moving).mp high)
  have kept : Nat.min k (vs.length - 2) = k := Nat.min_eq_left (by omega)
  have between : betweenValues vs p = some (a.lerp b (p * steps vs - k)) := by
    unfold steps at place ⊢
    simp only [betweenValues, place, kept, ha, hb]
  have several : ¬(vs.length ≤ 1 || decide (1 ≤ p)) = true := by
    simp [early]
    omega
  unfold sampleValues
  rw [if_neg several]
  cases calculation with
  | discrete => exact absurd rfl smooth
  | linear | paced => exact between

theorem sampleValues_zero (calculation : Calculation) :
    sampleValues vs 0 calculation = vs.head? := by
  rcases vs with _ | ⟨a, _ | ⟨b, rest⟩⟩
  · rfl
  · rfl
  · have many : (0 : Rat) < (a :: b :: rest).length := Nat.cast_pos.mpr (Nat.succ_pos _)
    have moving : 0 < steps (a :: b :: rest) := steps_pos (Nat.le_add_left 2 _)
    by_cases jumps : calculation = .discrete
    · rw [jumps]
      exact sampleValues_discrete fits (k := 0) rfl (by simp) (by simpa using many)
    · have start := sampleValues_between fits (k := 0) (p := 0) jumps rfl rfl (by simp)
        (by simpa using moving)
      rwa [zero_mul, Nat.cast_zero, sub_zero, AnimValue.lerp_zero] at start

omit fits in
theorem exists_share {n : Nat} (pos : 0 < n) (low : 0 ≤ p) (high : p < 1) :
    ∃ j < n, (j : Rat) / n ≤ p ∧ p < (j + 1) / n := by
  have pos : (0 : Rat) < n := Nat.cast_pos.mpr pos
  have below : (⌊p * n⌋₊ : Rat) ≤ p * n := Nat.floor_le (mul_nonneg low pos.le)
  have above : p * n < ⌊p * n⌋₊ + 1 := Nat.lt_floor_add_one _
  refine ⟨⌊p * n⌋₊, ?_, (div_le_iff₀ pos).mpr below, (lt_div_iff₀ pos).mpr above⟩
  exact Nat.cast_lt.mp (below.trans_lt (mul_lt_of_lt_one_left pos high))

theorem sampleValues_near {x y z u : Rat} {calculation : Calculation}
    (smooth : calculation ≠ .discrete) (hx : vs[k]? = some (.scalar x))
    (hy : vs[k + 1]? = some (.scalar y)) (hz : vs[k + 2]? = some (.scalar z))
    (close : |u| * steps vs < 1) :
    ∃ s, sampleValues vs ((k + 1) / steps vs + u) calculation = some (.scalar s) ∧
      |s - y| ≤ (|y - x| + |z - y|) * (|u| * steps vs) := by
  obtain ⟨inside, -⟩ := List.getElem?_eq_some_iff.mp hz
  have moving : 0 < steps vs := steps_pos (by omega)
  have width : |u| < 1 / steps vs := (lt_div_iff₀ moving).mpr close
  have place : ((k + 1) / steps vs + u) * steps vs = k + 1 + u * steps vs := by
    rw [add_mul, div_mul_cancel₀ _ moving.ne']
  have way : 0 ≤ |u| * steps vs := mul_nonneg (abs_nonneg u) moving.le
  rcases le_or_gt 0 u with later | earlier
  · -- on the way from the value to the next one
    have size : |u| = u := abs_of_nonneg later
    rw [size] at width
    have sample := sampleValues_between fits (p := (k + 1) / steps vs + u) smooth hy hz
      (by push_cast; linarith) (by push_cast; rw [add_div (k + 1 : Rat) 1]; linarith)
    refine ⟨_, sample, ?_⟩
    have off : y + (z - y) * (((k + 1) / steps vs + u) * steps vs - (k + 1 : Nat)) - y =
        (z - y) * (u * steps vs) := by
      rw [place]
      push_cast
      ring
    rw [off, abs_mul, abs_mul, abs_of_pos moving]
    exact mul_le_mul_of_nonneg_right (le_add_of_nonneg_left (abs_nonneg _)) way
  · -- on the way to the value from the one before it
    have size : |u| = -u := abs_of_neg earlier
    rw [size] at width
    have sample := sampleValues_between fits (p := (k + 1) / steps vs + u) smooth hx hy
      (by rw [add_div]; linarith) (by linarith)
    refine ⟨_, sample, ?_⟩
    have off : x + (y - x) * (((k + 1) / steps vs + u) * steps vs - k) - y =
        (y - x) * (u * steps vs) := by
      rw [place]
      ring
    rw [off, abs_mul, abs_mul, abs_of_pos moving]
    exact mul_le_mul_of_nonneg_right (le_add_of_nonneg_right (abs_nonneg _)) way

end

/-! Samples at a time. -/

section

variable [Analytic Rat] {d : Directive Rat} {vs : List (AnimValue Rat)}

theorem sample_eq_sampleValues (values : d.keyframes = .values vs) (t : Rat) :
    d.sample t = sampleValues vs (d.phase t) d.calculation := by
  simp only [sample, values]

omit [Analytic Rat] in
theorem begin_le_of_near (moves : 0 < d.duration) {t₀ t : Rat} (runs : d.Runs t₀)
    (near : |t - t₀| / d.duration ≤ d.progress t₀) : d.begin ≤ t := by
  have cycles : 0 ≤ (t₀ - d.begin) / d.duration :=
    div_nonneg (sub_nonneg.mpr runs.1) moves.le
  have share : d.progress t₀ ≤ (t₀ - d.begin) / d.duration := by
    have whole : (0 : Rat) ≤ ⌊(t₀ - d.begin) / d.duration⌋ := by
      exact_mod_cast Int.floor_nonneg.mpr cycles
    have split := Int.floor_add_fract ((t₀ - d.begin) / d.duration)
    unfold progress
    linarith
  have back : |t - t₀| ≤ t₀ - d.begin :=
    (div_le_div_iff_of_pos_right moves).mp (near.trans share)
  linarith [neg_abs_le (t - t₀)]

theorem exists_near_keyframe (values : d.keyframes = .values vs) (fits : vs.length ≤ UInt64.size)
    (moves : 0 < d.duration) (smooth : d.calculation ≠ .discrete) {t₀ : Rat} (runs : d.Runs t₀)
    {k : Nat} {x y z : Rat} (hx : vs[k]? = some (.scalar x)) (hy : vs[k + 1]? = some (.scalar y))
    (hz : vs[k + 2]? = some (.scalar z)) (here : d.progress t₀ = (k + 1) / steps vs) {ε : Rat}
    (positive : 0 < ε) :
    ∃ δ, 0 < δ ∧ ∀ t, |t - t₀| < δ → ∃ s, d.sample t = some (.scalar s) ∧ |s - y| < ε := by
  obtain ⟨inside, -⟩ := List.getElem?_eq_some_iff.mp hz
  have moving : 0 < steps vs := steps_pos (by omega)
  have ways : 0 ≤ |y - x| + |z - y| := add_nonneg (abs_nonneg _) (abs_nonneg _)
  have ways' : 0 < |y - x| + |z - y| + 1 := add_pos_of_nonneg_of_pos ways one_pos
  -- as many steps away as keep within one step, and within `ε` of the value
  have few : 0 < min 1 (ε / (|y - x| + |z - y| + 1)) := lt_min one_pos (div_pos positive ways')
  refine ⟨min (d.duration / steps vs * min 1 (ε / (|y - x| + |z - y| + 1))) (d.finish - t₀),
    lt_min (mul_pos (div_pos moves moving) few) (sub_pos.mpr runs.2), fun t near => ?_⟩
  obtain ⟨near, early⟩ := lt_min_iff.mp near
  have distance : |(t - t₀) / d.duration| = |t - t₀| / d.duration := by
    rw [abs_div, abs_of_pos moves]
  have passed : |(t - t₀) / d.duration| * steps vs < min 1 (ε / (|y - x| + |z - y| + 1)) := by
    rw [distance, div_mul_eq_mul_div, div_lt_iff₀ moves]
    rw [div_mul_eq_mul_div, lt_div_iff₀ moving, mul_comm d.duration] at near
    exact near
  obtain ⟨step, little⟩ := lt_min_iff.mp passed
  have width : |(t - t₀) / d.duration| < 1 / steps vs := (lt_div_iff₀ moving).mpr step
  obtain ⟨left, right⟩ := abs_lt.mp width
  have first : 1 / steps vs ≤ (k + 1) / steps vs :=
    div_le_div_of_nonneg_right (le_add_of_nonneg_left (Nat.cast_nonneg k)) moving.le
  have last : (k + 1) / steps vs + 1 / steps vs ≤ 1 := by
    rw [← add_div, div_le_one moving]
    exact_mod_cast add_one_le_steps (k := k + 1) inside
  have runs' : d.Runs t := by
    refine ⟨begin_le_of_near moves runs ?_, by linarith [le_abs_self (t - t₀)]⟩
    rw [← distance, here]
    exact width.le.trans first
  have progress : d.progress t = (k + 1) / steps vs + (t - t₀) / d.duration := by
    rw [← here]
    exact progress_near (by rw [here]; linarith) (by rw [here]; linarith)
  obtain ⟨s, sample, off⟩ := sampleValues_near fits smooth hx hy hz step
  refine ⟨s, ?_, ?_⟩
  · rw [sample_eq_sampleValues values, phase_eq_progress moves runs', progress, sample]
  · have small := (lt_div_iff₀ ways').mp little
    have nonneg := mul_nonneg (abs_nonneg ((t - t₀) / d.duration)) moving.le
    linarith

/-- A directive that moves through at least one value follows the timeline. There are at most as
many values as 64 bits can number. -/
theorem sample_follows_timeline (values : d.keyframes = .values vs) (nonempty : vs ≠ [])
    (fits : vs.length ≤ UInt64.size) (moves : 0 < d.duration) (repeats : 0 < d.repeatCount) :
    d.FollowsTimeline vs := by
  have running : ∀ t, d.Runs t → d.sample t = sampleValues vs (d.progress t) d.calculation := by
    intro t runs
    rw [sample_eq_sampleValues values, phase_eq_progress moves runs]
  have between : d.calculation ≠ .discrete → ∀ t, d.Runs t → ∀ (k : Nat) (a b : AnimValue Rat),
      vs[k]? = some a → vs[k + 1]? = some b → k / steps vs ≤ d.progress t →
      d.progress t < (k + 1) / steps vs →
      d.sample t = some (a.lerp b (d.progress t * steps vs - k)) := by
    intro smooth t runs k a b ha hb low high
    rw [running t runs]
    exact sampleValues_between fits smooth ha hb low high
  constructor
  case before =>
    intro t early
    rw [sample_eq_sampleValues values, phase_eq_zero early, sampleValues_zero fits]
  case after =>
    intro t ended
    rw [sample_eq_sampleValues values, phase_eq_one moves repeats ended, sampleValues_one]
  case periodic =>
    intro t started early
    have runs : d.Runs t := ⟨started, by linarith⟩
    have runs' : d.Runs (t + d.duration) := ⟨by linarith, early⟩
    rw [running t runs, running _ runs', progress_add_duration moves]
  case between => exact between
  case keyframe =>
    intro smooth t runs k inside here
    have moving : 0 < steps vs := steps_pos (by omega)
    have next : d.progress t < (k + 1) / steps vs := by
      rw [here]
      exact div_lt_div_of_pos_right (lt_add_one _) moving
    have place : d.progress t * steps vs - k = 0 := by
      rw [here, div_mul_cancel₀ _ moving.ne', sub_self]
    rw [between smooth t runs k vs[k] vs[k + 1] (List.getElem?_eq_getElem _)
      (List.getElem?_eq_getElem inside) here.ge next, place, AnimValue.lerp_zero,
      List.getElem?_eq_getElem]
  case inRange =>
    intro smooth t runs k x y hx hy low high
    have moving : 0 < steps vs := by
      obtain ⟨inside, -⟩ := List.getElem?_eq_some_iff.mp hy
      exact steps_pos (by omega)
    obtain ⟨s, way, range⟩ := AnimValue.lerp_scalar_mem x y (t := d.progress t * steps vs - k)
      (by linarith [(div_le_iff₀ moving).mp low]) (by linarith [(lt_div_iff₀ moving).mp high])
    exact ⟨s, way ▸ between smooth t runs k _ _ hx hy low high, range⟩
  case seamless =>
    intro smooth t₀ runs k x y z hx hy hz here ε positive
    exact exists_near_keyframe values fits moves smooth runs hx hy hz here positive
  case held =>
    intro jumps t runs k v there low high
    rw [running t runs, jumps]
    exact sampleValues_discrete fits there low high
  case onlyHeld =>
    intro jumps t runs k v there distinct shown
    obtain ⟨j, inside, low, high⟩ := exists_share (List.length_pos_iff.mpr nonempty)
      (progress_nonneg d t) (progress_lt_one d t)
    have held := sampleValues_discrete fits (List.getElem?_eq_getElem inside) low high
    rw [running t runs, jumps, held, ← there, ← List.getElem?_eq_getElem inside] at shown
    obtain rfl := (List.getElem?_inj inside distinct).mp shown
    exact ⟨low, high⟩

end

def twoBlinks : Directive Rat := looping .root .opacity [.scalar 1, .scalar 0, .scalar 1] 2

theorem sample_follows_timeline_blinks : ∃ _ : Analytic Rat,
    twoBlinks.FollowsTimeline [.scalar 1, .scalar 0, .scalar 1] ∧
    twoBlinks.sample (1 / 4) = some (.scalar 0) ∧
    twoBlinks.sample (1 / 4 + 1 / 2) = some (.scalar 0) ∧
    twoBlinks.sample 2 = some (.scalar 1) := by
  let analytic : Analytic Rat := ⟨id, id, id, id, fun x _ => x, fun x _ => x⟩
  have follows : twoBlinks.FollowsTimeline [.scalar 1, .scalar 0, .scalar 1] :=
    sample_follows_timeline rfl (List.cons_ne_nil _ _) (by decide) (by decide +kernel)
      (by decide +kernel)
  have dark : twoBlinks.sample (1 / 4) = some (.scalar 0) := by decide +kernel
  have half : twoBlinks.duration = 1 / 2 := by decide +kernel
  have again := follows.periodic (1 / 4) (by decide +kernel) (by decide +kernel)
  rw [half, dark] at again
  exact ⟨analytic, follows, dark, again, follows.after 2 (by decide +kernel)⟩

end LayerTree.Directive
