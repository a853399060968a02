import LayerTree.Proofs.Animation.Timeline
import LayerTree.Proofs.Animation.TransformParts
import LayerTree.Proofs.Animation.Typed
import LayerTree.Proofs.Layout.Tiled

/-!
Repeated content that is shifted in cycles.

A loop that shifts an element with tiles moves all of them by the size of the element, to the side
that the record names. At every moment the tiles cover the element. At the end of a cycle one tile
stands where the element is, so that nothing is seen of the jump to the start of the next cycle.
-/

set_option autoImplicit false
set_option relaxedAutoImplicit false

namespace LayerTree

/-! One directive. -/

namespace Directive

variable [Analytic Rat]

/-- Tiles that are shifted along the timeline, by `cycle` in each cycle, without a gap or a jump. -/
structure ShiftsSeamlessly (d : Directive Rat) (bounds : Rect Rat) (tiles : TilingHost Rat)
    (cycle : Vec Rat) : Prop where
  /-- The cycles fill the timeline. -/
  fills : d.FillsTimeline
  /-- A cycle is a step to one of the sides. -/
  step : bounds.Step cycle
  /-- At every time the tiles are shifted, and nothing else, and they cover the bounds. -/
  covers : ∀ t, ∃ shift : Vec Rat,
    d.sample t = some (.transform (Transform.identity.moved shift)) ∧ tiles.Covers shift bounds
  /-- They are shifted evenly during a cycle. -/
  runs : ∀ t, d.Runs t → d.sample t =
    some (.transform (Transform.identity.moved ⟨cycle.x * d.progress t, cycle.y * d.progress t⟩))
  /-- After the last cycle they stay where it ends. -/
  stays : ∀ t, d.finish ≤ t → d.sample t = some (.transform (Transform.identity.moved cycle))
  /-- One of the tiles is then where the bounds are. -/
  returns : ∃ tile ∈ tiles.tiles, tile.translate cycle = bounds
  /-- Within the bounds they show at the end of a cycle what they show at its start. -/
  wraps : ∀ p, bounds.Holds p → ∀ place, tiles.Shows cycle p place ↔ tiles.Shows Vec.zero p place

def shifts (cycle : Vec Rat) : List (AnimValue Rat) :=
  [.transform .identity, .transform (Transform.identity.moved cycle)]

def shifting (cycle : Vec Rat) (repeatCount : Rat) : Directive Rat :=
  .looping .tilingHost .transform (shifts cycle) repeatCount

omit [Analytic Rat] in
theorem lerp_identity_moved (cycle : Vec Rat) (x : Rat) :
    Transform.identity.lerp (Transform.identity.moved cycle) x =
      Transform.identity.moved ⟨cycle.x * x, cycle.y * x⟩ := by
  simp only [Transform.lerp, Transform.moved, Transform.identity, Vec.lerp, Vec.add, Vec.zero,
    sub_self, zero_mul, add_zero, zero_add, sub_zero]

variable {cycle : Vec Rat} {count : Rat}

/-- The content is shifted by the share of the cycle that the phase is. -/
theorem sample_shifting (cycle : Vec Rat) (count t : Rat) :
    (shifting cycle count).sample t = some (.transform (Transform.identity.moved
      ⟨cycle.x * (shifting cycle count).phase t, cycle.y * (shifting cycle count).phase t⟩)) := by
  obtain ⟨low, high⟩ := (shifting cycle count).phase_mem t
  change sampleValues (shifts cycle) ((shifting cycle count).phase t) .linear = _
  generalize (shifting cycle count).phase t = phase at low high ⊢
  rcases high.eq_or_lt with rfl | before
  · simp only [sampleValues_one, mul_one]
    rfl
  · have fits : (shifts cycle).length ≤ UInt64.size := show 2 ≤ UInt64.size by decide
    have single : steps (shifts cycle) = 1 := Nat.cast_one
    have between : sampleValues (shifts cycle) phase .linear =
        some (AnimValue.lerp (.transform .identity) (.transform (Transform.identity.moved cycle))
          (phase * steps (shifts cycle) - (0 : Nat))) :=
      sampleValues_between fits nofun rfl rfl
        (by simpa [single] using low) (by simpa [single] using before)
    rw [between, single, Nat.cast_zero, sub_zero, mul_one, AnimValue.lerp, lerp_identity_moved]

theorem shiftsSeamlessly_shifting {bounds : Rect Rat} (step : bounds.Step cycle)
    (repeats : 0 < count) :
    (shifting cycle count).ShiftsSeamlessly bounds (.around bounds) cycle := by
  have fills : (shifting cycle count).FillsTimeline := fillsTimeline_looping _ _ _ repeats
  refine ⟨fills, step, fun t => ?_, fun t runs => ?_, fun t ended => ?_,
    TilingHost.exists_tile_translate step,
    fun p here place => TilingHost.shows_around_step step here place⟩
  · obtain ⟨low, high⟩ := (shifting cycle count).phase_mem t
    exact ⟨_, sample_shifting cycle count t, TilingHost.covers_around step low high⟩
  · rw [sample_shifting, phase_eq_progress fills.duration runs]
  · rw [sample_shifting, phase_eq_one fills.duration fills.repeatCount ended]
    simp only [mul_one]

end Directive

/-! The loop of an element. -/

namespace Animations

variable [Analytic Rat]

/-- Among the directives is exactly one that moves the tiles, and it shifts them without a gap or a
jump. -/
def ShiftsTiles (directives : List (Directive Rat)) (bounds : Rect Rat) (tiles : TilingHost Rat)
    (cycle : Vec Rat) : Prop :=
  ∃ d : Directive Rat, (∀ e, e ∈ directives ∧ e.track = (.tilingHost, .transform) ↔ e = d) ∧
    d.ShiftsSeamlessly bounds tiles cycle

omit [Analytic Rat] in
theorem step_shiftVector (direction : Option String) (bounds : Rect Rat) :
    bounds.Step (shiftVector direction bounds) := by
  unfold shiftVector
  split
  · exact .up
  · exact .right
  · exact .left
  · exact .down

variable {paths : Outline.NamedPaths} {frames : List ResourceUrl} {spec : Record}

theorem repeated_of_shift {src : AnimationSource Rat}
    (looped : src.info.record? "loop" = some spec)
    (style : spec.text? "style" = some "shift")
    (tiled : src.layers.tiling = some (.around src.bounds)) :
    repeated paths src =
      [Directive.shifting (shiftVector (spec.text? "direction") src.bounds) (loopRepeat spec)] := by
  simp only [repeated, looped, Option.map_some, Option.getD_some, loops, style, shiftLoop, tiled]
  rfl

theorem shiftsTiles_of_shift (src : AnimationSource Rat)
    (looped : src.info.record? "loop" = some spec)
    (style : spec.text? "style" = some "shift")
    (tiled : src.layers.tiling = some (.around src.bounds)) :
    ShiftsTiles (ofDescriptor paths frames src).directives src.bounds (.around src.bounds)
      (shiftVector (spec.text? "direction") src.bounds) := by
  have loop : repeated paths src = _ := repeated_of_shift looped style tiled
  refine ⟨_, fun e => ?_, Directive.shiftsSeamlessly_shifting (step_shiftVector _ _)
    (loopRepeat_pos spec)⟩
  rw [mem_directives, loop]
  constructor
  · rintro ⟨there | ⟨-, apart⟩ | ⟨-, apart, -⟩, track⟩
    · exact List.mem_singleton.mp there
    · exact absurd (track ▸ List.mem_singleton.mpr rfl) apart
    · exact absurd (track ▸ List.mem_singleton.mpr rfl) apart
  · rintro rfl
    exact ⟨.inl (List.mem_singleton.mpr rfl), rfl⟩

end Animations

namespace Build

variable {α : Type} [Scalar α]

theorem tiling?_eq_some {info : Record} {content : Option (Primary α)} {bounds : Rect α}
    {tiles : TilingHost α} (there : tiling? info content bounds = some tiles) :
    tiles = .around bounds := by
  unfold tiling? at there
  split at there
  · split at there
    · exact (Option.some.inj there).symm
    · exact (Option.some.inj there).symm
    · cases there
  · cases there

theorem body_tiling {σ : Type} [Analytic α] (h : Host σ α) (screen : Size α) (k : ScaleFactor α)
    (info : Record) (container : Size α) (id : ElementId) :
    Returns (fun b => ∀ tiles, b.layers.tiling = some tiles → tiles = .around b.box.bounds)
      (body h screen k info container id) := by
  rw [body_eq]
  refine .bind (.trivial _) fun image _ => .bind (.trivial _) fun mask _ => ?_
  refine .bind (.trivial _) fun content _ => ?_
  refine .bind (.trivial _) fun text _ => .bind (.trivial _) fun richText _ => ?_
  exact .bind (.trivial _) fun frames _ => .pure fun tiles there => tiling?_eq_some there

end Build

namespace Element

/-- A shift of repeated content is seamless: for tiles around any bounds, and for each element of a
loaded tree that has tiles and a record `loop` that asks for a shift, in whatever direction and
however often. -/
theorem Loaded.shifts_seamlessly [Analytic Rat] {root : Element Rat} (loaded : root.Loaded) :
    (∀ (paths : Outline.NamedPaths) (frames : List ResourceUrl) (src : AnimationSource Rat)
        (spec : Record), src.info.record? "loop" = some spec →
      spec.text? "style" = some "shift" → src.layers.tiling = some (.around src.bounds) →
      Animations.ShiftsTiles (Animations.ofDescriptor paths frames src).directives src.bounds
        (.around src.bounds) (Animations.shiftVector (spec.text? "direction") src.bounds)) ∧
    ∀ b ∈ root.toList, ∀ (spec : Record) (tiles : TilingHost Rat),
      b.info.record? "loop" = some spec → spec.text? "style" = some "shift" →
      b.layers.tiling = some tiles →
      Animations.ShiftsTiles b.animations b.box.bounds tiles
        (Animations.shiftVector (spec.text? "direction") b.box.bounds) := by
  refine ⟨fun paths frames src spec => Animations.shiftsTiles_of_shift src, ?_⟩
  obtain ⟨σ, h, depth, desc, dimension, k, first, s, loads⟩ := loaded
  intro b hb spec tiles looped style tiled
  obtain ⟨container, _, here⟩ := (mirrors_of_loadWithin loads).renders b hb
  obtain ⟨s, same, -⟩ := here.built
  have around := Build.body_tiling h dimension k b.info container b.id s
  obtain ⟨-, frames, animations⟩ := Build.body_transform h dimension k b.info container b.id s
  rw [same] at around animations
  obtain rfl := around tiles tiled
  rw [animations]
  exact Animations.shiftsTiles_of_shift ⟨b.info, b.layers, k, b.box.bounds⟩ looped style tiled

def rainingPage : Record :=
  ⟨[("path", .text "M0 0 L8 0 L8 6 Z"), ("tiling", .bool true),
    ("loop", .record [("style", .text "shift"), ("direction", .text "e"),
      ("repeat", .number (.integer 2))])]⟩

theorem Loaded.shifts_seamlessly_page : ∃ (_ : Analytic Rat) (root : Element Rat)
    (tiles : TilingHost Rat), root.Loaded ∧ root.body.box.bounds = ⟨0, 0, 8, 6⟩ ∧
    root.body.layers.tiling = some tiles ∧
    (root.body.animations.map fun d => d.sample (5 / 8)) =
      [some (.transform (Transform.identity.moved ⟨2, 0⟩))] ∧
    Animations.ShiftsTiles root.body.animations ⟨0, 0, 8, 6⟩ tiles ⟨8, 0⟩ := by
  let analytic : Analytic Rat := ⟨id, id, id, id, fun x _ => x, fun x _ => x⟩
  have loads : ((loadWithin 1 exactScreening rainingPage ⟨640, 480⟩ ⟨1, 1⟩ 0).run ()).1.any
      (fun root => decide (root.body.box.bounds = ⟨0, 0, 8, 6⟩) &&
        decide ((root.body.animations.map fun d => d.sample (5 / 8)) =
          [some (.transform (Transform.identity.moved ⟨2, 0⟩))]) &&
        (root.body.layers.tiling.isSome && (root.body.info.record? "loop").any fun spec =>
          decide (spec.text? "style" = some "shift" ∧ spec.text? "direction" = some "e"))) =
      true := by
    decide +kernel
  obtain ⟨root, eq, here⟩ := (Option.any_eq_true _ _).mp loads
  obtain ⟨exact, there⟩ := Bool.and_eq_true_iff.mp here
  obtain ⟨bounds, samples⟩ := Bool.and_eq_true_iff.mp exact
  obtain ⟨repeated, looped⟩ := Bool.and_eq_true_iff.mp there
  obtain ⟨tiles, tiled⟩ := Option.isSome_iff_exists.mp repeated
  obtain ⟨spec, asked, named⟩ := (Option.any_eq_true _ _).mp looped
  obtain ⟨style, direction⟩ := of_decide_eq_true named
  have loaded : root.Loaded := ⟨Unit, exactScreening, 1, rainingPage, _, _, 0, (), eq⟩
  have shifted := loaded.shifts_seamlessly.2 root.body root.body_mem_toList spec tiles asked style
    tiled
  rw [of_decide_eq_true bounds, direction] at shifted
  exact ⟨analytic, root, tiles, loaded, of_decide_eq_true bounds, tiled, of_decide_eq_true samples,
    by simpa [Animations.shiftVector, Rect.width] using shifted⟩

end Element

end LayerTree
