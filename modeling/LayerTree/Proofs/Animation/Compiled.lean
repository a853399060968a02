import LayerTree.Animation.OfDescriptor

/-!
What a descriptor can animate.

There are few kinds of directives that a record `to` and a record `loop` can make, each with its own
demands on the layers. They are listed once, as inductive predicates; which layers a directive runs
on, where it starts from and what its values are is read off there.
-/

set_option autoImplicit false
set_option relaxedAutoImplicit false

namespace LayerTree

variable {α : Type}

namespace Layers

def Has (l : Layers α) : LayerTarget → Prop
  | .root => True
  | .tilingHost => l.tiling.isSome = true
  | .image => l.image?.isSome = true
  | .shape => l.shape?.isSome = true
  | .text => l.text.isSome = true

/-- The value that a property has before any animation, for the properties that a record `to` can
change step by step. -/
def baseline (l : Layers α) : LayerTarget → AnimatedProperty → Option (AnimValue α)
  | .root, .transform => some (.transform l.style.transform)
  | .root, .opacity => some (.scalar l.style.opacity)
  | .root, .backgroundColor => some (.color (l.style.background.getD Color.transparent))
  | .root, .borderColor => some (.color l.style.borderColor)
  | .root, .borderWidth => some (.scalar l.style.borderWidth)
  | .root, .cornerRadius => some (.scalar l.style.cornerRadius)
  | .text, .textColor => l.text.map fun text => .color text.color
  | .shape, .path => l.shape?.map fun shape => .path shape.path
  | .shape, .fillColor => l.shape?.map fun shape => .color (shape.fill.getD Color.transparent)
  | .shape, .strokeColor => l.shape?.map fun shape => .color shape.stroke
  | .shape, .lineWidth => l.shape?.map fun shape => .scalar shape.lineWidth
  | .shape, .strokeStart => l.shape?.map fun shape => .scalar shape.strokeStart
  | .shape, .strokeEnd => l.shape?.map fun shape => .scalar shape.strokeEnd
  | _, _ => none

theorem baseline_of_shape {l : Layers α} {shape : ShapeLayer α} (there : l.shape? = some shape)
    {property : AnimatedProperty} {f : ShapeLayer α → AnimValue α} {start : AnimValue α}
    (which : l.baseline .shape property = l.shape?.map f) (value : f shape = start) :
    l.baseline .shape property = some start := by
  rw [which, there, ← value]
  rfl

theorem has_of_baseline {l : Layers α} {target : LayerTarget} {property : AnimatedProperty}
    {start : AnimValue α} (h : l.baseline target property = some start) : l.Has target := by
  cases target with
  | root => trivial
  | tilingHost => cases property <;> cases h
  | image => cases property <;> cases h
  | text =>
    cases property with
    | textColor =>
      obtain ⟨text, there, -⟩ := Option.map_eq_some_iff.mp h
      exact Option.isSome_of_eq_some there
    | _ => cases h
  | shape =>
    cases property with
    | path | fillColor | strokeColor | lineWidth | strokeStart | strokeEnd =>
      obtain ⟨shape, there, -⟩ := Option.map_eq_some_iff.mp h
      exact Option.isSome_of_eq_some there
    | _ => cases h

end Layers

variable [Scalar α]

namespace Animations

/-- What a record `to` makes: a change from the value that the layer has, a change of the outline
through a list of others, other images, or a movement. -/
inductive Change (l : Layers α) (frames : List ResourceUrl) : Directive α → Prop
  | transform (finish : Transform α) :
      Change l frames
        (.transition .root .transform (.transform l.style.transform) (.transform finish))
  | scalar {target : LayerTarget} {property : AnimatedProperty} {start : α} (finish : α) :
      l.baseline target property = some (.scalar start) →
      Change l frames (.transition target property (.scalar start) (.scalar finish))
  | color {target : LayerTarget} {property : AnimatedProperty} {start finish : Color}
      {value : Option Json.Value} :
      l.baseline target property = some (.color start) → Color.read? α value = some finish →
      Change l frames (.transition target property (.color start) (.color finish))
  | outlines {shape : ShapeLayer α} (others : List (Outline α)) :
      l.shape? = some shape →
      Change l frames
        (.ofValues .shape .path (.path shape.path :: others.map .path) .linear)
  | images {image : ImageLayer α} :
      l.image? = some image → frames ≠ [] →
      Change l frames
        (.ofValues .image .contents (frames.map fun url => .image ⟨url, 0⟩) .discrete)
  | motion {target : LayerTarget} (path : Outline α) :
      l.Has target → Change l frames (.motion target path true)

/-- What a record `loop` makes: a swing of the element, a shift of it or of its repeated content, a
blinking, or a way through other outlines and back. Only a shift does not end where it started. -/
inductive Cycle (l : Layers α) (spec : Record) : Directive α → Prop
  | swing (base there back : Transform α) :
      Cycle l spec (.looping .root .transform (Animations.swing base there back) (loopRepeat spec))
  | shift {target : LayerTarget} (start finish : Transform α) :
      spec.text? "style" = some "shift" → l.Has target →
      Cycle l spec
        (.looping target .transform [.transform start, .transform finish] (loopRepeat spec))
  | blink :
      Cycle l spec
        (.looping .root .opacity [.scalar 1, .scalar 0, .scalar 1] (loopRepeat spec))
  | outlines {shape : ShapeLayer α} (others : List (Outline α)) :
      l.shape? = some shape →
      Cycle l spec
        (.looping .shape .path (.path shape.path :: others.map .path ++ [.path shape.path])
          (loopRepeat spec))

section

variable {src : AnimationSource α} {frames : List ResourceUrl} {d : Directive α}

theorem change_of_mem_scalarChange {l : Layers α} {target : LayerTarget}
    {property : AnimatedProperty} {start : α} {finish : Option α}
    (base : l.baseline target property = some (.scalar start))
    (h : d ∈ scalarChange target property start finish) : Change l frames d := by
  obtain ⟨x, -, rfl⟩ := Option.map_eq_some_iff.mp (Option.mem_toList.mp h)
  exact .scalar x base

theorem change_of_mem_colorChange {l : Layers α} {target : LayerTarget}
    {property : AnimatedProperty} {start : Color} {value : Option Json.Value}
    (base : l.baseline target property = some (.color start))
    (h : d ∈ colorChange target property start (Color.read? α value)) : Change l frames d := by
  obtain ⟨c, read, rfl⟩ := Option.map_eq_some_iff.mp (Option.mem_toList.mp h)
  exact .color base read

theorem change_of_mem_rootChanges {wanted : Record} (h : d ∈ rootChanges wanted src) :
    Change src.layers frames d := by
  simp only [rootChanges, List.mem_append] at h
  rcases h with ((((transform | opacity) | background) | border) | width) | radius
  · obtain ⟨t, -, rfl⟩ := Option.map_eq_some_iff.mp (Option.mem_toList.mp transform)
    exact .transform t
  · exact change_of_mem_scalarChange rfl opacity
  · exact change_of_mem_colorChange rfl background
  · exact change_of_mem_colorChange rfl border
  · exact change_of_mem_scalarChange rfl width
  · exact change_of_mem_scalarChange rfl radius

theorem change_of_mem_textChanges {wanted : Record} (h : d ∈ textChanges wanted src) :
    Change src.layers frames d := by
  unfold textChanges at h
  split at h
  · next text there =>
    exact change_of_mem_colorChange (by simp only [Layers.baseline, there]; rfl) h
  · cases h

theorem change_of_mem_imageChanges (h : d ∈ imageChanges frames src) :
    Change src.layers frames d := by
  unfold imageChanges at h
  split at h
  · next there =>
    obtain rfl := List.mem_singleton.mp h
    exact .images there (List.cons_ne_nil _ _)
  · cases h

variable [Analytic α] {paths : Outline.NamedPaths}

theorem change_of_mem_motionChanges {wanted : Record} (h : d ∈ motionChanges paths wanted src) :
    Change src.layers frames d := by
  unfold motionChanges at h
  split at h
  · obtain rfl := List.mem_singleton.mp h
    cases tiling : src.layers.tiling with
    | some host => exact .motion _ (by simp [Layers.Has, tiling])
    | none => exact .motion _ trivial
  · cases h

theorem change_of_mem_outlineChanges {wanted : Record} {shape : ShapeLayer α}
    (there : src.layers.shape? = some shape) {k : ScaleFactor α}
    (h : d ∈ outlineChanges paths wanted shape k) : Change src.layers frames d := by
  unfold outlineChanges at h
  split at h
  · next items _ =>
    obtain rfl := List.mem_singleton.mp h
    have others : Change src.layers frames _ := .outlines
      ((items.filterMap fun item => Outline.ofShape? paths (some item)).map (Outline.toDevice k))
      there
    rwa [List.map_map] at others
  · split at h
    · next o _ =>
      obtain rfl := List.mem_singleton.mp h
      exact .outlines [Outline.toDevice k o] there
    · cases h

theorem change_of_mem_shapeChanges {wanted : Record} (h : d ∈ shapeChanges paths wanted src) :
    Change src.layers frames d := by
  unfold shapeChanges at h
  split at h
  · next shape there =>
    simp only [List.mem_append] at h
    rcases h with ((((outline | fill) | stroke) | width) | first) | last
    · exact change_of_mem_outlineChanges there outline
    · exact change_of_mem_colorChange (Layers.baseline_of_shape there rfl rfl) fill
    · exact change_of_mem_colorChange (Layers.baseline_of_shape there rfl rfl) stroke
    · exact change_of_mem_scalarChange (Layers.baseline_of_shape there rfl rfl) width
    · exact change_of_mem_scalarChange (Layers.baseline_of_shape there rfl rfl) first
    · exact change_of_mem_scalarChange (Layers.baseline_of_shape there rfl rfl) last
  · cases h

theorem change_of_mem_transitions {wanted : Record}
    (h : d ∈ transitions paths frames wanted src) : Change src.layers frames d := by
  simp only [transitions, List.mem_append] at h
  rcases h with (((root | text) | image) | motion) | shape
  · exact change_of_mem_rootChanges root
  · exact change_of_mem_textChanges text
  · exact change_of_mem_imageChanges image
  · exact change_of_mem_motionChanges motion
  · exact change_of_mem_shapeChanges shape

theorem cycle_of_mem_outlineLoop {spec : Record} (h : d ∈ outlineLoop paths spec src) :
    Cycle src.layers spec d := by
  unfold outlineLoop at h
  split at h
  · next there others =>
    obtain rfl := List.mem_singleton.mp h
    have through : Cycle src.layers spec _ := .outlines
      ((Outline.ofShapes paths (spec.get? "path")).map (Outline.toDevice src.scale)) there
    rwa [List.map_map, others] at through
  · cases h

theorem cycle_of_mem_loops {spec : Record} (h : d ∈ loops paths spec src) :
    Cycle src.layers spec d := by
  unfold loops at h
  split at h
  · obtain rfl := List.mem_singleton.mp h
    exact .swing _ _ _
  · obtain rfl := List.mem_singleton.mp h
    exact .swing _ _ _
  · next style =>
    obtain rfl := List.mem_singleton.mp h
    unfold shiftLoop
    cases tiling : src.layers.tiling with
    | some host => exact .shift _ _ style (by simp [Layers.Has, tiling])
    | none => exact .shift _ _ style trivial
  · obtain rfl := List.mem_singleton.mp h
    exact .blink
  · exact cycle_of_mem_outlineLoop h
  · cases h

end

theorem Change.has {l : Layers α} {frames : List ResourceUrl} {d : Directive α}
    (h : Change l frames d) : l.Has d.target := by
  cases h with
  | transform => trivial
  | scalar _ base => exact Layers.has_of_baseline base
  | color base _ => exact Layers.has_of_baseline base
  | outlines _ there => exact Option.isSome_of_eq_some there
  | images there _ => exact Option.isSome_of_eq_some there
  | motion _ there => exact there

theorem Change.baseline_eq {l : Layers α} {frames : List ResourceUrl} {d : Directive α}
    (h : Change l frames d) (linear : d.calculation = .linear) :
    ∃ start rest, d.keyframes = .values (start :: rest) ∧
      l.baseline d.target d.property = some start := by
  cases h with
  | transform => exact ⟨_, _, rfl, rfl⟩
  | scalar _ base => exact ⟨_, _, rfl, base⟩
  | color base _ => exact ⟨_, _, rfl, base⟩
  | outlines _ there => exact ⟨_, _, rfl, Layers.baseline_of_shape there rfl rfl⟩
  | images => cases linear
  | motion => cases linear

theorem Cycle.has {l : Layers α} {spec : Record} {d : Directive α} (h : Cycle l spec d) :
    l.Has d.target := by
  cases h with
  | swing => trivial
  | shift _ _ _ there => exact there
  | blink => trivial
  | outlines _ there => exact Option.isSome_of_eq_some there

theorem image?_of_mem_imageSequence {src : AnimationSource α} {d : Directive α}
    (h : d ∈ imageSequence src) :
    ∃ image, src.layers.image? = some image ∧ 1 < image.frameCount ∧
      d = .ofValues .image .contents
        ((List.range' 1 (image.frameCount - 1)).map fun i => .image ⟨image.url, i⟩) .discrete := by
  unfold imageSequence at h
  split at h
  · next image there =>
    split at h
    · next several => exact ⟨image, there, several, List.mem_singleton.mp h⟩
    · cases h
  · cases h

variable [Analytic α]

def changes (paths : Outline.NamedPaths) (frames : List ResourceUrl) (src : AnimationSource α) :
    List (Directive α) :=
  ((src.info.record? "to").map fun wanted => transitions paths frames wanted src).getD []

def repeated (paths : Outline.NamedPaths) (src : AnimationSource α) : List (Directive α) :=
  ((src.info.record? "loop").map fun spec => loops paths spec src).getD []

variable {paths : Outline.NamedPaths} {frames : List ResourceUrl} {src : AnimationSource α}

theorem change_of_mem_changes {d : Directive α} (h : d ∈ changes paths frames src) :
    Change src.layers frames d := by
  unfold changes at h
  cases wanted : src.info.record? "to" with
  | none => simp [wanted] at h
  | some record =>
    rw [wanted] at h
    exact change_of_mem_transitions h

theorem exists_cycle_of_mem_repeated {d : Directive α} (h : d ∈ repeated paths src) :
    ∃ spec, Cycle src.layers spec d := by
  unfold repeated at h
  cases looped : src.info.record? "loop" with
  | none => simp [looped] at h
  | some spec =>
    rw [looped] at h
    exact ⟨spec, cycle_of_mem_loops h⟩

end Animations

end LayerTree
