import LayerTree.Element.Build
import LayerTree.Proofs.Animation.Sampled
import LayerTree.Proofs.Animation.Tracks
import LayerTree.Proofs.Element.Assembled
import LayerTree.Proofs.Element.Loaded
import Mathlib.Algebra.Order.Field.Basic

/-!
What the values of a directive are.

A property fixes the kind of the values that it is animated with, and a sample of values of one kind
is of that kind again. Every directive of an element is of this form, shows only frames that its
pictures have, and fills the timeline with its cycles.
-/

set_option autoImplicit false
set_option relaxedAutoImplicit false

namespace LayerTree

inductive AnimKind where
  | scalar
  | color
  | transform
  | path
  | image
  | motion
  deriving DecidableEq

/-- The kind of values that a property is animated with. -/
def AnimatedProperty.kind : AnimatedProperty → AnimKind
  | transform => .transform
  | opacity | borderWidth | cornerRadius | lineWidth | strokeStart | strokeEnd => .scalar
  | backgroundColor | borderColor | fillColor | strokeColor | textColor => .color
  | contents => .image
  | position => .motion
  | path => .path

variable {α : Type}

def AnimValue.kind : AnimValue α → AnimKind
  | scalar _ => .scalar
  | color _ => .color
  | transform _ => .transform
  | path _ => .path
  | image _ => .image
  | motion _ _ => .motion

theorem AnimValue.kind_lerp [Scalar α] {a b : AnimValue α} (same : a.kind = b.kind) (t : α) :
    (a.lerp b t).kind = a.kind := by
  have either : (if t < 1 then a else b).kind = a.kind := by
    split
    · rfl
    · exact same.symm
  unfold lerp
  split
  · rfl
  · rfl
  · rfl
  · rfl
  · exact either

theorem Layers.kind_of_baseline {l : Layers α} {target : LayerTarget} {property : AnimatedProperty}
    {start : AnimValue α} (h : l.baseline target property = some start) :
    start.kind = property.kind := by
  cases target with
  | root => cases property <;> cases h <;> rfl
  | tilingHost => cases property <;> cases h
  | image => cases property <;> cases h
  | text =>
    cases property with
    | textColor =>
      obtain ⟨text, -, rfl⟩ := Option.map_eq_some_iff.mp h
      rfl
    | _ => cases h
  | shape =>
    cases property with
    | path | fillColor | strokeColor | lineWidth | strokeStart | strokeEnd =>
      obtain ⟨shape, -, rfl⟩ := Option.map_eq_some_iff.mp h
      rfl
    | _ => cases h

namespace Directive

/-- A directive moves its layer along a path exactly when it animates the position; else it passes
through values, at least one, of the kind that its property is animated with. -/
def Typed (d : Directive α) : Prop :=
  match d.keyframes with
  | .values vs => d.property ≠ .position ∧ vs ≠ [] ∧ ∀ v ∈ vs, v.kind = d.property.kind
  | .motionPath _ _ => d.property = .position

/-- Each frame of an image that a directive shows is there, in one of the given pictures with their
numbers of frames. -/
def ShowsFramesOf (pictures : List (ResourceUrl × Nat)) (d : Directive α) : Prop :=
  ∀ vs, d.keyframes = .values vs → ∀ frame, .image frame ∈ vs →
    ∃ count, (frame.url, count) ∈ pictures ∧ frame.index < count

/-- The cycles of a directive begin with the timeline and fill it. -/
structure FillsTimeline (d : Directive Rat) : Prop where
  begin : d.begin = 0
  duration : 0 < d.duration
  repeatCount : 0 < d.repeatCount
  total : d.duration * d.repeatCount = 1

theorem showsFramesOf_of_typed {d : Directive α} (typed : d.Typed)
    (other : d.property.kind ≠ .image) (pictures : List (ResourceUrl × Nat)) :
    d.ShowsFramesOf pictures := by
  intro vs values frame there
  simp only [Typed, values] at typed
  exact absurd (typed.2.2 _ there).symm other

variable [Scalar α]

omit [Scalar α] in
theorem typed_of_values {d : Directive α} {vs : List (AnimValue α)}
    (values : d.keyframes = .values vs) (still : d.property ≠ .position) (nonempty : vs ≠ [])
    (kinds : ∀ v ∈ vs, v.kind = d.property.kind) : d.Typed := by
  simp only [Typed, values]
  exact ⟨still, nonempty, kinds⟩

theorem typed_transition (target : LayerTarget) {property : AnimatedProperty}
    {start finish : AnimValue α} (still : property ≠ .position) (first : start.kind = property.kind)
    (last : finish.kind = property.kind) : (transition target property start finish).Typed := by
  refine typed_of_values rfl still (List.cons_ne_nil _ _) ?_
  simp only [List.mem_cons, List.not_mem_nil, or_false]
  rintro v (rfl | rfl)
  · exact first
  · exact last

theorem Typed.sample [Analytic α] {d : Directive α} (typed : d.Typed) {vs : List (AnimValue α)}
    (values : d.keyframes = .values vs) (t : α) :
    ∃ v, d.sample t = some v ∧ v.kind = d.property.kind := by
  simp only [Typed, values] at typed
  obtain ⟨-, nonempty, kinds⟩ := typed
  simp only [Directive.sample, values]
  rcases sampleValues_cases nonempty (d.phase t) d.calculation with
    ⟨v, there, held⟩ | ⟨two, -, between⟩
  · exact ⟨v, held, kinds v there⟩
  · obtain ⟨a, ha, b, hb, x, value⟩ := exists_betweenValues two (d.phase t)
    refine ⟨_, between.trans value, ?_⟩
    rw [AnimValue.kind_lerp ((kinds a ha).trans (kinds b hb).symm), kinds a ha]

theorem fillsTimeline_ofValues (target : LayerTarget) (property : AnimatedProperty)
    (vs : List (AnimValue Rat)) (calculation : Calculation) :
    (ofValues target property vs calculation).FillsTimeline :=
  ⟨rfl, one_pos, one_pos, mul_one 1⟩

theorem fillsTimeline_motion (target : LayerTarget) (path : Outline Rat) (rotateAuto : Bool) :
    (motion target path rotateAuto).FillsTimeline :=
  ⟨rfl, one_pos, one_pos, mul_one 1⟩

theorem fillsTimeline_looping (target : LayerTarget) (property : AnimatedProperty)
    (vs : List (AnimValue Rat)) {count : Rat} (pos : 0 < count) :
    (looping target property vs count).FillsTimeline :=
  ⟨rfl, div_pos one_pos pos, pos, div_mul_cancel₀ 1 pos.ne'⟩

end Directive

abbrev ImageLoader (σ : Type) := String → StateM σ (Option (ResourceUrl × ImageInfo))

namespace ImageLoader

variable {σ : Type}

def all (load : ImageLoader σ) : List String → StateM σ (List (ResourceUrl × ImageInfo))
  | [] => pure []
  | source :: sources => do
    let first ← load source
    let others ← all load sources
    pure (first.toList ++ others)

/-- Whatever image is found has a frame. -/
def Shows (load : ImageLoader σ) : Prop :=
  ∀ source, Returns (fun found => ∀ image ∈ found, 0 < image.2.frameCount) (load source)

theorem Shows.all {load : ImageLoader σ} (shows : load.Shows) (sources : List String) :
    Returns (fun images => ∀ image ∈ images, 0 < image.2.frameCount) (load.all sources) := by
  induction sources with
  | nil => exact .pure (by simp)
  | cons source sources ih =>
    unfold ImageLoader.all
    refine .bind (shows source) fun first here => .bind ih fun others there => .pure ?_
    intro image found
    rcases List.mem_append.mp found with now | later
    · exact here image (Option.mem_toList.mp now)
    · exact there image later

end ImageLoader

namespace Host

variable {σ : Type} (h : Host σ α)

theorem loadImages_eq (sources : List String) :
    h.loadImages sources = (do
      let images ← ImageLoader.all h.loadImage sources
      pure (images.map (·.1))) := by
  induction sources with
  | nil => rfl
  | cons source sources ih =>
    simp only [loadImages, ImageLoader.all, ih, bind_assoc, pure_bind, List.map_append,
      Option.toList_map]

theorem shows_loadImage : ImageLoader.Shows h.loadImage := by
  intro source
  unfold loadImage
  refine .bind (.trivial _) fun url _ => ?_
  split
  · exact .pure nofun
  · refine .bind (.trivial _) fun probed _ => ?_
    split
    · next info =>
      refine .pure fun image found => ?_
      split at found
      · next visible =>
        obtain rfl := Option.some.inj found
        simp only [ImageInfo.isVisible, Bool.and_eq_true, decide_eq_true_eq] at visible
        exact visible.1.1
      · cases found
    · exact .pure nofun

end Host

namespace Animations

/-- The pictures that an animation can show, with their numbers of frames: the image of the element
and the other images that were found. -/
def pictures (l : Layers α) (images : List (ResourceUrl × ImageInfo)) : List (ResourceUrl × Nat) :=
  (l.image?.map fun image => (image.url, image.frameCount)).toList ++
    images.map fun image => (image.1, image.2.frameCount)

private theorem kind_outlines (outlines : List (Outline α)) :
    ∀ v ∈ outlines.map AnimValue.path, v.kind = .path := by
  intro v there
  obtain ⟨o, -, rfl⟩ := List.mem_map.mp there
  rfl

variable [Scalar α] {l : Layers α} {frames : List ResourceUrl} {spec : Record} {d : Directive α}

theorem Change.typed (h : Change l frames d) : d.Typed := by
  cases h with
  | transform => exact Directive.typed_transition _ nofun rfl rfl
  | scalar finish base =>
    have kind := Layers.kind_of_baseline base
    exact Directive.typed_transition _ (by rintro rfl; cases kind) kind kind
  | color base _ =>
    have kind := Layers.kind_of_baseline base
    exact Directive.typed_transition _ (by rintro rfl; cases kind) kind kind
  | @outlines shape others _ =>
    exact Directive.typed_of_values rfl nofun (List.cons_ne_nil _ _)
      (kind_outlines (shape.path :: others))
  | images _ found =>
    refine Directive.typed_of_values rfl nofun (by simpa using found) fun v there => ?_
    obtain ⟨url, -, rfl⟩ := List.mem_map.mp there
    rfl
  | motion => rfl

theorem Cycle.typed (h : Cycle l spec d) : d.Typed := by
  cases h with
  | swing base there back =>
    refine Directive.typed_of_values rfl nofun (List.cons_ne_nil _ _) ?_
    simp [Directive.looping, Animations.swing, AnimValue.kind, AnimatedProperty.kind]
  | shift =>
    refine Directive.typed_of_values rfl nofun (List.cons_ne_nil _ _) ?_
    simp [Directive.looping, AnimValue.kind, AnimatedProperty.kind]
  | blink =>
    refine Directive.typed_of_values rfl nofun (List.cons_ne_nil _ _) ?_
    simp [Directive.looping, AnimValue.kind, AnimatedProperty.kind]
  | @outlines shape others _ =>
    refine Directive.typed_of_values rfl nofun (List.cons_ne_nil _ _) fun v there => ?_
    exact kind_outlines (shape.path :: others ++ [shape.path]) v (by simpa using there)

theorem Cycle.closed (h : Cycle l spec d) (other : spec.text? "style" ≠ some "shift") :
    ∃ v rest, d.keyframes = .values (v :: rest ++ [v]) := by
  cases h with
  | swing base there back =>
    exact ⟨_, [.transform there, .transform base, .transform back], rfl⟩
  | shift _ _ style => exact absurd style other
  | blink => exact ⟨_, [.scalar 0], rfl⟩
  | outlines => exact ⟨_, _, rfl⟩

theorem Cycle.kind_ne_image (h : Cycle l spec d) : d.property.kind ≠ .image := by
  cases h <;> nofun

theorem Change.showsFramesOf {images : List (ResourceUrl × ImageInfo)}
    (shown : ∀ image ∈ images, 0 < image.2.frameCount) (h : Change l (images.map (·.1)) d) :
    d.ShowsFramesOf (pictures l images) := by
  by_cases kind : d.property.kind = .image
  · cases h with
    | images =>
      intro vs values frame there
      obtain rfl := Keyframes.values.inj values
      simp only [List.map_map, List.mem_map] at there
      obtain ⟨image, found, same⟩ := there
      obtain rfl := AnimValue.image.inj same
      refine ⟨image.2.frameCount, ?_, shown image found⟩
      exact List.mem_append_right _ (List.mem_map_of_mem found)
    | transform => cases kind
    | outlines => cases kind
    | motion => cases kind
    | scalar _ base => exact nomatch (Layers.kind_of_baseline base).trans kind
    | color base _ => exact nomatch (Layers.kind_of_baseline base).trans kind
  · exact Directive.showsFramesOf_of_typed h.typed kind _

theorem Change.begins (h : Change l frames d) : d.begin = 0 := by
  cases h <;> rfl

theorem Cycle.begins (h : Cycle l spec d) : d.begin = 0 := by
  cases h <;> rfl

theorem Change.fillsTimeline {l : Layers Rat} {d : Directive Rat} (h : Change l frames d) :
    d.FillsTimeline := by
  cases h with
  | motion => exact Directive.fillsTimeline_motion ..
  | _ => exact Directive.fillsTimeline_ofValues ..

theorem loopRepeat_pos (spec : Record) : (0 : Rat) < loopRepeat spec := by
  unfold loopRepeat
  cases asked : (spec.number? "repeat").filter fun r : Rat =>
      Scalar.isFinite r && decide (0 < r) with
  | none => exact one_pos
  | some count =>
    obtain ⟨-, usable⟩ := Option.filter_eq_some_iff.mp asked
    exact of_decide_eq_true (Bool.and_eq_true_iff.mp usable).2

theorem Cycle.fillsTimeline {l : Layers Rat} {d : Directive Rat} (h : Cycle l spec d) :
    d.FillsTimeline := by
  cases h <;> exact Directive.fillsTimeline_looping _ _ _ (loopRepeat_pos spec)

theorem fillsTimeline_of_mem_directives [Analytic Rat] {paths : Outline.NamedPaths}
    {src : AnimationSource Rat} {d : Directive Rat}
    (there : d ∈ (ofDescriptor paths frames src).directives) : d.FillsTimeline := by
  rcases mem_directives.mp there with loop | ⟨change, -⟩ | ⟨sequence, -⟩
  · obtain ⟨spec, cycle⟩ := exists_cycle_of_mem_repeated loop
    exact cycle.fillsTimeline
  · exact (change_of_mem_changes change).fillsTimeline
  · obtain ⟨image, -, -, rfl⟩ := image?_of_mem_imageSequence sequence
    exact Directive.fillsTimeline_ofValues ..

theorem typed_of_mem_imageSequence {src : AnimationSource α} (h : d ∈ imageSequence src) :
    d.Typed := by
  obtain ⟨image, -, several, rfl⟩ := image?_of_mem_imageSequence h
  refine Directive.typed_of_values rfl nofun ?_ fun v there => ?_
  · simp only [ne_eq, List.map_eq_nil_iff, List.range'_eq_nil_iff]
    omega
  · obtain ⟨i, -, rfl⟩ := List.mem_map.mp there
    rfl

theorem showsFramesOf_of_mem_imageSequence {src : AnimationSource α} (h : d ∈ imageSequence src)
    (images : List (ResourceUrl × ImageInfo)) : d.ShowsFramesOf (pictures src.layers images) := by
  obtain ⟨image, here, several, rfl⟩ := image?_of_mem_imageSequence h
  intro vs values frame there
  obtain rfl := Keyframes.values.inj values
  obtain ⟨i, inside, same⟩ := List.mem_map.mp there
  obtain rfl := AnimValue.image.inj same
  refine ⟨image.frameCount, List.mem_append_left _ (by simp [here]), ?_⟩
  have bounds := List.mem_range'_1.mp inside
  change i < image.frameCount
  omega

/-- The animations of an element whose pictures are found by a loader; also these pictures. -/
def compile {σ : Type} [Analytic α] (paths : Outline.NamedPaths) (load : ImageLoader σ)
    (src : AnimationSource α) : StateM σ (List (ResourceUrl × Nat) × Animations α) := do
  let images ← load.all (imageSources src.info)
  pure (pictures src.layers images, ofDescriptor paths (images.map (·.1)) src)

/-- The animations of a body are compiled from its descriptor and its layers. -/
theorem body_compiled {σ : Type} [Analytic α] (h : Host σ α) (screen : Size α) (k : ScaleFactor α)
    (info : Record) (container : Size α) (id : ElementId) :
    Returns (fun b => ∃ s, ((compile h.delegate.namedPath h.loadImage
        ⟨info, b.layers, k, b.box.bounds⟩).run s).1.2.directives = b.animations)
      (Build.body h screen k info container id) := by
  rw [Build.body_eq]
  refine .bind (.trivial _) fun image _ => .bind (.trivial _) fun mask _ => ?_
  refine .bind (.trivial _) fun content _ => ?_
  refine .bind (.trivial _) fun text _ => .bind (.trivial _) fun richText _ => ?_
  rw [h.loadImages_eq]
  exact fun s => ⟨s, rfl⟩

/-- Every directive begins with the timeline, is over values of the kind of its property, so that
its samples are of that kind, and shows frames that its pictures have. A loop that is no shift ends
where it starts. In exact numbers the cycles of a directive fill the timeline. This is so for every
loader whose images have a frame, as those of a host have, with which the animations of its bodies
are compiled. -/
theorem directives_typed {σ : Type} [Analytic α] {load : ImageLoader σ} (shows : load.Shows)
    (paths : Outline.NamedPaths) (src : AnimationSource α) :
    (∀ s, let compiled := ((compile paths load src).run s).1
      ∀ d ∈ compiled.2.directives, d.begin = 0 ∧ d.Typed ∧ d.ShowsFramesOf compiled.1 ∧
        ∀ vs, d.keyframes = .values vs → ∀ t, ∃ v, d.sample t = some v ∧ v.kind = d.property.kind) ∧
    (∀ style ∈ ["vibrate", "wiggle", "blink", "path"], ∀ spec, spec.text? "style" = some style →
      ∀ d ∈ loops paths spec src, ∃ v rest, d.keyframes = .values (v :: rest ++ [v])) ∧
    (∀ [Analytic Rat] (src : AnimationSource Rat) (s : σ),
      ∀ d ∈ ((compile paths load src).run s).1.2.directives, d.FillsTimeline) ∧
    ∀ h : Host σ α, ImageLoader.Shows h.loadImage ∧ ∀ screen k info container id,
      Returns (fun b => ∃ s, ((compile h.delegate.namedPath h.loadImage
          ⟨info, b.layers, k, b.box.bounds⟩).run s).1.2.directives = b.animations)
        (Build.body h screen k info container id) := by
  refine ⟨?_, ?_, ?_, fun h => ⟨h.shows_loadImage, body_compiled h⟩⟩
  · intro s compiled d there
    have shown := shows.all (imageSources src.info) s
    have all : d.begin = 0 ∧ d.Typed ∧ d.ShowsFramesOf compiled.1 := by
      rcases mem_directives.mp there with loop | ⟨change, -⟩ | ⟨sequence, -⟩
      · obtain ⟨spec, cycle⟩ := exists_cycle_of_mem_repeated loop
        exact ⟨cycle.begins, cycle.typed,
          Directive.showsFramesOf_of_typed cycle.typed cycle.kind_ne_image _⟩
      · have change := change_of_mem_changes change
        exact ⟨change.begins, change.typed, change.showsFramesOf shown⟩
      · obtain ⟨image, -, -, same⟩ := image?_of_mem_imageSequence sequence
        exact ⟨same ▸ rfl, typed_of_mem_imageSequence sequence,
          showsFramesOf_of_mem_imageSequence sequence _⟩
    exact ⟨all.1, all.2.1, all.2.2, fun vs values t => all.2.1.sample values t⟩
  · intro style named spec is d there
    refine (cycle_of_mem_loops there).closed ?_
    rw [is]
    rintro same
    obtain rfl := Option.some.inj same
    exact absurd named (by decide)
  · exact fun src s d there => fillsTimeline_of_mem_directives there

def findsAll : ImageLoader Unit := fun source => pure (some (⟨source⟩, ⟨4, 3, 2⟩))

theorem directives_typed_album : findsAll.Shows ∧ ∃ _ : Analytic Rat,
    let compiled := ((compile (fun _ => none) findsAll (album Rat)).run ()).1
    compiled.1 = [(⟨"a.gif"⟩, 3), (⟨"b.png"⟩, 2)] ∧ compiled.2.directives.length = 2 ∧
    ∀ d ∈ compiled.2.directives, d.FillsTimeline ∧ d.Typed ∧ d.ShowsFramesOf compiled.1 := by
  have shows : findsAll.Shows := by
    rintro source s image found
    obtain rfl := Option.some.inj found
    exact Nat.two_pos
  let analytic : Analytic Rat := ⟨id, id, id, id, fun x _ => x, fun x _ => x⟩
  refine ⟨shows, analytic, by decide +kernel, by decide +kernel, fun d there => ?_⟩
  obtain ⟨all, -, exactly, -⟩ := directives_typed shows (fun _ => none) (album Rat)
  obtain ⟨-, typed, frames, -⟩ := all () d there
  exact ⟨exactly (album Rat) () d there, typed, frames⟩

end Animations

end LayerTree
