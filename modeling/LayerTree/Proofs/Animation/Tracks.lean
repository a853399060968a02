import LayerTree.Proofs.Animation.Compiled
import Mathlib.Data.List.Nodup

/-!
Which directive is left on a track.

A directive runs on one track, a property of a layer. Each of the three sources of directives uses a
track at most once, and of the directives of several sources on one track the last one is left.
-/

set_option autoImplicit false
set_option relaxedAutoImplicit false

namespace LayerTree

abbrev Track := LayerTarget × AnimatedProperty

variable {α : Type}

def Directive.track (d : Directive α) : Track := (d.target, d.property)

theorem Directive.sameProperty_iff {d e : Directive α} :
    d.sameProperty e = true ↔ d.track = e.track := by
  simp [sameProperty, track]

namespace Animations

/-! The directive that is pushed last stays. -/

theorem mem_push {ds : List (Directive α)} {d e : Directive α} :
    e ∈ push ds d ↔ e = d ∨ e ∈ ds ∧ e.track ≠ d.track := by
  have other : (!e.sameProperty d) = true ↔ e.track ≠ d.track := by
    rw [Bool.not_eq_true', ← Bool.not_eq_true, Directive.sameProperty_iff]
  simp only [push, List.mem_append, List.mem_filter, List.mem_singleton, other]
  exact or_comm

theorem nodup_push {ds : List (Directive α)} (h : (ds.map Directive.track).Nodup)
    (d : Directive α) : ((push ds d).map Directive.track).Nodup := by
  unfold push
  rw [List.map_append, List.nodup_append]
  refine ⟨h.sublist (List.filter_sublist.map _), List.nodup_singleton _, ?_⟩
  intro track before track' last
  obtain ⟨e, kept, rfl⟩ := List.mem_map.mp before
  obtain rfl := List.mem_singleton.mp last
  have other : e.sameProperty d = false := by simpa using (List.mem_filter.mp kept).2
  intro same
  exact absurd (Directive.sameProperty_iff.mpr same) (Bool.eq_false_iff.mp other)

theorem nodup_foldl_push (ds : List (Directive α)) {acc : List (Directive α)}
    (h : (acc.map Directive.track).Nodup) : ((ds.foldl push acc).map Directive.track).Nodup := by
  induction ds generalizing acc with
  | nil => exact h
  | cons d ds ih => exact ih (nodup_push h d)

theorem mem_foldl_push {ds acc : List (Directive α)} (apart : (ds.map Directive.track).Nodup)
    {e : Directive α} :
    e ∈ ds.foldl push acc ↔ e ∈ ds ∨ e ∈ acc ∧ e.track ∉ ds.map Directive.track := by
  induction ds generalizing acc with
  | nil => simp
  | cons d ds ih =>
    obtain ⟨fresh, apart⟩ := List.nodup_cons.mp apart
    rw [List.foldl_cons, ih apart, mem_push, List.mem_cons, List.map_cons, List.mem_cons, not_or]
    constructor
    · rintro (there | ⟨rfl | ⟨before, other⟩, elsewhere⟩)
      · exact .inl (.inr there)
      · exact .inl (.inl rfl)
      · exact .inr ⟨before, other, elsewhere⟩
    · rintro ((rfl | there) | ⟨before, other, elsewhere⟩)
      · exact .inr ⟨.inl rfl, fresh⟩
      · exact .inl there
      · exact .inr ⟨.inr ⟨before, other⟩, elsewhere⟩

/-! No source uses a track twice. -/

private theorem nodup_of_length_le {ds : List (Directive α)} (h : ds.length ≤ 1) :
    (ds.map Directive.track).Nodup := by
  cases ds with
  | nil => exact List.nodup_nil
  | cons d rest =>
    obtain rfl : rest = [] := by simpa using h
    exact List.nodup_singleton _

def RunOn (tracks : List Track) (ds : List (Directive α)) : Prop :=
  (ds.map Directive.track).Sublist tracks

namespace RunOn

variable {tracks tracks' : List Track} {ds es : List (Directive α)}

theorem nil : RunOn tracks ([] : List (Directive α)) := List.nil_sublist _

theorem one (d : Directive α) : RunOn [d.track] [d] := List.Sublist.refl _

theorem append (first : RunOn tracks ds) (second : RunOn tracks' es) :
    RunOn (tracks ++ tracks') (ds ++ es) := by
  unfold RunOn at *
  rw [List.map_append]
  exact List.Sublist.append first second

theorem optional {β : Type} (o : Option β) {f : β → Directive α} {track : Track}
    (same : ∀ x, (f x).track = track) : RunOn [track] (o.map f).toList := by
  cases o with
  | none => exact nil
  | some x =>
    rw [← same x]
    exact one (f x)

end RunOn

variable [Scalar α]

/-- The tracks that a record `to` can use, in order, given the layer that it moves along a path. -/
def changeTracks (moved : LayerTarget) : List Track :=
  [(.root, .transform), (.root, .opacity), (.root, .backgroundColor), (.root, .borderColor),
    (.root, .borderWidth), (.root, .cornerRadius), (.text, .textColor), (.image, .contents),
    (moved, .position), (.shape, .path), (.shape, .fillColor), (.shape, .strokeColor),
    (.shape, .lineWidth), (.shape, .strokeStart), (.shape, .strokeEnd)]

theorem nodup_changeTracks (moved : LayerTarget) : (changeTracks moved).Nodup := by
  cases moved <;> decide

namespace RunOn

theorem scalarChange (target : LayerTarget) (property : AnimatedProperty) (start : α)
    (finish : Option α) :
    RunOn [(target, property)] (scalarChange target property start finish) :=
  optional finish fun _ => rfl

theorem colorChange (target : LayerTarget) (property : AnimatedProperty) (start : Color)
    (finish : Option Color) :
    RunOn (α := α) [(target, property)] (colorChange target property start finish) :=
  optional finish fun _ => rfl

theorem rootChanges (wanted : Record) (src : AnimationSource α) :
    RunOn [(.root, .transform), (.root, .opacity), (.root, .backgroundColor),
      (.root, .borderColor), (.root, .borderWidth), (.root, .cornerRadius)]
      (rootChanges wanted src) := by
  unfold Animations.rootChanges
  refine .append (.append (.append (.append (.append (?_ : RunOn [(.root, .transform)] _)
    (scalarChange ..)) (colorChange ..)) (colorChange ..)) (scalarChange ..)) (scalarChange ..)
  exact optional _ fun _ => rfl

theorem textChanges (wanted : Record) (src : AnimationSource α) :
    RunOn [(.text, .textColor)] (textChanges wanted src) := by
  unfold Animations.textChanges
  split
  · exact colorChange ..
  · exact nil

theorem imageChanges (frames : List ResourceUrl) (src : AnimationSource α) :
    RunOn [(.image, .contents)] (imageChanges frames src) := by
  unfold Animations.imageChanges
  split
  · exact one _
  · exact nil

variable [Analytic α]

theorem motionChanges (paths : Outline.NamedPaths) (wanted : Record) (src : AnimationSource α) :
    ∃ moved, RunOn [(moved, .position)] (motionChanges paths wanted src) := by
  unfold Animations.motionChanges
  split
  · exact ⟨_, one _⟩
  · exact ⟨.root, nil⟩

theorem outlineChanges (paths : Outline.NamedPaths) (wanted : Record) (shape : ShapeLayer α)
    (k : ScaleFactor α) :
    RunOn [(.shape, .path)] (outlineChanges paths wanted shape k) := by
  unfold Animations.outlineChanges
  split
  · exact one _
  · split
    · exact one _
    · exact nil

theorem shapeChanges (paths : Outline.NamedPaths) (wanted : Record) (src : AnimationSource α) :
    RunOn [(.shape, .path), (.shape, .fillColor), (.shape, .strokeColor), (.shape, .lineWidth),
      (.shape, .strokeStart), (.shape, .strokeEnd)] (shapeChanges paths wanted src) := by
  unfold Animations.shapeChanges
  split
  · exact .append (.append (.append (.append (.append (outlineChanges ..) (colorChange ..))
      (colorChange ..)) (scalarChange ..)) (scalarChange ..)) (scalarChange ..)
  · exact nil

theorem transitions (paths : Outline.NamedPaths) (frames : List ResourceUrl) (wanted : Record)
    (src : AnimationSource α) :
    ∃ moved, RunOn (changeTracks moved) (transitions paths frames wanted src) := by
  obtain ⟨moved, motion⟩ := motionChanges paths wanted src
  refine ⟨moved, ?_⟩
  exact .append (.append (.append (.append (rootChanges wanted src) (textChanges wanted src))
    (imageChanges frames src)) motion) (shapeChanges paths wanted src)

end RunOn

theorem length_imageSequence_le (src : AnimationSource α) : (imageSequence src).length ≤ 1 := by
  unfold imageSequence
  split
  · split <;> simp
  · simp

variable [Analytic α]

theorem length_loops_le (paths : Outline.NamedPaths) (spec : Record) (src : AnimationSource α) :
    (loops paths spec src).length ≤ 1 := by
  unfold loops
  split
  · exact Nat.le_refl 1
  · exact Nat.le_refl 1
  · exact Nat.le_refl 1
  · exact Nat.le_refl 1
  · unfold outlineLoop
    split <;> simp
  · exact Nat.zero_le 1

variable {paths : Outline.NamedPaths} {frames : List ResourceUrl} {src : AnimationSource α}

theorem nodup_changes : ((changes paths frames src).map Directive.track).Nodup := by
  unfold changes
  cases src.info.record? "to" with
  | none => exact List.nodup_nil
  | some wanted =>
    obtain ⟨moved, runs⟩ := RunOn.transitions paths frames wanted src
    exact (nodup_changeTracks moved).sublist runs

theorem nodup_repeated : ((repeated paths src).map Directive.track).Nodup := by
  unfold repeated
  cases src.info.record? "loop" with
  | none => exact List.nodup_nil
  | some spec => exact nodup_of_length_le (length_loops_le paths spec src)

theorem directives_eq : (ofDescriptor paths frames src).directives =
    (imageSequence src ++ changes paths frames src ++ repeated paths src).foldl push [] :=
  rfl

/-- A loop is left before a change, and a change before the frames of an animated image. -/
theorem mem_directives {d : Directive α} :
    d ∈ (ofDescriptor paths frames src).directives ↔
      d ∈ repeated paths src ∨
      d ∈ changes paths frames src ∧ d.track ∉ (repeated paths src).map Directive.track ∨
      d ∈ imageSequence src ∧ d.track ∉ (repeated paths src).map Directive.track ∧
        d.track ∉ (changes paths frames src).map Directive.track := by
  rw [directives_eq, List.foldl_append, List.foldl_append, mem_foldl_push nodup_repeated,
    mem_foldl_push nodup_changes,
    mem_foldl_push (nodup_of_length_le (length_imageSequence_le src))]
  simp only [List.not_mem_nil, false_and, or_false, or_and_right]
  grind

/-- Each track carries one directive at most, and only on a layer that is there. Of directives on
one track the one of the loop is left, else the one of the record `to`, else the one that shows the
frames of the image; and what the record `to` changes from one value to another starts from the
value that the layer has. -/
theorem one_directive_for_each_track (paths : Outline.NamedPaths) (frames : List ResourceUrl)
    (src : AnimationSource α) :
    ((ofDescriptor paths frames src).directives.map Directive.track).Nodup ∧
    (∀ d ∈ (ofDescriptor paths frames src).directives, src.layers.Has d.target) ∧
    (∀ d, d ∈ (ofDescriptor paths frames src).directives ↔
      d ∈ repeated paths src ∨
      d ∈ changes paths frames src ∧ d.track ∉ (repeated paths src).map Directive.track ∨
      d ∈ imageSequence src ∧ d.track ∉ (repeated paths src).map Directive.track ∧
        d.track ∉ (changes paths frames src).map Directive.track) ∧
    ∀ target property start finish,
      Directive.transition target property start finish ∈ changes paths frames src →
        src.layers.baseline target property = some start := by
  refine ⟨?_, ?_, fun d => mem_directives, ?_⟩
  · rw [directives_eq]
    exact nodup_foldl_push _ List.nodup_nil
  · intro d there
    rcases mem_directives.mp there with loop | ⟨change, -⟩ | ⟨sequence, -⟩
    · obtain ⟨spec, cycle⟩ := exists_cycle_of_mem_repeated loop
      exact cycle.has
    · exact (change_of_mem_changes change).has
    · obtain ⟨image, here, -, rfl⟩ := image?_of_mem_imageSequence sequence
      exact Option.isSome_of_eq_some here
  · intro target property start finish there
    obtain ⟨first, rest, values, base⟩ := (change_of_mem_changes there).baseline_eq rfl
    obtain ⟨rfl, -⟩ := List.cons.inj (Keyframes.values.inj values)
    exact base

def album (α : Type) [Scalar α] : AnimationSource α where
  info := ⟨[("to", .record [("img", .list [.text "b.png"]), ("rotate", .number (.integer 90))]),
    ("loop", .record [("style", .text "wiggle")])]⟩
  layers :=
    { style :=
        { background := none, borderWidth := 0, borderColor := .black, cornerRadius := 0,
          shadow := none, opacity := 1, transform := .identity, anchor := ⟨0.5, 0.5⟩,
          position := .zero, masksToBounds := false }
      primary := some (.image ⟨⟨"a.gif"⟩, .zero, 3, .aspectFill⟩)
      tiling := none, mask := none, text := none, richText := none }
  scale := .identity
  bounds := .zero

def albumTurn : Directive Float :=
  .transition .root .transform (.transform .identity)
    (.transform ⟨.zero, Scalar.radians 90, ⟨1, 1⟩⟩)

theorem one_directive_for_each_track_album :
    let src := album Float
    let directives := (ofDescriptor (fun _ => none) [⟨"b.png"⟩] src).directives
    (directives.map Directive.track).Nodup ∧
    albumTurn ∈ changes (fun _ => none) [⟨"b.png"⟩] src ∧ albumTurn ∉ directives ∧
    (∃ wiggle ∈ repeated (fun _ => none) src,
      wiggle.track = albumTurn.track ∧ wiggle ∈ directives) ∧
    src.layers.baseline .root .transform = some (.transform .identity) := by
  intro src directives
  obtain ⟨nodup, -, left, start⟩ := one_directive_for_each_track (fun _ => none) [⟨"b.png"⟩] src
  have asked : albumTurn ∈ changes (fun _ => none) [⟨"b.png"⟩] src := by decide +kernel
  have other : albumTurn ∉ repeated (fun _ => none) src := by decide +kernel
  have wiggles :
      (repeated (fun _ => none) src).any (fun d => d.track == albumTurn.track) = true := by
    decide +kernel
  obtain ⟨wiggle, there, same⟩ := List.any_eq_true.mp wiggles
  have same : wiggle.track = albumTurn.track := eq_of_beq same
  have used : albumTurn.track ∈ (repeated (fun _ => none) src).map Directive.track :=
    same ▸ List.mem_map_of_mem there
  have begins : src.layers.baseline .root .transform = some (.transform .identity) :=
    start .root .transform (.transform .identity)
      (.transform ⟨.zero, Scalar.radians 90, ⟨1, 1⟩⟩) asked
  have stays : wiggle ∈ directives := (left wiggle).mpr (.inl there)
  refine ⟨nodup, asked, ?_, ⟨wiggle, there, same, stays⟩, begins⟩
  intro stays
  rcases (left albumTurn).mp stays with loop | ⟨-, free⟩ | ⟨-, free, -⟩
  · exact other loop
  · exact free used
  · exact free used

end Animations

end LayerTree
