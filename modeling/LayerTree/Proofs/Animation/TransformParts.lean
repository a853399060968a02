import LayerTree.Proofs.Animation.Sampled
import LayerTree.Proofs.Animation.Tracks
import LayerTree.Proofs.Element.Rescaled
import Mathlib.Tactic.Ring

/-!
The parts of a transform that a record `to` changes.

A transform is described part by part. What the record `to` writes of a part is taken from it alone,
and a part that it does not name is read from the element itself, as its style reads it. The change
of the transform therefore ends with the parts that it starts with, except for those that are named,
and these others stand still on the way.
-/

set_option autoImplicit false
set_option relaxedAutoImplicit false

namespace LayerTree

open Json (Number Value)

inductive TransformPart where
  | translate
  | rotate
  | scale
  deriving DecidableEq

def TransformPart.name : TransformPart → String
  | translate => "translate"
  | rotate => "rotate"
  | scale => "scale"

variable {α : Type}

def Transform.part (f : Transform α) : TransformPart → List α
  | .translate => [f.translate.x, f.translate.y]
  | .rotate => [f.rotation]
  | .scale => [f.scale.x, f.scale.y]

variable [Scalar α]

theorem Json.Value.number?_eq_some {value : Value} {x : α} (h : value.number? = some x) :
    ∃ n : Number, value = .number n ∧ n.value = x := by
  cases value with
  | number n => exact ⟨n, rfl, Option.some.inj h⟩
  | _ => cases h

theorem Transform.pair?_eq_some {value : Value} {x y : α} (h : pair? value = some (x, y)) :
    ∃ (m n : Number) (rest : List Value), value = .list (.number m :: .number n :: rest) ∧
      m.value = x ∧ n.value = y := by
  unfold pair? at h
  split at h
  · next first second rest =>
    obtain ⟨x', hx, h⟩ := Option.bind_eq_some_iff.mp h
    obtain ⟨y', hy, h⟩ := Option.bind_eq_some_iff.mp h
    obtain ⟨rfl, rfl⟩ := Prod.mk.inj (Option.some.inj h)
    obtain ⟨m, rfl, hm⟩ := Json.Value.number?_eq_some hx
    obtain ⟨n, rfl, hn⟩ := Json.Value.number?_eq_some hy
    exact ⟨m, n, rest, rfl, hm, hn⟩
  · cases h

namespace TransformPart

/-- What the well-formed values of each part are, and which numbers they write: a shift is two
numbers in local units, a turn is a number of degrees or the third item of a list, and the factors
are one number for both axes or two. Further items of a list are of no account. -/
inductive Writes (k : ScaleFactor α) : TransformPart → Value → List α → Prop
  | shift (x y : Number) (rest : List Value) :
      Writes k .translate (.list (.number x :: .number y :: rest))
        [x.value * k.x, y.value * k.y]
  | turn (degrees : Number) :
      Writes k .rotate (.number degrees) [Scalar.radians degrees.value]
  | turnOfThird (x y : Value) (degrees : Number) (rest : List Value) :
      Writes k .rotate (.list (x :: y :: .number degrees :: rest))
        [Scalar.radians degrees.value]
  | factor (n : Number) : Writes k .scale (.number n) [n.value, n.value]
  | factors (x y : Number) (rest : List Value) :
      Writes k .scale (.list (.number x :: .number y :: rest)) [x.value, y.value]

/-- The numbers that an optional field describes a part with: those that its value writes, or those
of the identity when it is missing or malformed. -/
inductive Describes (k : ScaleFactor α) (c : TransformPart) : Option Value → List α → Prop
  | written {value : Value} {xs : List α} :
      c.Writes k value xs → Describes k c (some value) xs
  | malformed {value : Value} :
      (∀ xs, ¬c.Writes k value xs) → Describes k c (some value) (Transform.identity.part c)
  | missing : Describes k c none (Transform.identity.part c)

/-! The parser, part by part. -/

def read? (k : ScaleFactor α) : TransformPart → Value → Option (List α)
  | .translate, value => (Transform.pair? value).map fun (x, y) => [x * k.x, y * k.y]
  | .rotate, value => (Transform.degrees? value).map fun degrees => [Scalar.radians degrees]
  | .scale, value => (Transform.factors? value).map fun v => [v.x, v.y]

theorem writes_of_degrees? {k : ScaleFactor α} {value : Value} {degrees : α}
    (h : Transform.degrees? value = some degrees) :
    Writes k .rotate value [Scalar.radians degrees] := by
  unfold Transform.degrees? at h
  split at h
  · next n =>
    obtain rfl := Option.some.inj h
    exact .turn n
  · next items =>
    obtain ⟨third, there, h⟩ := Option.bind_eq_some_iff.mp h
    obtain ⟨n, rfl, rfl⟩ := Json.Value.number?_eq_some h
    match items, there with
    | x :: y :: .number n :: rest, rfl => exact .turnOfThird x y n rest
  · cases h

theorem writes_of_factors? {k : ScaleFactor α} {value : Value} {v : Vec α}
    (h : Transform.factors? value = some v) : Writes k .scale value [v.x, v.y] := by
  unfold Transform.factors? at h
  split at h
  · next n =>
    obtain rfl := Option.some.inj h
    exact .factor n
  · obtain ⟨⟨x, y⟩, pair, rfl⟩ := Option.map_eq_some_iff.mp h
    obtain ⟨m, n, rest, rfl, rfl, rfl⟩ := Transform.pair?_eq_some pair
    exact .factors m n rest

theorem read?_eq_some_iff {k : ScaleFactor α} {c : TransformPart} {value : Value} {xs : List α} :
    c.read? k value = some xs ↔ c.Writes k value xs := by
  constructor
  · intro h
    cases c with
    | translate =>
      obtain ⟨⟨x, y⟩, pair, rfl⟩ := Option.map_eq_some_iff.mp h
      obtain ⟨m, n, rest, rfl, rfl, rfl⟩ := Transform.pair?_eq_some pair
      exact .shift m n rest
    | rotate =>
      obtain ⟨degrees, read, rfl⟩ := Option.map_eq_some_iff.mp h
      exact writes_of_degrees? read
    | scale =>
      obtain ⟨v, read, rfl⟩ := Option.map_eq_some_iff.mp h
      exact writes_of_factors? read
  · intro h
    cases h <;> rfl

theorem describes_read? (k : ScaleFactor α) (c : TransformPart) (field : Option Value) :
    Describes k c field ((field.bind (c.read? k)).getD (Transform.identity.part c)) := by
  cases field with
  | none => exact .missing
  | some value =>
    rw [Option.bind_some]
    cases read : c.read? k value with
    | none =>
      refine .malformed fun xs writes => ?_
      rw [read?_eq_some_iff.mpr writes] at read
      cases read
    | some xs => exact .written (read?_eq_some_iff.mp read)

end TransformPart

namespace Transform

theorem part_ofValues (k : ScaleFactor α) (field : TransformPart → Option Value)
    (c : TransformPart) :
    (ofValues (field .translate) (field .rotate) (field .scale) k).part c =
      ((field c).bind (c.read? k)).getD (identity.part c) := by
  have pair (o : Option (Vec α)) (v : Vec α) :
      [(o.getD v).x, (o.getD v).y] = (o.map fun v => [v.x, v.y]).getD [v.x, v.y] :=
    (Option.getD_map (fun v : Vec α => [v.x, v.y]) v o).symm
  cases c with
  | translate =>
    simp only [part, ofValues, pair, Option.map_bind, Function.comp_def, Option.map_map]
    rfl
  | rotate =>
    simp only [part, ofValues, ← Option.getD_map (fun r : α => [r]), Option.map_bind,
      Function.comp_def, Option.map_map]
    rfl
  | scale =>
    simp only [part, ofValues, pair, Option.map_bind]
    rfl

theorem ofFields_eq (fields : Record) (k : ScaleFactor α) (base : Record) :
    ofFields fields k base =
      if ["translate", "rotate", "scale"].any fields.contains then
        let field (c : TransformPart) := (fields.get? c.name).or (base.get? c.name)
        some (ofValues (field .translate) (field .rotate) (field .scale) k)
      else none :=
  rfl

theorem ofFields_isSome (fields : Record) (k : ScaleFactor α) (base : Record) :
    (ofFields fields k base).isSome = true ↔
      ∃ c : TransformPart, fields.contains c.name = true := by
  have named : ["translate", "rotate", "scale"].any fields.contains = true ↔
      ∃ c : TransformPart, fields.contains c.name = true := by
    simp only [List.any_cons, List.any_nil, Bool.or_false, Bool.or_eq_true]
    constructor
    · rintro (there | there | there)
      · exact ⟨.translate, there⟩
      · exact ⟨.rotate, there⟩
      · exact ⟨.scale, there⟩
    · rintro ⟨_ | _ | _, there⟩
      · exact .inl there
      · exact .inr (.inl there)
      · exact .inr (.inr there)
  rw [ofFields_eq, ← named]
  split <;> simp [*]

theorem part_of_ofFields {fields base : Record} {k : ScaleFactor α} {f : Transform α}
    (h : ofFields fields k base = some f) (c : TransformPart) :
    f.part c = (((fields.get? c.name).or (base.get? c.name)).bind (c.read? k)).getD
      (identity.part c) := by
  rw [ofFields_eq] at h
  split at h
  · obtain rfl := Option.some.inj h
    exact part_ofValues k (fun c => (fields.get? c.name).or (base.get? c.name)) c
  · cases h

theorem part_getD_ofFields (info : Record) (k : ScaleFactor α) (c : TransformPart) :
    ((ofFields info k Record.empty).getD identity).part c =
      ((info.get? c.name).bind (c.read? k)).getD (identity.part c) := by
  cases here : ofFields info k Record.empty with
  | some f =>
    rw [Option.getD_some, part_of_ofFields here]
    exact congrArg (fun field => (Option.bind field _).getD _) Option.or_none
  | none =>
    have unnamed : info.get? c.name = none := by
      rw [← Option.not_isSome_iff_eq_none]
      intro named
      have described := (ofFields_isSome info k Record.empty).mpr ⟨c, named⟩
      rw [here] at described
      cases described
    rw [unnamed]
    rfl

end Transform

/-! Samples. -/

theorem Transform.part_lerp {f g : Transform Rat} {c : TransformPart}
    (same : f.part c = g.part c) (x : Rat) : (f.lerp g x).part c = f.part c := by
  have still (a : Rat) : a + (a - a) * x = a := by ring
  cases c <;> simp only [part, List.cons.injEq, and_true] at same <;>
    simp only [part, lerp, Vec.lerp, ← same, still]

theorem Directive.sample_part [Analytic Rat] {d : Directive Rat} {vs : List (AnimValue Rat)}
    (values : d.keyframes = .values vs) (nonempty : vs ≠ []) {c : TransformPart} {xs : List Rat}
    (agree : ∀ v ∈ vs, ∃ f, v = .transform f ∧ f.part c = xs) (t : Rat) :
    ∃ f, d.sample t = some (.transform f) ∧ f.part c = xs := by
  simp only [sample, values]
  rcases sampleValues_cases nonempty (d.phase t) d.calculation with
    ⟨v, there, held⟩ | ⟨two, -, between⟩
  · obtain ⟨f, rfl, part⟩ := agree v there
    exact ⟨f, held, part⟩
  · obtain ⟨a, ha, b, hb, x, value⟩ := exists_betweenValues two (d.phase t)
    obtain ⟨f, rfl, first⟩ := agree a ha
    obtain ⟨g, rfl, second⟩ := agree b hb
    exact ⟨f.lerp g x, between.trans value,
      (Transform.part_lerp (first.trans second.symm) x).trans first⟩

/-! The loop of an element. -/

namespace Animations

/-- A record `loop` moves the element itself, and so takes the place of a change of its transform. A
shift moves the repeated content instead, if there is any. -/
inductive MovesElement (l : Layers α) (spec : Record) : Prop
  | vibrate : spec.text? "style" = some "vibrate" → MovesElement l spec
  | wiggle : spec.text? "style" = some "wiggle" → MovesElement l spec
  | shift : spec.text? "style" = some "shift" → l.tiling = none → MovesElement l spec

variable [Analytic α] {paths : Outline.NamedPaths} {src : AnimationSource α}

theorem mem_tracks_loops {spec : Record} :
    (.root, .transform) ∈ (loops paths spec src).map Directive.track ↔
      MovesElement src.layers spec := by
  unfold loops
  split
  · next style => exact ⟨fun _ => .vibrate style, fun _ => List.mem_singleton.mpr rfl⟩
  · next style => exact ⟨fun _ => .wiggle style, fun _ => List.mem_singleton.mpr rfl⟩
  · next style =>
    have track : (shiftLoop spec src).track = (.root, .transform) ↔ src.layers.tiling = none := by
      unfold shiftLoop
      cases src.layers.tiling <;> simp [Directive.track, Directive.looping]
    rw [List.map_singleton, List.mem_singleton, eq_comm, track]
    refine ⟨.shift style, ?_⟩
    rintro (other | other | ⟨-, still⟩)
    · simp [style] at other
    · simp [style] at other
    · exact still
  · next style =>
    refine iff_of_false (by simp [Directive.track, Directive.looping]) ?_
    rintro (other | other | ⟨other, -⟩) <;> simp [style] at other
  · next style =>
    refine iff_of_false ?_ ?_
    · unfold outlineLoop
      split <;> simp [Directive.track, Directive.looping]
    · rintro (other | other | ⟨other, -⟩) <;> simp [style] at other
  · next vibrate wiggle shift _ _ =>
    refine iff_of_false List.not_mem_nil ?_
    rintro (other | other | ⟨other, -⟩)
    · exact vibrate other
    · exact wiggle other
    · exact shift other

theorem mem_tracks_repeated :
    (.root, .transform) ∈ (repeated paths src).map Directive.track ↔
      ∃ spec, src.info.record? "loop" = some spec ∧ MovesElement src.layers spec := by
  unfold repeated
  cases src.info.record? "loop" with
  | none => simp
  | some spec => simpa using mem_tracks_loops

variable {frames : List ResourceUrl}

/-- The change of the transform that a record `to` asks for is made unless a loop moves the element,
and then nothing else changes the transform. -/
theorem transform_directive_iff {wanted : Record} (asked : src.info.record? "to" = some wanted)
    {finish : Transform α} (described : Transform.ofFields wanted src.scale src.info = some finish)
    (still : ¬∃ spec, src.info.record? "loop" = some spec ∧ MovesElement src.layers spec)
    (d : Directive α) :
    d ∈ (ofDescriptor paths frames src).directives ∧ d.track = (.root, .transform) ↔
      d = .transition .root .transform (.transform src.layers.style.transform)
        (.transform finish) := by
  have change : Directive.transition .root .transform (.transform src.layers.style.transform)
      (.transform finish) ∈ changes paths frames src := by
    simp [changes, asked, transitions, rootChanges, described]
  have stays := mem_directives.mpr (.inr (.inl ⟨change, mt mem_tracks_repeated.mp still⟩))
  have nodup : ((ofDescriptor paths frames src).directives.map Directive.track).Nodup := by
    rw [directives_eq]
    exact nodup_foldl_push _ List.nodup_nil
  constructor
  · rintro ⟨there, track⟩
    exact List.inj_on_of_nodup_map nodup there stays track
  · rintro rfl
    exact ⟨stays, rfl⟩

end Animations

/-! Elements. -/

/-- A change of a transform through a record `to` changes the parts that the record names. -/
structure Transform.ChangesNamed [Analytic Rat] (k : ScaleFactor Rat) (info wanted : Record)
    (start finish : Transform Rat) : Prop where
  /-- It starts with what the element describes, part by part. -/
  begins : ∀ c : TransformPart, c.Describes k (info.get? c.name) (start.part c)
  /-- A part that is not named is the same at the end, whatever the element says of it. -/
  kept : ∀ c : TransformPart, wanted.get? c.name = none → finish.part c = start.part c
  /-- It is the same at any time in between. -/
  still : ∀ c : TransformPart, wanted.get? c.name = none → ∀ t, ∃ f,
    (Directive.transition .root .transform (.transform start) (.transform finish)).sample t =
        some (.transform f) ∧
      f.part c = start.part c
  /-- A part that is named ends with what its value describes, whatever the element says of it. -/
  ends : ∀ (c : TransformPart) (value : Value), wanted.get? c.name = some value →
    c.Describes k (some value) (finish.part c)

theorem Transform.changesNamed [Analytic Rat] {k : ScaleFactor Rat} {info wanted : Record}
    {finish : Transform Rat} (described : ofFields wanted k info = some finish) :
    ChangesNamed k info wanted ((ofFields info k Record.empty).getD identity) finish := by
  have kept (c : TransformPart) (unnamed : wanted.get? c.name = none) :
      finish.part c = ((ofFields info k Record.empty).getD identity).part c := by
    rw [part_of_ofFields described, part_getD_ofFields, unnamed, Option.none_or]
  refine ⟨fun c => ?_, kept, fun c unnamed t => ?_, fun c value named => ?_⟩
  · rw [part_getD_ofFields]
    exact TransformPart.describes_read? k c _
  · refine Directive.sample_part rfl (List.cons_ne_nil _ _) ?_ t
    simp only [List.mem_cons, List.not_mem_nil, or_false]
    rintro v (rfl | rfl)
    · exact ⟨_, rfl, rfl⟩
    · exact ⟨_, rfl, kept c unnamed⟩
  · rw [part_of_ofFields described, named, Option.some_or]
    exact TransformPart.describes_read? k c (some value)

namespace Build

theorem body_transform {σ : Type} [Analytic α] (h : Host σ α) (screen : Size α) (k : ScaleFactor α)
    (info : Record) (container : Size α) (id : ElementId) :
    Returns (fun b =>
      b.layers.style.transform = (Transform.ofFields info k Record.empty).getD .identity ∧
      ∃ frames, b.animations = (Animations.ofDescriptor h.delegate.namedPath frames
        ⟨info, b.layers, k, b.box.bounds⟩).directives)
      (body h screen k info container id) := by
  rw [body_eq]
  refine .bind (.trivial _) fun image _ => .bind (.trivial _) fun mask _ => ?_
  refine .bind (.trivial _) fun content _ => ?_
  refine .bind (.trivial _) fun text _ => .bind (.trivial _) fun richText _ => ?_
  exact .bind (.trivial _) fun frames _ => .pure ⟨rfl, frames, rfl⟩

/-- The record `to` of an element that names a part of the transform changes the parts that it
names. Unless a loop moves the element, its transform is changed from the one of its style, by one
directive; each part that the record does not name is the same at both ends and at any time, and
each that it names ends as the record alone describes it. -/
theorem body_changes_named {σ : Type} [Analytic Rat] (h : Host σ Rat) (screen : Size Rat)
    (k : ScaleFactor Rat) (info : Record) (container : Size Rat) (id : ElementId) {wanted : Record}
    (asked : info.record? "to" = some wanted)
    (names : ∃ c : TransformPart, wanted.contains c.name = true) :
    Returns (fun b =>
      (∀ spec, info.record? "loop" = some spec → ¬Animations.MovesElement b.layers spec) →
      ∃ finish,
        (∀ d, d ∈ b.animations ∧ d.track = (.root, .transform) ↔
          d = .transition .root .transform (.transform b.layers.style.transform)
            (.transform finish)) ∧
        Transform.ChangesNamed k info wanted b.layers.style.transform finish)
      (body h screen k info container id) := by
  intro s still
  obtain ⟨style, frames, animations⟩ := body_transform h screen k info container id s
  obtain ⟨finish, described⟩ :=
    Option.isSome_iff_exists.mp ((Transform.ofFields_isSome wanted k info).mpr names)
  refine ⟨finish, fun d => ?_, ?_⟩
  · rw [animations]
    refine Animations.transform_directive_iff asked described ?_ d
    rintro ⟨spec, looped, moves⟩
    exact still spec looped moves
  · rw [style]
    exact Transform.changesNamed described

def turningPage : Record :=
  ⟨[("translate", .list [.number (.integer 5), .number (.integer 5)]),
    ("rotate", .text "left"), ("scale", .number (.integer 2)),
    ("to", .record [("rotate", .number (.integer 90)), ("scale", .text "large")]),
    ("loop", .record [("style", .text "blink")])]⟩

theorem body_changes_named_page : ∃ _ : Analytic Rat,
    let b := ((body Element.exactScreening ⟨640, 480⟩ ⟨2, 3⟩ turningPage ⟨640, 480⟩ 0).run ()).1
    let start := b.layers.style.transform
    start.part .translate = [10, 15] ∧ start.part .scale = [2, 2] ∧
    ∃ finish, .transition .root .transform (.transform start) (.transform finish) ∈ b.animations ∧
      finish.part .translate = [10, 15] ∧ finish.part .scale = [1, 1] ∧
      ∀ wanted, turningPage.record? "to" = some wanted →
        Transform.ChangesNamed ⟨2, 3⟩ turningPage wanted start finish := by
  let analytic : Analytic Rat := ⟨id, id, id, id, fun x _ => x, fun x _ => x⟩
  refine ⟨analytic, ?_⟩
  intro b start
  have moved : start.part .translate = [10, 15] ∧ start.part .scale = [2, 2] := by
    decide +kernel
  have still : ∀ spec, turningPage.record? "loop" = some spec →
      ¬Animations.MovesElement b.layers spec := by
    rintro spec looped moves
    obtain rfl := Option.some.inj looped
    rcases moves with other | other | ⟨other, -⟩ <;> exact absurd other (by decide)
  obtain ⟨finish, only, changes⟩ := body_changes_named Element.exactScreening ⟨640, 480⟩ ⟨2, 3⟩
    turningPage ⟨640, 480⟩ 0 rfl ⟨.rotate, rfl⟩ () still
  refine ⟨moved.1, moved.2, finish, ((only _).mpr rfl).1, ?_, ?_, ?_⟩
  · exact (changes.kept .translate rfl).trans moved.1
  · have malformed := changes.ends .scale (.text "large") rfl
    generalize finish.part .scale = factors at malformed ⊢
    cases malformed with
    | written writes => cases writes
    | malformed => rfl
  · rintro wanted asked
    obtain rfl := Option.some.inj asked
    exact changes

end Build

end LayerTree
