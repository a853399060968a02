import LayerTree.Proofs.Animation.Typed
import LayerTree.Proofs.Color.Premultiplied
import LayerTree.Proofs.Element.Rescaled

/-!
Premultiplied colours on elements and in time.

Every colour of a built body is read from its descriptor or is a default, and a directive over
colours passes from one of them to another one that is read. In exact numbers no such colour has a
channel above its alpha, at any time.
-/

set_option autoImplicit false
set_option relaxedAutoImplicit false

namespace LayerTree

variable {α : Type}

structure ShapeLayer.Premultiplied (shape : ShapeLayer α) : Prop where
  fill : ∀ c ∈ shape.fill, c.Premultiplied
  stroke : shape.stroke.Premultiplied
  shadow : ∀ shadow ∈ shape.shadow, shadow.color.Premultiplied

namespace Layers

/-- The colours of the layers are premultiplied. Those of styled text are the host's. -/
structure Premultiplied (l : Layers α) : Prop where
  background : ∀ c ∈ l.style.background, c.Premultiplied
  borderColor : l.style.borderColor.Premultiplied
  shadow : ∀ shadow ∈ l.style.shadow, shadow.color.Premultiplied
  shape : ∀ shape ∈ l.shape?, shape.Premultiplied
  text : ∀ text ∈ l.text, text.color.Premultiplied

theorem Premultiplied.baseline {l : Layers α} (all : l.Premultiplied) {target : LayerTarget}
    {property : AnimatedProperty} {c : Color}
    (h : l.baseline target property = some (.color c)) : c.Premultiplied := by
  have filled (fill : Option Color) (premultiplied : ∀ c ∈ fill, c.Premultiplied) :
      (fill.getD Color.transparent).Premultiplied := by
    cases fill with
    | none => exact Color.premultiplied_transparent
    | some c => exact premultiplied c rfl
  cases target with
  | root =>
    cases property with
    | backgroundColor =>
      obtain rfl := AnimValue.color.inj (Option.some.inj h)
      exact filled _ all.background
    | borderColor =>
      obtain rfl := AnimValue.color.inj (Option.some.inj h)
      exact all.borderColor
    | _ => cases h
  | tilingHost => cases property <;> cases h
  | image => cases property <;> cases h
  | text =>
    cases property with
    | textColor =>
      obtain ⟨text, there, same⟩ := Option.map_eq_some_iff.mp h
      obtain rfl := AnimValue.color.inj same
      exact all.text text there
    | _ => cases h
  | shape =>
    cases property with
    | fillColor =>
      obtain ⟨shape, there, same⟩ := Option.map_eq_some_iff.mp h
      obtain rfl := AnimValue.color.inj same
      exact filled _ (all.shape shape there).fill
    | strokeColor =>
      obtain ⟨shape, there, same⟩ := Option.map_eq_some_iff.mp h
      obtain rfl := AnimValue.color.inj same
      exact (all.shape shape there).stroke
    | path | lineWidth | strokeStart | strokeEnd =>
      obtain ⟨shape, -, same⟩ := Option.map_eq_some_iff.mp h
      cases same
    | _ => cases h

end Layers

/-! Bodies that are built. -/

namespace Build

theorem premultiplied_shadow? (info : Record) (k : ScaleFactor Rat) :
    ∀ shadow ∈ shadow? info k, shadow.color.Premultiplied := by
  intro shadow there
  obtain ⟨record, -, rfl⟩ := Option.map_eq_some_iff.mp there
  exact Color.premultiplied_readD _ Color.premultiplied_black

theorem premultiplied_shape (info : Record) (path : Outline Rat) (bounds : Rect Rat)
    (k : ScaleFactor Rat) : (shape info path bounds k).Premultiplied where
  fill _ read := Color.premultiplied_of_read? read
  stroke := Color.premultiplied_readD _ Color.premultiplied_black
  shadow := premultiplied_shadow? info k

variable {σ : Type}

theorem primary_premultiplied (h : Host σ Rat) (info : Record)
    (image : Option (ResourceUrl × ImageInfo)) (path : Option (Outline Rat)) (box : Box Rat)
    (k : ScaleFactor Rat) :
    Returns (fun content => ∀ shape, content.1 = some (.shape shape) → shape.Premultiplied)
      (primary h info image path box k) := by
  unfold primary
  split
  · exact .pure (by simp)
  · refine .bind (.trivial _) fun sprite _ => ?_
    split
    · exact .pure (by simp)
    · split
      · next path =>
        refine .pure fun layer same => ?_
        obtain rfl := Primary.shape.inj (Option.some.inj same)
        exact premultiplied_shape info path box.bounds k
      · refine .bind (.trivial _) fun opened _ => ?_
        split
        · exact .pure (by simp)
        · exact .pure (by simp)

theorem text?_premultiplied (h : Host σ Rat) (info : Record) (bounds : Rect Rat)
    (screen : Size Rat) (k : ScaleFactor Rat) :
    Returns (fun text => ∀ layer ∈ text, layer.color.Premultiplied)
      (text? h info bounds screen k) := by
  unfold text?
  split
  · exact .pure nofun
  · refine .bind (.trivial _) fun measured _ => .pure fun layer same => ?_
    obtain rfl := Option.some.inj same
    exact Color.premultiplied_readD _ Color.premultiplied_black

theorem premultiplied_layers (info : Record) (container : Size Rat) (k : ScaleFactor Rat)
    (box : Box Rat) {content : Option (Primary Rat)}
    (shape : ∀ shape, content = some (.shape shape) → shape.Premultiplied)
    (mask : Option (ResourceUrl × ImageInfo)) {text : Option (TextLayer Rat)}
    (colored : ∀ layer ∈ text, layer.color.Premultiplied) (richText : Option (RichTextLayer Rat)) :
    (layers info container k box content mask text richText).Premultiplied where
  background _ read := Color.premultiplied_of_read? read
  borderColor := by
    change (if _ then _ else _ : Color).Premultiplied
    split
    · exact Color.premultiplied_readD _ Color.premultiplied_black
    · exact Color.premultiplied_black
  shadow shadow there := by
    simp only [layers, finishStyle] at there
    split at there
    · cases there
    · exact premultiplied_shadow? info k shadow there
  shape layer there := by
    simp only [layers, Layers.shape?] at there
    split at there
    · next built =>
      obtain rfl := Option.some.inj there
      exact shape built rfl
    · cases there
  text := colored

variable [Analytic Rat]

theorem body_premultiplied (h : Host σ Rat) (screen : Size Rat) (k : ScaleFactor Rat)
    (info : Record) (container : Size Rat) (id : ElementId) :
    Returns (fun b => b.layers.Premultiplied) (body h screen k info container id) := by
  rw [body_eq]
  refine .bind (.trivial _) fun image _ => .bind (.trivial _) fun mask _ => ?_
  refine .bind (primary_premultiplied h info image _ _ k) fun content shape => ?_
  refine .bind (text?_premultiplied h info _ screen k) fun text colored => ?_
  refine .bind (.trivial _) fun richText _ => .bind (.trivial _) fun frames _ => ?_
  exact .pure (premultiplied_layers info container k _ shape mask colored richText)

end Build

/-! Directives. -/

/-- No colour that a directive passes through, and none between these, has a channel above its
alpha. -/
structure Directive.Premultiplied [Analytic Rat] (d : Directive Rat) : Prop where
  keyframes : ∀ vs, d.keyframes = .values vs → ∀ c, .color c ∈ vs → c.Premultiplied
  samples : ∀ t c, d.sample t = some (.color c) → c.Premultiplied

namespace Directive

variable [Analytic Rat]

theorem premultiplied_of_typed {d : Directive Rat} (typed : d.Typed)
    (other : d.property.kind ≠ .color) : d.Premultiplied where
  keyframes vs values c there := by
    simp only [Typed, values] at typed
    exact absurd (typed.2.2 _ there).symm other
  samples t c sampled := by
    cases path : d.keyframes with
    | values vs =>
      obtain ⟨v, value, kind⟩ := typed.sample path t
      obtain rfl := Option.some.inj (value.symm.trans sampled)
      exact absurd kind.symm other
    | motionPath =>
      simp only [sample, path] at sampled
      obtain ⟨place, -, same⟩ := Option.map_eq_some_iff.mp sampled
      cases same

theorem premultiplied_transition (target : LayerTarget) (property : AnimatedProperty)
    {start finish : Color} (first : start.Premultiplied) (last : finish.Premultiplied) :
    (transition target property (.color start) (.color finish) : Directive Rat).Premultiplied := by
  have ends : ∀ v ∈ [.color start, (.color finish : AnimValue Rat)],
      ∃ c : Color, v = .color c ∧ c.Premultiplied := by
    simp only [List.mem_cons, List.not_mem_nil, or_false]
    rintro v (rfl | rfl)
    · exact ⟨start, rfl, first⟩
    · exact ⟨finish, rfl, last⟩
  constructor
  · intro vs values c there
    obtain rfl := Keyframes.values.inj values
    obtain ⟨c', same, premultiplied⟩ := ends _ there
    obtain rfl := AnimValue.color.inj same
    exact premultiplied
  · intro t c sampled
    have phase := phase_mem (transition target property (.color start) (.color finish)) t
    obtain ⟨v, value, here⟩ := exists_sampleValues
      (List.cons_ne_nil (.color start) [.color finish]) (show 2 ≤ UInt64.size by decide)
      phase.1 .linear
    obtain rfl := Option.some.inj (value.symm.trans sampled)
    rcases here with there | ⟨a, ha, b, hb, x, low, high, same⟩
    · obtain ⟨c', same, premultiplied⟩ := ends _ there
      obtain rfl := AnimValue.color.inj same
      exact premultiplied
    · obtain ⟨c₁, rfl, premultiplied₁⟩ := ends a ha
      obtain ⟨c₂, rfl, premultiplied₂⟩ := ends b hb
      obtain rfl := AnimValue.color.inj same
      exact premultiplied₁.lerp premultiplied₂ low high

end Directive

namespace Animations

variable [Analytic Rat] {l : Layers Rat} {d : Directive Rat}

theorem Change.premultiplied (all : l.Premultiplied) {frames : List ResourceUrl}
    (h : Change l frames d) : d.Premultiplied := by
  by_cases kind : d.property.kind = .color
  · cases h with
    | color base read =>
      exact Directive.premultiplied_transition _ _ (all.baseline base)
        (Color.premultiplied_of_read? read)
    | scalar _ base => exact nomatch (Layers.kind_of_baseline base).trans kind
    | transform => cases kind
    | outlines => cases kind
    | images => cases kind
    | motion => cases kind
  · exact Directive.premultiplied_of_typed h.typed kind

theorem Cycle.premultiplied {spec : Record} (h : Cycle l spec d) : d.Premultiplied := by
  refine Directive.premultiplied_of_typed h.typed ?_
  cases h <;> nofun

theorem premultiplied_of_mem_directives {paths : Outline.NamedPaths} {frames : List ResourceUrl}
    {src : AnimationSource Rat} (all : src.layers.Premultiplied)
    (h : d ∈ (ofDescriptor paths frames src).directives) : d.Premultiplied := by
  rcases mem_directives.mp h with loop | ⟨change, -⟩ | ⟨sequence, -⟩
  · obtain ⟨spec, cycle⟩ := exists_cycle_of_mem_repeated loop
    exact cycle.premultiplied
  · exact (change_of_mem_changes change).premultiplied all
  · obtain ⟨image, -, -, rfl⟩ := image?_of_mem_imageSequence sequence
    exact Directive.premultiplied_of_typed (typed_of_mem_imageSequence sequence) nofun

end Animations

namespace Element

/-- Colours stay premultiplied. Each colour that is read is, so is each colour of the layers of a
loaded tree, and so is each colour that an animation of such layers passes through or shows at any
time. -/
theorem Loaded.colors_premultiplied [Analytic Rat] {root : Element Rat} (loaded : root.Loaded) :
    (∀ value c, Color.read? Rat value = some c → c.Premultiplied) ∧
    (∀ paths frames (src : AnimationSource Rat), src.layers.Premultiplied →
      ∀ d ∈ (Animations.ofDescriptor paths frames src).directives, d.Premultiplied) ∧
    ∀ b ∈ root.toList, b.layers.Premultiplied ∧ ∀ d ∈ b.animations, d.Premultiplied := by
  refine ⟨fun value c => Color.premultiplied_of_read?,
    fun paths frames src all d => Animations.premultiplied_of_mem_directives all, ?_⟩
  obtain ⟨σ, h, depth, desc, dimension, k, first, s, loads⟩ := loaded
  intro b hb
  obtain ⟨container, _, here⟩ := (mirrors_of_loadWithin loads).renders b hb
  obtain ⟨s, same, -⟩ := here.built
  have layers := Build.body_premultiplied h dimension k b.info container b.id s
  rw [same] at layers
  have compiled := Animations.body_compiled h dimension k b.info container b.id s
  rw [same] at compiled
  obtain ⟨s', animations⟩ := compiled
  rw [← animations]
  exact ⟨layers, fun d => Animations.premultiplied_of_mem_directives layers⟩

def fadingPage : Record :=
  ⟨[("bc", .text "#ff800080"), ("to", .record [("bc", .text "blue")])]⟩

theorem Loaded.colors_premultiplied_page : ∃ (_ : Analytic Rat) (root : Element Rat), root.Loaded ∧
    root.body.layers.style.background = some ⟨128, 64, 0, 128⟩ ∧
    root.body.layers.Premultiplied ∧
    ∃ d ∈ root.body.animations, d.Premultiplied ∧
      d.sample 0.5 = some (.color ⟨64, 32, 128, 192⟩) := by
  let analytic : Analytic Rat := ⟨id, id, id, id, fun x _ => x, fun x _ => x⟩
  have loads : (((loadWithin 1 exactScreening fadingPage ⟨640, 480⟩ ⟨1, 1⟩ 0).run ()).1.any
      fun root => root.body.layers.style.background == some ⟨128, 64, 0, 128⟩ &&
        root.body.animations.any fun d => d.sample 0.5 == some (.color ⟨64, 32, 128, 192⟩)) =
      true := by
    decide +kernel
  obtain ⟨root, eq, here⟩ := (Option.any_eq_true _ _).mp loads
  obtain ⟨orange, there⟩ := Bool.and_eq_true_iff.mp here
  obtain ⟨d, animates, between⟩ := List.any_eq_true.mp there
  have loaded : root.Loaded := ⟨Unit, exactScreening, 1, fadingPage, _, _, 0, (), eq⟩
  obtain ⟨layers, directives⟩ := loaded.colors_premultiplied.2.2 root.body root.body_mem_toList
  exact ⟨analytic, root, loaded, eq_of_beq orange, layers, d, animates, directives d animates,
    eq_of_beq between⟩

end Element

end LayerTree
