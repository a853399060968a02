import LayerTree.Proofs.Animation.Unscaled
import LayerTree.Proofs.Element.Assembled
import LayerTree.Proofs.Element.Mirrored

/-!
Trees that are built of one descriptor at two scales.

When the answers of the host depend only on what it is asked, the scale has no part in any decision:
the two trees differ in nothing but their lengths in device pixels. In exact numbers each frame is
the local box with its coordinates multiplied by the scale.
-/

set_option autoImplicit false
set_option relaxedAutoImplicit false

namespace LayerTree

/-- Two computations give related answers, whatever states they start in. -/
def Agrees {σ β γ : Type} (R : β → γ → Prop) (x : StateM σ β) (y : StateM σ γ) : Prop :=
  ∀ s s', R (x.run s).1 (y.run s').1

namespace Agrees

variable {σ β β' γ γ' : Type} {R : β → β' → Prop} {S : γ → γ' → Prop}

theorem pure {a : β} {a' : β'} (h : R a a') :
    Agrees R (Pure.pure a : StateM σ β) (Pure.pure a') :=
  fun _ _ => h

theorem bind {x : StateM σ β} {x' : StateM σ β'} {f : β → StateM σ γ} {f' : β' → StateM σ γ'}
    (hx : Agrees R x x') (hf : ∀ a a', R a a' → Agrees S (f a) (f' a')) :
    Agrees S (x >>= f) (x' >>= f') :=
  fun s s' => hf _ _ (hx s s') _ _

theorem bind_eq {x x' : StateM σ β} {f : β → StateM σ γ} {f' : β → StateM σ γ'}
    (hx : Agrees Eq x x') (hf : ∀ a, Agrees S (f a) (f' a)) : Agrees S (x >>= f) (x' >>= f') :=
  hx.bind fun a _ same => same ▸ hf a

theorem trivial (x : StateM σ β) (x' : StateM σ β') : Agrees (fun _ _ => True) x x' :=
  fun _ _ => True.intro

end Agrees

/-- The answers that a load asks for depend only on what is asked. The heights of texts are not
among them: they move texts, and decide nothing. -/
structure Host.Steady {σ α : Type} (h : Host σ α) : Prop where
  mapToLocal : ∀ url, Agrees Eq (h.delegate.mapToLocal url) (h.delegate.mapToLocal url)
  renderMarkdown : ∀ info lines,
    Agrees Eq (h.delegate.renderMarkdown info lines) (h.delegate.renderMarkdown info lines)
  probeImage : ∀ url, Agrees Eq (h.media.probeImage url) (h.media.probeImage url)
  openVideo : ∀ url stream, Agrees Eq (h.media.openVideo url stream) (h.media.openVideo url stream)

variable {σ α : Type} [Scalar α]

namespace Host.Steady

omit [Scalar α]

variable {h : Host σ α}

theorem localUrl (steady : h.Steady) (source : String) :
    Agrees Eq (h.localUrl source) (h.localUrl source) := by
  unfold Host.localUrl
  split
  · exact steady.mapToLocal _
  · exact .pure rfl

theorem loadImage (steady : h.Steady) (source : String) :
    Agrees Eq (h.loadImage source) (h.loadImage source) := by
  unfold Host.loadImage
  refine .bind_eq (steady.localUrl source) fun found => ?_
  cases found with
  | none => exact .pure rfl
  | some url =>
    refine .bind_eq (steady.probeImage url) fun probed => ?_
    cases probed with
    | ok info => exact .pure rfl
    | error _ => exact .pure rfl

theorem loadField (steady : h.Steady) (info : Record) (name : String) :
    Agrees Eq (h.loadField info name) (h.loadField info name) := by
  unfold Host.loadField
  split
  · exact steady.loadImage _
  · exact .pure rfl

theorem loadImages (steady : h.Steady) (sources : List String) :
    Agrees Eq (h.loadImages sources) (h.loadImages sources) := by
  induction sources with
  | nil => exact .pure rfl
  | cons source sources ih =>
    unfold Host.loadImages
    refine .bind_eq (steady.loadImage source) fun first => ?_
    refine .bind_eq ih fun others => ?_
    exact .pure rfl

end Host.Steady

/-- Two expansions of one shape whose descriptors are related, each to the one at its place. -/
inductive Expansion.Alike (A : Record → Record → Prop) : Expansion → Expansion → Prop
  | node {info info' : Record} {es es' : List Expansion} :
      A info info' → List.Forall₂ (Alike A) es es' → Alike A (.node info es) (.node info' es')

namespace Expansion.Alike

variable {A : Record → Record → Prop}

mutual

theorem refl (same : ∀ info, A info info) : ∀ e : Expansion, Alike A e e
  | .node info es => .node (same info) (refls same es)

theorem refls (same : ∀ info, A info info) :
    ∀ es : List Expansion, List.Forall₂ (Alike A) es es
  | [] => .nil
  | e :: es => .cons (refl same e) (refls same es)

end

end Expansion.Alike

def Box.unscaled (b : Box α) : Box α := { b with frame := Rect.zero }

def Body.unscaled (b : Body α) : Body α :=
  { b with
    scale := ScaleFactor.identity
    box := b.box.unscaled
    layers := b.layers.unscaled
    animations := b.animations.map Directive.unscaled }

namespace Build

variable {h : Host σ α} {info : Record}

theorem sprite?_agrees (steady : h.Steady) (bounds bounds' : Rect α) :
    Agrees (Option.Rel fun l l' => l.unscaled = l'.unscaled)
      (sprite? h info bounds) (sprite? h info bounds') := by
  unfold sprite?
  split
  · exact .pure .none
  · refine .bind_eq (steady.loadImage _) fun image => ?_
    cases image with
    | none => exact .pure .none
    | some image => exact .pure (.some rfl)

omit [Scalar α] in
theorem videoUrl_agrees (steady : h.Steady) (source : String) (stream : Bool) :
    Agrees Eq (videoUrl h source stream) (videoUrl h source stream) := by
  unfold videoUrl
  split
  · exact .pure rfl
  · exact steady.localUrl source

theorem video?_agrees (steady : h.Steady) (bounds bounds' : Rect α) (fill : Bool) :
    Agrees (Option.Rel fun v v' => v.1.unscaled = v'.1.unscaled ∧ v.2 = v'.2)
      (video? h info bounds fill) (video? h info bounds' fill) := by
  unfold video?
  split
  · exact .pure .none
  · next source stream _ =>
    refine .bind_eq (videoUrl_agrees steady source stream) fun found => ?_
    cases found with
    | none => exact .pure .none
    | some url =>
      refine .bind_eq (steady.openVideo url stream) fun opened => ?_
      cases opened with
      | ok _ => exact .pure (.some ⟨rfl, rfl⟩)
      | error _ => exact .pure .none

theorem shadow?_unscaled (k k' : ScaleFactor α) :
    (shadow? info k).map Shadow.unscaled = (shadow? info k').map Shadow.unscaled := by
  unfold shadow?
  cases info.record? "shadow" with
  | none => rfl
  | some _ => rfl

theorem shape_unscaled (path : Outline α) (bounds bounds' : Rect α) (k k' : ScaleFactor α) :
    (shape info path bounds k).unscaled = (shape info path bounds' k').unscaled := by
  simp only [shape, ShapeLayer.unscaled, Outline.unscaled_toDevice, shadow?_unscaled k k']

theorem primary_agrees (steady : h.Steady) (image : Option (ResourceUrl × ImageInfo))
    (path : Option (Outline α)) {box box' : Box α} (fill : box.fill = box'.fill)
    (k k' : ScaleFactor α) :
    Agrees (fun c c' => Option.Rel (fun p p' => p.unscaled = p'.unscaled) c.1 c'.1 ∧ c.2 = c'.2)
      (primary h info image path box k) (primary h info image path box' k') := by
  unfold primary
  rw [fill]
  cases image with
  | some image => exact .pure ⟨.some rfl, rfl⟩
  | none =>
    refine .bind (sprite?_agrees steady box.bounds box'.bounds) fun sprite sprite' same => ?_
    cases same with
    | some here => exact .pure ⟨.some (congrArg Primary.sprite here), rfl⟩
    | none =>
      cases path with
      | some path => exact .pure ⟨.some (congrArg Primary.shape (shape_unscaled ..)), rfl⟩
      | none =>
        refine .bind (video?_agrees steady box.bounds box'.bounds _) fun video video' same => ?_
        cases same with
        | some here => exact .pure ⟨.some (congrArg Primary.video here.1), congrArg some here.2⟩
        | none => exact .pure ⟨.none, rfl⟩

theorem tiling?_unscaled (info : Record) {content content' : Option (Primary α)}
    (same : Option.Rel (fun p p' => p.unscaled = p'.unscaled) content content')
    (bounds bounds' : Rect α) :
    (tiling? info content bounds).map TilingHost.unscaled =
      (tiling? info content' bounds').map TilingHost.unscaled := by
  unfold tiling?
  split
  · cases same with
    | none => rfl
    | @some p p' here => cases p <;> cases p' <;> first | rfl | cases here
  · rfl

theorem text?_agrees (bounds bounds' : Rect α) (screen : Size α) (k k' : ScaleFactor α) :
    Agrees (fun t t' => t.map TextLayer.unscaled = t'.map TextLayer.unscaled)
      (text? h info bounds screen k) (text? h info bounds' screen k') := by
  unfold text?
  split
  · exact .pure rfl
  · exact .bind (.trivial _ _) fun _ _ _ => .pure rfl

theorem richText?_agrees (steady : h.Steady) (bounds bounds' : Rect α) :
    Agrees (fun t t' => t.map RichTextLayer.unscaled = t'.map RichTextLayer.unscaled)
      (richText? h info bounds) (richText? h info bounds') := by
  unfold richText?
  split
  · exact .pure rfl
  · refine .bind_eq (steady.renderMarkdown info _) fun text => .pure ?_
    cases text with
    | none => rfl
    | some text => rfl

theorem baseStyle_unscaled (info : Record) {box box' : Box α} (logical : box.logical = box'.logical)
    (container : Size α) (k k' : ScaleFactor α) :
    (baseStyle info box container k).unscaled = (baseStyle info box' container k').unscaled := by
  have transform := Transform.unscaled_ofFields info k k' Record.empty
  have getD (t : Option (Transform α)) :
      (t.getD Transform.identity).unscaled = (t.map Transform.unscaled).getD Transform.identity :=
    (Option.getD_map Transform.unscaled Transform.identity t).symm
  simp only [baseStyle, LayerStyle.unscaled, shadow?_unscaled k k', logical, getD, transform]

theorem finishStyle_unscaled (info : Record) {style style' : LayerStyle α}
    (same : style.unscaled = style'.unscaled)
    {content content' : Option (Primary α)}
    (kind : Option.Rel (fun p p' => p.unscaled = p'.unscaled) content content')
    {tiling tiling' : Option (TilingHost α)} (repeats : tiling.isSome = tiling'.isSome) :
    (finishStyle style info content tiling).unscaled =
      (finishStyle style' info content' tiling').unscaled := by
  simp only [LayerStyle.unscaled, LayerStyle.mk.injEq] at same
  obtain ⟨background, -, borderColor, -, shadow, opacity, transform, anchor, -, masks⟩ := same
  have kept : Option.map Shadow.unscaled (finishStyle style info content tiling).shadow =
      Option.map Shadow.unscaled (finishStyle style' info content' tiling').shadow := by
    unfold finishStyle
    cases kind with
    | none => exact shadow
    | @some p p' here => cases p <;> cases p' <;> first | rfl | exact shadow | cases here
  simp only [finishStyle, LayerStyle.unscaled] at kept ⊢
  simp only [kept, background, borderColor, opacity, transform, anchor, masks, repeats]

theorem spriteClock?_unscaled (layers : Layers α) (repeatCount : Option α) :
    spriteClock? layers.unscaled repeatCount = spriteClock? layers repeatCount := by
  unfold spriteClock?
  rw [Layers.sprite?_unscaled]
  cases repeatCount with
  | none => rfl
  | some count => cases layers.sprite? <;> rfl

theorem layers_unscaled {box box' : Box α} (logical : box.logical = box'.logical)
    (container : Size α) (k k' : ScaleFactor α) {content content' : Option (Primary α)}
    (kind : Option.Rel (fun p p' => p.unscaled = p'.unscaled) content content')
    (mask : Option (ResourceUrl × ImageInfo)) {text text' : Option (TextLayer α)}
    (sameText : text.map TextLayer.unscaled = text'.map TextLayer.unscaled)
    {richText richText' : Option (RichTextLayer α)}
    (sameRich : richText.map RichTextLayer.unscaled = richText'.map RichTextLayer.unscaled) :
    (layers info container k box content mask text richText).unscaled =
      (layers info container k' box' content' mask text' richText').unscaled := by
  have tiling := tiling?_unscaled info kind box.bounds box'.bounds
  have repeats : (tiling? info content box.bounds).isSome =
      (tiling? info content' box'.bounds).isSome := by
    have both := congrArg Option.isSome tiling
    rwa [Option.isSome_map, Option.isSome_map] at both
  have base := baseStyle_unscaled info logical container k k'
  have style := finishStyle_unscaled info base kind repeats
  have primary : content.map Primary.unscaled = content'.map Primary.unscaled := by
    cases kind with
    | none => rfl
    | some here => exact congrArg some here
  have masks : (mask.map fun m => (⟨m.1, box.bounds⟩ : MaskLayer α)).map MaskLayer.unscaled =
      (mask.map fun m => ⟨m.1, box'.bounds⟩).map MaskLayer.unscaled := by
    cases mask with
    | none => rfl
    | some m => rfl
  simp only [layers, Layers.unscaled, style, primary, tiling, masks, sameText, sameRich]

variable [Analytic α]

theorem assemble_unscaled (paths : Outline.NamedPaths) (k k' : ScaleFactor α) (id : ElementId)
    {box box' : Box α} (sameBox : box.unscaled = box'.unscaled) {layers layers' : Layers α}
    (sameLayers : layers.unscaled = layers'.unscaled) (frames : List ResourceUrl)
    (surface : Option (VideoSurface α)) :
    (assemble paths k info id box layers frames surface).unscaled =
      (assemble paths k' info id box' layers' frames surface).unscaled := by
  have source : (AnimationSource.mk info layers k box.bounds).unscaled =
      (AnimationSource.mk info layers' k' box'.bounds).unscaled := by
    simp only [AnimationSource.unscaled, sameLayers]
  obtain ⟨directives, spriteRepeat⟩ := Animations.ofDescriptor_alike paths frames source
  have clock (count : Option α) : spriteClock? layers count = spriteClock? layers' count := by
    rw [← spriteClock?_unscaled, sameLayers, spriteClock?_unscaled]
  unfold Animations.Alike at directives
  simp only [assemble, Body.unscaled, sameBox, sameLayers, directives, spriteRepeat, clock]

theorem body_agrees (steady : h.Steady) (screen : Size α) (k k' : ScaleFactor α)
    (container : Size α) (id : ElementId) :
    Agrees (fun b b' => b.unscaled = b'.unscaled)
      (body h screen k info container id) (body h screen k' info container id) := by
  rw [body_eq, body_eq]
  refine .bind_eq (steady.loadField info "img") fun image => ?_
  refine .bind_eq (steady.loadField info "mask") fun mask => ?_
  have logical (natural : Option (Size α)) : (Layout.box info container natural k).logical =
      (Layout.box info container natural k').logical := rfl
  have boxes (natural : Option (Size α)) : (Layout.box info container natural k).unscaled =
      (Layout.box info container natural k').unscaled := rfl
  refine .bind (primary_agrees steady image _ (by rfl) k k') fun content content' built => ?_
  refine .bind (text?_agrees _ _ screen k k') fun text text' sameText => ?_
  refine .bind (richText?_agrees steady _ _) fun richText richText' sameRich => ?_
  refine .bind_eq (steady.loadImages _) fun frames => .pure ?_
  rw [built.2]
  exact assemble_unscaled _ k k' id (boxes _)
    (layers_unscaled (logical _) container k k' built.1 mask sameText sameRich) frames _

section

variable {screen : Size α} {k k' : ScaleFactor α} {A : Record → Record → Prop}
  {f : Body α → Body α}

mutual

/-- When descriptors that are alike are built to bodies that `f` does not tell apart, and `f` leaves
the content size, then expansions that are alike are built to trees that `f` does not tell apart. -/
theorem tree_agrees_of_bodies
    (sized : ∀ b b', f b = f b' → b.box.contentSize = b'.box.contentSize)
    (bodies : ∀ info info' container id, A info info' → Agrees (fun b b' => f b = f b')
      (body h screen k info container id) (body h screen k' info' container id)) :
    ∀ {e e' : Expansion}, e.Alike A e' → ∀ (container : Size α) (id : ElementId),
      Agrees (fun built built' => built.1.map f = built'.1.map f ∧ built.2 = built'.2)
        (tree h screen k e container id) (tree h screen k' e' container id)
  | .node info es, .node info' es', .node same below, container, id => by
    unfold tree
    refine .bind (bodies info info' container id same) fun root root' here => ?_
    rw [← sized root root' here]
    refine .bind (trees_agree_of_bodies sized bodies below _ (id + 1)) fun kids kids' there => ?_
    refine .pure ⟨?_, there.2⟩
    simp only [Element.map, here, there.1]

private theorem trees_agree_of_bodies
    (sized : ∀ b b', f b = f b' → b.box.contentSize = b'.box.contentSize)
    (bodies : ∀ info info' container id, A info info' → Agrees (fun b b' => f b = f b')
      (body h screen k info container id) (body h screen k' info' container id)) :
    ∀ {es es' : List Expansion}, List.Forall₂ (Expansion.Alike A) es es' →
      ∀ (container : Size α) (id : ElementId),
        Agrees (fun built built' =>
          Element.mapAll f built.1 = Element.mapAll f built'.1 ∧ built.2 = built'.2)
          (trees h screen k es container id) (trees h screen k' es' container id)
  | [], [], .nil, _, _ => .pure ⟨rfl, rfl⟩
  | e :: es, e' :: es', .cons same below, container, id => by
    unfold trees
    refine .bind (tree_agrees_of_bodies sized bodies same container id) fun first first' built => ?_
    obtain ⟨first, next⟩ := first
    obtain ⟨first', next'⟩ := first'
    obtain ⟨here, rfl⟩ : first.map f = first'.map f ∧ next = next' := built
    refine .bind (trees_agree_of_bodies sized bodies below container _) fun _ _ there => ?_
    refine .pure ⟨?_, there.2⟩
    simp only [Element.mapAll, here, there.1]

end

end

theorem tree_agrees (steady : h.Steady) (screen : Size α) (k k' : ScaleFactor α) (e : Expansion)
    (container : Size α) (id : ElementId) :
    Agrees (fun built built' =>
      built.1.map Body.unscaled = built'.1.map Body.unscaled ∧ built.2 = built'.2)
      (tree h screen k e container id) (tree h screen k' e container id) := by
  refine tree_agrees_of_bodies (fun b b' same => ?_) (fun info info' container id same => ?_)
    (Expansion.Alike.refl (fun _ => rfl) e) container id
  · have logical : b.unscaled.box.logical = b'.unscaled.box.logical := by rw [same]
    exact congrArg Rect.size logical
  · subst same
    exact body_agrees steady screen k k' container id

end Build

namespace Element

/-- The scale decides nothing. Whatever number type is computed with, two trees of one descriptor
are the same when their lengths in device pixels are put to zero: they have the same elements with
the same descriptors and actions, the same local boxes and anchors, layers of the same kinds and
addresses, and the same directives over the same number of keyframes. In exact numbers, each frame
is the local box with its coordinates multiplied by the scale. -/
theorem loadWithin_rescaled {σ : Type} :
    (∀ {α : Type} [Scalar α] [Analytic α] {h : Host σ α}, h.Steady →
      ∀ (depth : Nat) (desc : Record) (dimension : Size α) (k k' : ScaleFactor α)
        (first : ElementId) (s s' : σ),
        ((loadWithin depth h desc dimension k first).run s).1.map (map Body.unscaled) =
          ((loadWithin depth h desc dimension k' first).run s').1.map (map Body.unscaled)) ∧
    ∀ [Analytic Rat] {h : Host σ Rat} {depth : Nat} {desc : Record} {dimension : Size Rat}
      {k : ScaleFactor Rat} {first : ElementId} {s : σ} {root : Element Rat}, 0 < k.x → 0 < k.y →
      ((loadWithin depth h desc dimension k first).run s).1 = some root →
      ∀ b ∈ root.toList, b.box.frame = k.applyRect b.box.logical := by
  constructor
  · intro α _ _ h steady depth desc dimension k k' first s s'
    unfold loadWithin
    cases Expansion.within h.delegate.prototype depth desc with
    | none => rfl
    | some expansion =>
      exact congrArg some
        (Build.tree_agrees steady dimension k k' expansion dimension first s s').1
  · intro _ h depth desc dimension k first s root hx hy loaded b hb
    obtain ⟨container, _, here⟩ := (mirrors_of_loadWithin loaded).renders b hb
    obtain ⟨_, -, box⟩ := here.built
    rw [box]
    exact Layout.frame_box hx.le hy.le _ _ _

def exactScreening : Host Unit Rat where
  delegate := DelegateTable.empty.toDelegate
  media :=
    { probeImage := fun url => pure (.error (.missingResource url.text))
      openVideo := fun _ _ => pure (.ok ())
      measureText := fun _ _ _ => pure 0 }

theorem loadWithin_rescaled_film :
    (∃ root root' : Element Float,
      ((loadWithin 3 Host.screening doubleFilm ⟨640, 480⟩ ⟨1, 1⟩ 0).run ()).1 = some root ∧
      ((loadWithin 3 Host.screening doubleFilm ⟨640, 480⟩ ⟨2, 3⟩ 0).run ()).1 = some root' ∧
      root.size = 3 ∧ root.map Body.unscaled = root'.map Body.unscaled) ∧
    ∃ (_ : Analytic Rat) (root : Element Rat),
      ((loadWithin 3 exactScreening doubleFilm ⟨640, 480⟩ ⟨2, 3⟩ 0).run ()).1 = some root ∧
      root.size = 3 ∧
      ∀ b ∈ root.toList, b.box.frame = (ScaleFactor.mk 2 3).applyRect b.box.logical := by
  constructor
  · have steady : Host.screening.Steady :=
      ⟨fun _ _ _ => rfl, fun _ _ _ _ => rfl, fun _ _ _ => rfl, fun _ _ _ _ => rfl⟩
    have loads : (((loadWithin 3 Host.screening doubleFilm ⟨640, 480⟩ ⟨1, 1⟩ 0).run ()).1.any
        fun root => root.size == 3) = true := by
      decide +kernel
    obtain ⟨root, loaded, size⟩ := (Option.any_eq_true _ _).mp loads
    have same := loadWithin_rescaled.1 steady 3 doubleFilm ⟨640, 480⟩ ⟨1, 1⟩ ⟨2, 3⟩ 0 () ()
    rw [loaded] at same
    obtain ⟨root', loaded', alike⟩ := Option.map_eq_some_iff.mp same.symm
    exact ⟨root, root', loaded, loaded', by simpa using size, alike.symm⟩
  · let analytic : Analytic Rat := ⟨id, id, id, id, fun x _ => x, fun x _ => x⟩
    have loads : (((loadWithin 3 exactScreening doubleFilm ⟨640, 480⟩ ⟨2, 3⟩ 0).run ()).1.any
        fun root => root.size == 3) = true := by
      decide +kernel
    obtain ⟨root, loaded, size⟩ := (Option.any_eq_true _ _).mp loads
    exact ⟨analytic, root, loaded, by simpa using size,
      loadWithin_rescaled.2 (by decide) (by decide) loaded⟩

end Element

end LayerTree
