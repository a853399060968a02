import LayerTree.Animation.OfDescriptor

/-!
What layers and animations are without their lengths in device pixels.

Putting these lengths to zero leaves the kinds of the layers, what they show, and which properties
are animated over how many keyframes and when. The animations of an element are computed from this
alone, as far as they are left themselves.
-/

set_option autoImplicit false
set_option relaxedAutoImplicit false

namespace LayerTree

variable {α : Type} [Scalar α]

/-! Each of the following is the same thing with its lengths in device pixels put to zero. -/

namespace Outline

/-- The drawing elements are left, without the places of their points. -/
def unscaled (o : Outline α) : Outline α := o.map (PathElement.mapPoints fun _ => Point.zero)

@[simp] theorem unscaled_transform (m : Affine α) (o : Outline α) :
    (transform m o).unscaled = o.unscaled := by
  unfold unscaled transform
  rw [List.map_map]
  refine List.map_congr_left fun e _ => ?_
  cases e <;> rfl

@[simp] theorem unscaled_toDevice (k : ScaleFactor α) (o : Outline α) :
    (toDevice k o).unscaled = o.unscaled :=
  unscaled_transform _ o

@[simp] theorem unscaled_unscaled (o : Outline α) : o.unscaled.unscaled = o.unscaled := by
  unfold unscaled
  rw [List.map_map]
  refine List.map_congr_left fun e _ => ?_
  cases e <;> rfl

end Outline

def Shadow.unscaled (s : Shadow α) : Shadow α := { s with offset := Vec.zero, radius := 0 }

namespace Transform

def unscaled (t : Transform α) : Transform α := { t with translate := Vec.zero }

theorem unscaled_ofFields (fields : Record) (k k' : ScaleFactor α) (base : Record) :
    (ofFields fields k base).map unscaled = (ofFields fields k' base).map unscaled := by
  simp only [ofFields]
  split
  · rfl
  · rfl

end Transform

def LayerStyle.unscaled (s : LayerStyle α) : LayerStyle α :=
  { s with
    borderWidth := 0
    cornerRadius := 0
    shadow := s.shadow.map Shadow.unscaled
    transform := s.transform.unscaled
    position := Point.zero }

def ImageLayer.unscaled (l : ImageLayer α) : ImageLayer α := { l with frame := Rect.zero }

def SpriteLayer.unscaled (l : SpriteLayer α) : SpriteLayer α := { l with frame := Rect.zero }

def ShapeLayer.unscaled (l : ShapeLayer α) : ShapeLayer α :=
  { l with
    path := l.path.unscaled
    frame := Rect.zero
    lineWidth := 0
    shadow := l.shadow.map Shadow.unscaled }

def VideoLayer.unscaled (l : VideoLayer α) : VideoLayer α := { l with frame := Rect.zero }

def Primary.unscaled : Primary α → Primary α
  | image l => image l.unscaled
  | sprite l => sprite l.unscaled
  | shape l => shape l.unscaled
  | video l => video l.unscaled

def TilingHost.unscaled (host : TilingHost α) : TilingHost α :=
  { tiles := host.tiles.map fun _ => Rect.zero, transform := host.transform.unscaled }

def MaskLayer.unscaled (l : MaskLayer α) : MaskLayer α := { l with frame := Rect.zero }

def TextLayer.unscaled (l : TextLayer α) : TextLayer α :=
  { l with frame := Rect.zero, fontSize := 0 }

def RichTextLayer.unscaled (l : RichTextLayer α) : RichTextLayer α :=
  { l with frame := Rect.zero }

namespace Layers

def unscaled (l : Layers α) : Layers α where
  style := l.style.unscaled
  primary := l.primary.map Primary.unscaled
  tiling := l.tiling.map TilingHost.unscaled
  mask := l.mask.map MaskLayer.unscaled
  text := l.text.map TextLayer.unscaled
  richText := l.richText.map RichTextLayer.unscaled

theorem image?_unscaled (l : Layers α) : l.unscaled.image? = l.image?.map ImageLayer.unscaled := by
  obtain ⟨style, primary, _⟩ := l
  cases primary with
  | none => rfl
  | some content => cases content <;> rfl

theorem sprite?_unscaled (l : Layers α) :
    l.unscaled.sprite? = l.sprite?.map SpriteLayer.unscaled := by
  obtain ⟨style, primary, _⟩ := l
  cases primary with
  | none => rfl
  | some content => cases content <;> rfl

theorem shape?_unscaled (l : Layers α) : l.unscaled.shape? = l.shape?.map ShapeLayer.unscaled := by
  obtain ⟨style, primary, _⟩ := l
  cases primary with
  | none => rfl
  | some content => cases content <;> rfl

end Layers

def AnimValue.unscaled : AnimValue α → AnimValue α
  | scalar _ => scalar 0
  | color c => color c
  | transform t => transform t.unscaled
  | path o => path o.unscaled
  | image f => image f
  | motion _ rotation => motion Point.zero rotation

def Keyframes.unscaled : Keyframes α → Keyframes α
  | values vs => values (vs.map AnimValue.unscaled)
  | motionPath path rotateAuto => motionPath path.unscaled rotateAuto

def Directive.unscaled (d : Directive α) : Directive α :=
  { d with keyframes := d.keyframes.unscaled }

def AnimationSource.unscaled (src : AnimationSource α) : AnimationSource α where
  info := src.info
  layers := src.layers.unscaled
  scale := ScaleFactor.identity
  bounds := Rect.zero

namespace Animations

/-- The directives are the same ones but for lengths in device pixels. -/
def Alike (ds es : List (Directive α)) : Prop :=
  ds.map Directive.unscaled = es.map Directive.unscaled

theorem push_unscaled (ds : List (Directive α)) (d : Directive α) :
    (push ds d).map Directive.unscaled = push (ds.map Directive.unscaled) d.unscaled := by
  unfold push
  rw [List.map_append, List.filter_map]
  rfl

theorem foldl_push_unscaled (ds acc : List (Directive α)) :
    (ds.foldl push acc).map Directive.unscaled =
      (ds.map Directive.unscaled).foldl push (acc.map Directive.unscaled) := by
  induction ds generalizing acc with
  | nil => rfl
  | cons d ds ih => rw [List.map_cons, List.foldl_cons, List.foldl_cons, ih, push_unscaled]

theorem Alike.append {ds es ds' es' : List (Directive α)} (first : Alike ds es)
    (second : Alike ds' es') : Alike (ds ++ ds') (es ++ es') := by
  unfold Alike at *
  rw [List.map_append, List.map_append, first, second]

theorem scalarChange_alike (target : LayerTarget) (property : AnimatedProperty) (start start' : α)
    {finish finish' : Option α} (both : finish.isSome = finish'.isSome) :
    Alike (scalarChange target property start finish)
      (scalarChange target property start' finish') := by
  cases finish <;> cases finish' <;> first | rfl | cases both

theorem imageSequence_alike (src : AnimationSource α) :
    Alike (imageSequence src) (imageSequence src.unscaled) := by
  unfold imageSequence AnimationSource.unscaled
  rw [Layers.image?_unscaled]
  cases src.layers.image? with
  | none => rfl
  | some image => rfl

private theorem transformChange_alike (src : AnimationSource α)
    {wanted wanted' : Option (Transform α)}
    (same : wanted.map Transform.unscaled = wanted'.map Transform.unscaled) :
    Alike
      ((wanted.map fun t => Directive.transition .root .transform
        (.transform src.layers.style.transform) (.transform t)).toList)
      ((wanted'.map fun t => Directive.transition .root .transform
        (.transform src.unscaled.layers.style.transform) (.transform t)).toList) := by
  cases wanted with
  | none =>
    cases wanted' with
    | none => rfl
    | some _ => cases same
  | some t =>
    cases wanted' with
    | none => cases same
    | some t' =>
      have same : t.unscaled = t'.unscaled := Option.some.inj same
      have start : (Transform.unscaled src.unscaled.layers.style.transform) =
          src.layers.style.transform.unscaled := rfl
      simp [Alike, Directive.transition, Directive.ofValues, Directive.unscaled,
        Keyframes.unscaled, AnimValue.unscaled, same, start]

theorem rootChanges_alike (wanted : Record) (src : AnimationSource α) :
    Alike (rootChanges wanted src) (rootChanges wanted src.unscaled) := by
  unfold rootChanges
  refine .append (.append (.append (.append (.append ?_ ?_) ?_) ?_) ?_) ?_
  · exact transformChange_alike src (Transform.unscaled_ofFields wanted src.scale _ src.info)
  · exact scalarChange_alike _ _ _ _ rfl
  · rfl
  · rfl
  · exact scalarChange_alike _ _ _ _ (by simp)
  · exact scalarChange_alike _ _ _ _ (by simp)

theorem textChanges_alike (wanted : Record) (src : AnimationSource α) :
    Alike (textChanges wanted src) (textChanges wanted src.unscaled) := by
  unfold textChanges AnimationSource.unscaled Layers.unscaled
  cases src.layers.text with
  | none => rfl
  | some text => rfl

theorem imageChanges_alike (frames : List ResourceUrl) (src : AnimationSource α) :
    Alike (imageChanges frames src) (imageChanges frames src.unscaled) := by
  unfold imageChanges AnimationSource.unscaled
  rw [Layers.image?_unscaled]
  cases src.layers.image? with
  | none => rfl
  | some image => cases frames <;> rfl

theorem shiftLoop_alike (spec : Record) (src : AnimationSource α) :
    Alike [shiftLoop spec src] [shiftLoop spec src.unscaled] := by
  have tiling : src.unscaled.layers.tiling = src.layers.tiling.map TilingHost.unscaled := rfl
  unfold shiftLoop
  rw [tiling]
  cases src.layers.tiling with
  | none => rfl
  | some host => rfl

variable [Analytic α]

theorem motionChanges_alike (paths : Outline.NamedPaths) (wanted : Record)
    (src : AnimationSource α) :
    Alike (motionChanges paths wanted src) (motionChanges paths wanted src.unscaled) := by
  unfold motionChanges
  cases (Outline.ofShape? paths (wanted.get? "pos") : Option (Outline α)) with
  | none => rfl
  | some path =>
    have tiling : src.unscaled.layers.tiling = src.layers.tiling.map TilingHost.unscaled := rfl
    rw [tiling]
    cases src.layers.tiling with
    | none => simp [Alike, Directive.unscaled, Directive.motion, Keyframes.unscaled]
    | some host => simp [Alike, Directive.unscaled, Directive.motion, Keyframes.unscaled]

theorem outlineChanges_alike (paths : Outline.NamedPaths) (wanted : Record) (shape : ShapeLayer α)
    (k k' : ScaleFactor α) :
    Alike (outlineChanges paths wanted shape k)
      (outlineChanges paths wanted shape.unscaled k') := by
  unfold outlineChanges
  cases wanted.list? "path" with
  | some items =>
    simp [Alike, Directive.unscaled, Directive.ofValues, Keyframes.unscaled, AnimValue.unscaled,
      ShapeLayer.unscaled, Function.comp_def]
  | none =>
    cases (Outline.ofShape? paths (wanted.get? "path") : Option (Outline α)) with
    | none => rfl
    | some o =>
      simp [Alike, Directive.unscaled, Directive.transition, Directive.ofValues,
        Keyframes.unscaled, AnimValue.unscaled, ShapeLayer.unscaled]

theorem shapeChanges_alike (paths : Outline.NamedPaths) (wanted : Record)
    (src : AnimationSource α) :
    Alike (shapeChanges paths wanted src) (shapeChanges paths wanted src.unscaled) := by
  have layer : src.unscaled.layers.shape? = src.layers.shape?.map ShapeLayer.unscaled :=
    Layers.shape?_unscaled src.layers
  unfold shapeChanges
  rw [layer]
  cases src.layers.shape? with
  | none => rfl
  | some shape =>
    refine .append (.append (.append (.append (.append ?_ ?_) ?_) ?_) ?_) ?_
    · exact outlineChanges_alike paths wanted shape _ _
    · rfl
    · rfl
    · exact scalarChange_alike _ _ _ _ (by simp)
    · exact scalarChange_alike _ _ _ _ rfl
    · exact scalarChange_alike _ _ _ _ rfl

theorem transitions_alike (paths : Outline.NamedPaths) (frames : List ResourceUrl)
    (wanted : Record) (src : AnimationSource α) :
    Alike (transitions paths frames wanted src) (transitions paths frames wanted src.unscaled) :=
  (rootChanges_alike wanted src).append (textChanges_alike wanted src)
    |>.append (imageChanges_alike frames src)
    |>.append (motionChanges_alike paths wanted src)
    |>.append (shapeChanges_alike paths wanted src)

theorem outlineLoop_alike (paths : Outline.NamedPaths) (spec : Record)
    (src : AnimationSource α) :
    Alike (outlineLoop paths spec src) (outlineLoop paths spec src.unscaled) := by
  have layer : src.unscaled.layers.shape? = src.layers.shape?.map ShapeLayer.unscaled :=
    Layers.shape?_unscaled src.layers
  unfold outlineLoop
  rw [layer]
  cases src.layers.shape? with
  | none => rfl
  | some shape =>
    cases (Outline.ofShapes paths (spec.get? "path") : List (Outline α)) with
    | nil => rfl
    | cons o os =>
      simp [Alike, Directive.unscaled, Directive.looping, Keyframes.unscaled, AnimValue.unscaled,
        ShapeLayer.unscaled, Function.comp_def]

theorem loops_alike (paths : Outline.NamedPaths) (spec : Record) (src : AnimationSource α) :
    Alike (loops paths spec src) (loops paths spec src.unscaled) := by
  unfold loops
  split
  · rfl
  · rfl
  · exact shiftLoop_alike spec src
  · rfl
  · exact outlineLoop_alike paths spec src
  · rfl

/-- Sources that are the same but for lengths in device pixels give animations that are. -/
theorem ofDescriptor_alike (paths : Outline.NamedPaths) (frames : List ResourceUrl)
    {src src' : AnimationSource α} (same : src.unscaled = src'.unscaled) :
    Alike (ofDescriptor paths frames src).directives (ofDescriptor paths frames src').directives ∧
      (ofDescriptor paths frames src).spriteRepeat =
        (ofDescriptor paths frames src').spriteRepeat := by
  have once (src : AnimationSource α) :
      Alike (ofDescriptor paths frames src).directives
        (ofDescriptor paths frames src.unscaled).directives := by
    have changes : Alike
        (((src.info.record? "to").map fun wanted => transitions paths frames wanted src).getD [])
        (((src.info.record? "to").map fun wanted =>
          transitions paths frames wanted src.unscaled).getD []) := by
      cases src.info.record? "to" with
      | none => rfl
      | some wanted => exact transitions_alike paths frames wanted src
    have repeated : Alike
        (((src.info.record? "loop").map fun spec => loops paths spec src).getD [])
        (((src.info.record? "loop").map fun spec => loops paths spec src.unscaled).getD []) := by
      cases src.info.record? "loop" with
      | none => rfl
      | some spec => exact loops_alike paths spec src
    have all := ((imageSequence_alike src).append changes).append repeated
    unfold Alike at *
    simp only [ofDescriptor]
    rw [foldl_push_unscaled, all, ← foldl_push_unscaled]
    rfl
  have info : src.unscaled.info = src'.unscaled.info := by rw [same]
  constructor
  · have left := once src
    have right := once src'
    rw [same] at left
    exact left.trans right.symm
  · change (src.unscaled.info.record? "loop").bind spriteRepeat? = _
    rw [info]
    rfl

end Animations

end LayerTree
