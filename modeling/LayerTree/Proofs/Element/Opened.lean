import LayerTree.Proofs.Element.Assembled
import LayerTree.Proofs.Element.Handed

/-!
What the primary content of an element is chosen from, and when a player is opened for it.

The host is made to note each player that it opens. A player is opened for an element only when
nothing that comes before a video could be built.
-/

set_option autoImplicit false
set_option relaxedAutoImplicit false

namespace LayerTree

open Hands

def Host.notingPlayers {σ α : Type} (h : Host σ α) : Host (σ × List ResourceUrl) α where
  delegate :=
    { toLookups := h.delegate.toLookups
      mapToLocal := fun url => beside (h.delegate.mapToLocal url)
      renderMarkdown := fun info lines => beside (h.delegate.renderMarkdown info lines) }
  media :=
    { probeImage := fun url => beside (h.media.probeImage url)
      openVideo := fun url stream s =>
        (((h.media.openVideo url stream).run s.1).1,
          (((h.media.openVideo url stream).run s.1).2, s.2 ++ [url]))
      measureText := fun text size width => beside (h.media.measureText text size width) }

namespace Hands

variable {σ β γ : Type} {x : StateM σ β} {y : StateM (σ × List ResourceUrl) β}
  {f : β → StateM σ γ} {g : β → StateM (σ × List ResourceUrl) γ}

abbrev Silent (x : StateM σ β) (y : StateM (σ × List ResourceUrl) β) : Prop :=
  Only x y fun _ => False

theorem Silent.bind {R : γ → List ResourceUrl → Prop} (hx : Silent x y)
    (hf : ∀ a, Hands (f a) (g a) R) : Hands (x >>= f) (y >>= g) R := by
  refine Hands.bind hx fun a first silent => ?_
  obtain rfl := List.eq_nil_iff_forall_not_mem.mpr silent
  exact hf a

end Hands

variable {σ α : Type} {h : Host σ α}

namespace Host

theorem silent_localUrl (source : String) :
    Silent (h.localUrl source) (h.notingPlayers.localUrl source) := by
  have same : h.notingPlayers.delegate.baseUrl = h.delegate.baseUrl := rfl
  unfold localUrl
  rw [same]
  cases ResourceUrl.resolve source h.delegate.baseUrl with
  | none => exact .pure none
  | some url => exact .beside _

theorem silent_loadImage (source : String) :
    Silent (h.loadImage source) (h.notingPlayers.loadImage source) := by
  unfold loadImage
  refine Only.bind (silent_localUrl source) fun found => ?_
  cases found with
  | none => exact .pure none
  | some url =>
    refine Only.bind (.beside _) fun probed => ?_
    cases probed with
    | ok info => exact .pure _
    | error _ => exact .pure none

theorem silent_loadField (info : Record) (name : String) :
    Silent (h.loadField info name) (h.notingPlayers.loadField info name) := by
  unfold loadField
  cases info.text? name with
  | none => exact .pure none
  | some source => exact silent_loadImage source

theorem silent_loadImages (sources : List String) :
    Silent (h.loadImages sources) (h.notingPlayers.loadImages sources) := by
  induction sources with
  | nil => exact .pure []
  | cons source sources ih =>
    unfold loadImages
    exact Only.bind (silent_loadImage source) fun _ => Only.bind ih fun _ => .pure _

end Host

namespace Build

variable [Scalar α] {info : Record}

theorem silent_sprite (bounds : Rect α) :
    Silent (sprite? h info bounds) (sprite? h.notingPlayers info bounds) := by
  unfold sprite?
  cases spriteFields? info with
  | none => exact .pure none
  | some fields =>
    refine Only.bind (Host.silent_loadImage _) fun image => ?_
    cases image with
    | none => exact .pure none
    | some image => exact .pure _

theorem silent_text (bounds : Rect α) (screen : Size α) (k : ScaleFactor α) :
    Silent (text? h info bounds screen k) (text? h.notingPlayers info bounds screen k) := by
  unfold text?
  cases info.text? "text" with
  | none => exact .pure none
  | some text => exact Only.bind (.beside _) fun _ => .pure _

omit [Scalar α] in
theorem silent_richText (bounds : Rect α) :
    Silent (richText? h info bounds) (richText? h.notingPlayers info bounds) := by
  unfold richText?
  cases info.texts? "markdown" with
  | none => exact .pure none
  | some lines => exact Only.bind (.beside _) fun _ => .pure _

theorem opens_video (bounds : Rect α) (fill : Bool) :
    Hands (video? h info bounds fill) (video? h.notingPlayers info bounds fill)
      fun _ _ => True := by
  unfold video?
  cases videoSource? info with
  | none => exact .pure trivial
  | some source =>
    have silent : Silent (videoUrl h source.1 source.2)
        (videoUrl h.notingPlayers source.1 source.2) := by
      unfold videoUrl
      split
      · exact .pure _
      · exact Host.silent_localUrl _
    refine silent.bind fun found => ?_
    cases found with
    | none => exact .pure trivial
    | some url =>
      have opened : Hands (h.media.openVideo url source.2)
          (h.notingPlayers.media.openVideo url source.2) fun _ _ => True :=
        fun s => ⟨[url], trivial, fun _ => rfl⟩
      refine opened.bind fun answer _ _ => ?_
      cases answer with
      | ok _ => exact .pure trivial
      | error _ => exact .pure trivial

def NoneBefore (content : Option (Primary α)) : Prop :=
  content = none ∨ ∃ layer, content = some (.video layer)

theorem opens_primary (image : Option (ResourceUrl × ImageInfo)) (path : Option (Outline α))
    (box : Box α) (k : ScaleFactor α) :
    Hands (primary h info image path box k) (primary h.notingPlayers info image path box k)
      fun content opened => opened ≠ [] → NoneBefore content.1 := by
  unfold primary
  cases image with
  | some image => exact .pure fun opened => absurd rfl opened
  | none =>
    refine (silent_sprite box.bounds).bind fun sprite => ?_
    cases sprite with
    | some sprite => exact .pure fun opened => absurd rfl opened
    | none =>
      cases path with
      | some path => exact .pure fun opened => absurd rfl opened
      | none =>
        refine (opens_video box.bounds box.fill).bind fun video opened _ => ?_
        cases video with
        | some video => exact .pure fun _ => .inr ⟨_, rfl⟩
        | none => exact .pure fun _ => .inl rfl

omit [Scalar α] in
private theorem run_bind {β γ : Type} (x : StateM σ β) (f : β → StateM σ γ) (s : σ) :
    (x >>= f).run s = (f (x.run s).1).run (x.run s).2 := rfl

def candidates (h : Host σ α) (info : Record) (image : Option (ResourceUrl × ImageInfo))
    (path : Option (Outline α)) (box : Box α) (k : ScaleFactor α) (s : σ) :
    List (Option (Primary α)) :=
  let sprite := (sprite? h info box.bounds).run s
  let video := (video? h info box.bounds box.fill).run sprite.2
  [image.map fun (url, img) => .image ⟨url, box.bounds, img.frameCount, .aspectFill⟩,
    sprite.1.map .sprite,
    path.map fun path => .shape (shape info path box.bounds k),
    video.1.map fun (layer, _) => .video layer]

theorem primary_eq (h : Host σ α) (info : Record) (image : Option (ResourceUrl × ImageInfo))
    (path : Option (Outline α)) (box : Box α) (k : ScaleFactor α) (s : σ) :
    ((primary h info image path box k).run s).1.1 =
      (candidates h info image path box k s).findSome? id := by
  unfold primary candidates
  cases image with
  | some image => rfl
  | none =>
    dsimp only
    rw [run_bind]
    generalize (sprite? h info box.bounds).run s = sprite
    obtain ⟨sprite, s'⟩ := sprite
    cases sprite with
    | some sprite => rfl
    | none =>
      cases path with
      | some path => rfl
      | none =>
        dsimp only
        rw [run_bind]
        generalize (video? h info box.bounds box.fill).run s' = video
        obtain ⟨video, s''⟩ := video
        cases video with
        | some video => rfl
        | none => rfl

variable [Analytic α]

theorem opens_body (h : Host σ α) (screen : Size α) (k : ScaleFactor α) (info : Record)
    (container : Size α) (id : ElementId) :
    Hands (body h screen k info container id) (body h.notingPlayers screen k info container id)
      fun b opened => opened ≠ [] → NoneBefore b.layers.primary := by
  rw [body_eq, body_eq]
  refine (Host.silent_loadField info "img").bind fun image => ?_
  refine (Host.silent_loadField info "mask").bind fun mask => ?_
  refine (opens_primary image _ _ k).bind fun content opened here => ?_
  refine (silent_text _ screen k).bind fun text => (silent_richText _).bind fun richText => ?_
  refine (Host.silent_loadImages _).bind fun frames => .pure ?_
  rw [List.append_nil]
  exact here

/-- What is noted of an element: its primary content is the first one that can be built, and a
player is opened only when no image, sprite or shape was built. -/
structure FirstBuilt (h : Host σ α) (screen : Size α) (k : ScaleFactor α)
    (opened : List ResourceUrl) (b : Body α) : Prop where
  built : ∃ container s,
    let image := (h.loadField b.info "img").run s
    let mask := (h.loadField b.info "mask").run image.2
    let path := Outline.ofShape? h.delegate.namedPath (b.info.get? "path")
    (body h.notingPlayers screen k b.info container b.id).run (s, []) =
        (b, ((body h screen k b.info container b.id).run s).2, opened) ∧
      b.layers.primary = (candidates h b.info image.1 path b.box k mask.2).findSome? id
  opened : opened ≠ [] → NoneBefore b.layers.primary

theorem body_firstBuilt (h : Host σ α) (screen : Size α) (k : ScaleFactor α) (info : Record)
    (container : Size α) (id : ElementId) :
    Hands (body h screen k info container id) (body h.notingPlayers screen k info container id)
      fun b opened => FirstBuilt h screen k opened b := by
  intro s
  obtain ⟨opened, before, run⟩ := opens_body h screen k info container id s
  obtain ⟨named, merged, -⟩ := body_returns h screen k info container id s
  refine ⟨opened, ⟨⟨container, s, ?_⟩, before⟩, run⟩
  rw [named, merged]
  exact ⟨run [], primary_eq h info _ _ _ k _⟩

end Build

namespace Element

variable [Scalar α] [Analytic α]

theorem opens_loadWithin {depth : Nat} {desc : Record} {dimension : Size α} {k : ScaleFactor α}
    {first : ElementId} {s : σ} {root : Element α}
    (loaded : ((loadWithin depth h desc dimension k first).run s).1 = some root) :
    ∃ sections : List (List ResourceUrl),
      (loadWithin depth h.notingPlayers desc dimension k first).run (s, []) =
        (some root, ((loadWithin depth h desc dimension k first).run s).2, sections.flatten) ∧
      List.Forall₂ (Build.FirstBuilt h dimension k) sections root.toList := by
  obtain ⟨expansion, found, rfl⟩ := exists_of_loadWithin loaded
  have same : h.notingPlayers.delegate.prototype = h.delegate.prototype := rfl
  obtain ⟨noted, ⟨sections, rfl, each⟩, run⟩ := Build.sections_tree
    (fun info container id => Build.body_firstBuilt h dimension k info container id)
    expansion dimension first s
  refine ⟨sections, ?_, each⟩
  unfold loadWithin
  rw [same, found]
  exact congrArg (fun done => (some done.1.1, done.2)) (run [])

end Element

end LayerTree
