import LayerTree.Proofs.Element.Rescaled

/-!
Fields that name nothing.

A picture that is missing and an outline that does not resolve leave no trace in a built tree. What
is built of a descriptor depends on these fields only through the pictures and the outline that are
found under them, and on the other fields only by what is read there.
-/

set_option autoImplicit false
set_option relaxedAutoImplicit false

namespace LayerTree

namespace Record

def without (name : String) (r : Record) : Record :=
  ⟨r.fields.filter fun field => field.1 != name⟩

private theorem lookup_filter_ne (name other : String) (fields : List (String × Json.Value)) :
    lookup other (fields.filter fun field => field.1 != name) =
      if other = name then none else lookup other fields := by
  induction fields with
  | nil => simp [lookup]
  | cons field rest ih =>
    obtain ⟨key, value⟩ := field
    by_cases dropped : key = name
    · simp only [dropped, bne_self_eq_false, List.filter_cons_of_neg, Bool.false_eq_true,
        not_false_eq_true, ih, lookup, beq_iff_eq]
      split
      · rfl
      · next differs => rw [if_neg (Ne.symm differs)]
    · have kept : (key != name) = true := by simpa using dropped
      rw [List.filter_cons_of_pos (by exact kept)]
      simp only [lookup, ih, beq_iff_eq]
      split
      · next same => rw [if_neg (same ▸ dropped)]
      · rfl

theorem get?_without_self (name : String) (r : Record) : (r.without name).get? name = none := by
  simp only [get?, without, lookup_filter_ne, if_true]

theorem get?_without_of_ne {name other : String} (differs : other ≠ name) (r : Record) :
    (r.without name).get? other = r.get? other := by
  simp only [get?, without, lookup_filter_ne, if_neg differs]

end Record

variable {σ α : Type}

/-! What is missing. -/

namespace Host

/-- No picture is found under a source: it has no address or no copy, or the copy cannot be probed
or has no width, no height or no frame. -/
def Missing (h : Host σ α) (source : String) : Prop :=
  ∀ url, ResourceUrl.resolve source h.delegate.baseUrl = some url →
    Returns (fun found => ∀ copy ∈ found,
        Returns (fun probed => ∀ info, probed = .ok info →
          info.width = 0 ∨ info.height = 0 ∨ info.frameCount = 0) (h.media.probeImage copy))
      (h.delegate.mapToLocal url)

variable {h : Host σ α} {info : Record} {name : String}

theorem Missing.loadImage {source : String} (missing : h.Missing source) :
    Returns (· = none) (h.loadImage source) := by
  have copies : Returns (fun found => ∀ copy ∈ found,
      Returns (fun probed => ∀ info, probed = .ok info →
        info.width = 0 ∨ info.height = 0 ∨ info.frameCount = 0) (h.media.probeImage copy))
      (h.localUrl source) := by
    unfold localUrl
    split
    · next url resolved => exact missing url resolved
    · exact .pure nofun
  unfold Host.loadImage
  refine .bind copies fun found here => ?_
  split
  · exact .pure rfl
  · next copy =>
    refine .bind (here copy rfl) fun probed nothing => ?_
    split
    · next info =>
      have hidden : info.isVisible = false := by
        have empty := nothing info rfl
        grind [ImageInfo.isVisible]
      rw [hidden]
      exact .pure rfl
    · exact .pure rfl

/-- A field of a descriptor that names nothing: a picture that is missing, or an outline that does
not resolve. -/
inductive Broken [Scalar α] [Analytic α] (h : Host σ α) (info : Record) : String → Prop
  | picture {name : String} :
      name ∈ ["img", "mask"] → (∀ source, info.text? name = some source → h.Missing source) →
      Broken h info name
  | outline :
      Outline.ofShape? (α := α) h.delegate.namedPath (info.get? "path") = none →
      Broken h info "path"

theorem loadField_missing
    (missing : ∀ source, info.text? name = some source → h.Missing source) :
    Returns (· = none) (h.loadField info name) := by
  unfold loadField
  split
  · next source named => exact (missing source named).loadImage
  · exact .pure rfl

theorem loadField_without_self : h.loadField (info.without name) name = pure none := by
  simp only [loadField, Record.text?, Record.get?_without_self, Option.bind_none]

theorem loadField_without_of_ne {other : String} (differs : other ≠ name) :
    h.loadField (info.without name) other = h.loadField info other := by
  simp only [loadField, Record.text?, Record.get?_without_of_ne differs]

end Host

def Body.withoutInfo (b : Body α) : Body α := { b with info := Record.empty }

variable [Scalar α]

namespace Build

variable {h : Host σ α} {info info' : Record}

/-- The fields that are read for what is found under them only. -/
def featureFields : List String := ["img", "mask", "path"]

section

/-! What reads the other fields. -/

variable (others : ∀ name ∉ featureFields, info'.get? name = info.get? name)

include others

theorem box_of_others (container : Size α) (natural : Option (Size α)) (k : ScaleFactor α) :
    Layout.box info' container natural k = Layout.box info container natural k := by
  simp (disch := decide) only [Layout.box, others]

theorem primary_of_others (image : Option (ResourceUrl × ImageInfo)) (path : Option (Outline α))
    (box : Box α) (k : ScaleFactor α) :
    primary h info' image path box k = primary h info image path box k := by
  simp (disch := decide) only [primary, sprite?, shape, video?, spriteFields?, videoSource?, slot,
    shadow?, openedVideo, Record.text?, Record.list?, Record.flag, Record.bool?, Record.numberD,
    Record.number?, Record.numbers?, Record.record?, others]

theorem text?_of_others (bounds : Rect α) (screen : Size α) (k : ScaleFactor α) :
    text? h info' bounds screen k = text? h info bounds screen k := by
  simp (disch := decide) only [text?, fontSize, textAlign, Record.text?, others]

theorem ofFields_of_others (k : ScaleFactor α) (base : Record) :
    Transform.ofFields info' k base = Transform.ofFields info k base := by
  simp (disch := decide) only [Transform.ofFields, Record.contains, List.any_cons, List.any_nil,
    others]
  rfl

theorem ofFields_base_of_others (wanted : Record) (k : ScaleFactor α) :
    Transform.ofFields wanted k info' = Transform.ofFields wanted k info := by
  simp (disch := decide) only [Transform.ofFields, others]

theorem layers_of_others (container : Size α) (k : ScaleFactor α) (box : Box α)
    (content : Option (Primary α)) (mask : Option (ResourceUrl × ImageInfo))
    (text : Option (TextLayer α)) (richText : Option (RichTextLayer α)) :
    layers info' container k box content mask text richText =
      layers info container k box content mask text richText := by
  simp (disch := decide) only [layers, tiling?, finishStyle, baseStyle, spriteFields?, anchor,
    position, percentPair?, shadow?, Record.text?, Record.list?, Record.flag, Record.bool?,
    Record.numberD, Record.number?, Record.record?, ofFields_of_others others, others]
  rfl

omit [Scalar α] in
theorem richText?_of_others {h : Host σ α}
    (blind : ∀ info info' lines, h.delegate.renderMarkdown info' lines =
      h.delegate.renderMarkdown info lines) (bounds : Rect α) :
    richText? h info' bounds = richText? h info bounds := by
  simp (disch := decide) only [richText?, Record.texts?, blind info info', others]

theorem imageSources_of_others :
    Animations.imageSources info' = Animations.imageSources info := by
  simp (disch := decide) only [Animations.imageSources, Record.record?, others]

variable [Analytic α]

theorem ofDescriptor_of_others (paths : Outline.NamedPaths) (frames : List ResourceUrl)
    (layers : Layers α) (k : ScaleFactor α) (bounds : Rect α) :
    Animations.ofDescriptor paths frames ⟨info', layers, k, bounds⟩ =
      Animations.ofDescriptor paths frames ⟨info, layers, k, bounds⟩ := by
  have root (wanted : Record) : Animations.rootChanges wanted ⟨info', layers, k, bounds⟩ =
      Animations.rootChanges wanted ⟨info, layers, k, bounds⟩ := by
    simp only [Animations.rootChanges, ofFields_base_of_others others]
  have changes (wanted : Record) :
      Animations.transitions paths frames wanted ⟨info', layers, k, bounds⟩ =
        Animations.transitions paths frames wanted ⟨info, layers, k, bounds⟩ := by
    unfold Animations.transitions
    rw [root]
    rfl
  have cycles (spec : Record) : Animations.loops paths spec ⟨info', layers, k, bounds⟩ =
      Animations.loops paths spec ⟨info, layers, k, bounds⟩ := rfl
  have sequence : Animations.imageSequence ⟨info', layers, k, bounds⟩ =
      Animations.imageSequence ⟨info, layers, k, bounds⟩ := rfl
  simp (disch := decide) only [Animations.ofDescriptor, Record.record?, changes, cycles, sequence,
    others]

theorem assemble_of_others (paths : Outline.NamedPaths) (k : ScaleFactor α) (id : ElementId)
    (box : Box α) (layers : Layers α) (frames : List ResourceUrl)
    (surface : Option (VideoSurface α)) :
    (assemble paths k info' id box layers frames surface).withoutInfo =
      (assemble paths k info id box layers frames surface).withoutInfo := by
  simp (disch := decide) only [assemble, Body.withoutInfo, ofDescriptor_of_others others,
    Record.text?, others]

end

end Build

/-- The answers of the services depend only on what is asked. -/
structure MediaBackend.Steady {σ α : Type} (m : MediaBackend σ α) : Prop where
  probeImage : ∀ url, Agrees Eq (m.probeImage url) (m.probeImage url)
  openVideo : ∀ url stream, Agrees Eq (m.openVideo url stream) (m.openVideo url stream)
  measureText : ∀ text size width,
    Agrees Eq (m.measureText text size width) (m.measureText text size width)

omit [Scalar α] in
theorem DelegateTable.steady (table : DelegateTable) {media : MediaBackend σ α}
    (steady : media.Steady) : (Host.mk table.toDelegate media).Steady where
  mapToLocal _ := .pure rfl
  renderMarkdown _ _ := .pure rfl
  probeImage := steady.probeImage
  openVideo := steady.openVideo

namespace Build

variable {h : Host σ α} {info info' : Record}

theorem sprite?_steady (steady : h.Steady) (bounds : Rect α) :
    Agrees Eq (sprite? h info bounds) (sprite? h info bounds) := by
  unfold sprite?
  split
  · exact .pure rfl
  · refine .bind_eq (steady.loadImage _) fun image => ?_
    cases image with
    | none => exact .pure rfl
    | some image => exact .pure rfl

theorem video?_steady (steady : h.Steady) (bounds : Rect α) (fill : Bool) :
    Agrees Eq (video? h info bounds fill) (video? h info bounds fill) := by
  unfold video?
  split
  · exact .pure rfl
  · next source stream _ =>
    refine .bind_eq (videoUrl_agrees steady source stream) fun found => ?_
    cases found with
    | none => exact .pure rfl
    | some url =>
      refine .bind_eq (steady.openVideo url stream) fun opened => ?_
      cases opened with
      | ok _ => exact .pure rfl
      | error _ => exact .pure rfl

theorem primary_steady (steady : h.Steady) (image : Option (ResourceUrl × ImageInfo))
    (path : Option (Outline α)) (box : Box α) (k : ScaleFactor α) :
    Agrees Eq (primary h info image path box k) (primary h info image path box k) := by
  unfold primary
  split
  · exact .pure rfl
  · refine .bind_eq (sprite?_steady steady box.bounds) fun sprite => ?_
    split
    · exact .pure rfl
    · split
      · exact .pure rfl
      · refine .bind_eq (video?_steady steady box.bounds box.fill) fun video => ?_
        cases video with
        | none => exact .pure rfl
        | some video => exact .pure rfl

theorem text?_steady (steady : h.media.Steady) (bounds : Rect α) (screen : Size α)
    (k : ScaleFactor α) :
    Agrees Eq (text? h info bounds screen k) (text? h info bounds screen k) := by
  unfold text?
  split
  · exact .pure rfl
  · exact .bind_eq (steady.measureText _ _ _) fun _ => .pure rfl

omit [Scalar α] in
theorem richText?_steady (steady : h.Steady) (bounds : Rect α) :
    Agrees Eq (richText? h info bounds) (richText? h info bounds) := by
  unfold richText?
  split
  · exact .pure rfl
  · exact .bind_eq (steady.renderMarkdown info _) fun _ => .pure rfl

variable [Analytic α]

/-- Two descriptors that make no difference to a body: under the fields of pictures and outlines the
same is found, and the other fields are the same. -/
structure SameFeatures (h : Host σ α) (info info' : Record) : Prop where
  image : Agrees Eq (h.loadField info "img") (h.loadField info' "img")
  mask : Agrees Eq (h.loadField info "mask") (h.loadField info' "mask")
  outline : Outline.ofShape? (α := α) h.delegate.namedPath (info'.get? "path") =
    Outline.ofShape? h.delegate.namedPath (info.get? "path")
  others : ∀ name ∉ featureFields, info'.get? name = info.get? name

theorem SameFeatures.refl (steady : h.Steady) (info : Record) : SameFeatures h info info :=
  ⟨steady.loadField info "img", steady.loadField info "mask", rfl, fun _ _ => rfl⟩

theorem sameFeatures_without (steady : h.Steady) {name : String} (broken : h.Broken info name) :
    SameFeatures h info (info.without name) := by
  have others (feature : name ∈ featureFields) (other : String) (reads : other ∉ featureFields) :
      (info.without name).get? other = info.get? other :=
    Record.get?_without_of_ne (ne_of_mem_of_not_mem feature reads).symm info
  have kept (other : String) (differs : other ≠ name) :
      Agrees Eq (h.loadField info other) (h.loadField (info.without name) other) := by
    rw [Host.loadField_without_of_ne differs]
    exact steady.loadField info other
  cases broken with
  | picture which missing =>
    have dropped : Agrees Eq (h.loadField info name) (h.loadField (info.without name) name) := by
      rw [Host.loadField_without_self]
      exact fun s _ => Host.loadField_missing missing s
    have path : "path" ≠ name := by
      rintro rfl
      exact absurd which (by decide)
    have outline : (info.without name).get? "path" = info.get? "path" :=
      Record.get?_without_of_ne path info
    have feature : name ∈ featureFields := List.mem_append_left ["path"] which
    simp only [List.mem_cons, List.not_mem_nil, or_false] at which
    rcases which with rfl | rfl
    · exact ⟨dropped, kept "mask" (by decide), by rw [outline], others feature⟩
    · exact ⟨kept "img" (by decide), dropped, by rw [outline], others feature⟩
  | outline unresolved =>
    refine ⟨kept "img" (by decide), kept "mask" (by decide), ?_, others (by decide)⟩
    rw [Record.get?_without_self, unresolved]
    rfl

theorem body_agrees_of_sameFeatures (steady : h.Steady) (measures : h.media.Steady)
    (blind : ∀ info info' lines, h.delegate.renderMarkdown info' lines =
      h.delegate.renderMarkdown info lines)
    (screen : Size α) (k : ScaleFactor α) (same : SameFeatures h info info') (container : Size α)
    (id : ElementId) :
    Agrees (fun b b' => b.withoutInfo = b'.withoutInfo)
      (body h screen k info container id) (body h screen k info' container id) := by
  have others := same.others
  rw [body_eq, body_eq]
  refine .bind_eq same.image fun image => ?_
  refine .bind_eq same.mask fun mask => ?_
  simp only [natural, same.outline, box_of_others others, primary_of_others others,
    text?_of_others others, richText?_of_others others blind, imageSources_of_others others,
    layers_of_others others]
  refine .bind_eq (primary_steady steady image _ _ k) fun content => ?_
  refine .bind_eq (text?_steady measures _ screen k) fun text => ?_
  refine .bind_eq (richText?_steady steady _) fun richText => ?_
  refine .bind_eq (steady.loadImages _) fun frames => .pure ?_
  exact (assemble_of_others others ..).symm

theorem tree_agrees_of_sameFeatures (steady : h.Steady) (measures : h.media.Steady)
    (blind : ∀ info info' lines, h.delegate.renderMarkdown info' lines =
      h.delegate.renderMarkdown info lines)
    (screen : Size α) (k : ScaleFactor α) {e e' : Expansion} (alike : e.Alike (SameFeatures h) e')
    (container : Size α) (id : ElementId) :
    Agrees (fun built built' =>
      built.1.map Body.withoutInfo = built'.1.map Body.withoutInfo ∧ built.2 = built'.2)
      (tree h screen k e container id) (tree h screen k e' container id) := by
  refine tree_agrees_of_bodies (fun b b' same => ?_) (fun info info' container id same => ?_)
    alike container id
  · have box : b.withoutInfo.box = b'.withoutInfo.box := by rw [same]
    exact congrArg Box.contentSize box
  · exact body_agrees_of_sameFeatures steady measures blind screen k same container id

end Build

namespace Expansion

def at? : List Nat → Expansion → Option Expansion
  | [], e => some e
  | i :: place, e => e.children[i]?.bind (at? place)

def without (name : String) : List Nat → Expansion → Expansion
  | [], e => node (e.info.without name) e.children
  | i :: place, e => node e.info (e.children.modify i (without name place))

private theorem alike_modify {A : Record → Record → Prop} (same : ∀ info, A info info)
    {f : Expansion → Expansion} {es : List Expansion} {i : Nat} {child : Expansion}
    (here : es[i]? = some child) (alike : Alike A child (f child)) :
    List.Forall₂ (Alike A) es (es.modify i f) := by
  induction es generalizing i with
  | nil => simp at here
  | cons e es ih =>
    cases i with
    | zero =>
      obtain rfl : e = child := by simpa using here
      exact .cons alike (Alike.refls same es)
    | succ i => exact .cons (Alike.refl same e) (ih here)

theorem alike_without {A : Record → Record → Prop} (same : ∀ info, A info info) {name : String}
    {place : List Nat} {e sub : Expansion} (there : e.at? place = some sub)
    (alike : A sub.info (sub.info.without name)) : Alike A e (e.without name place) := by
  induction place generalizing e with
  | nil =>
    obtain rfl := Option.some.inj there
    cases e with
    | node info es => exact .node alike (Alike.refls same es)
  | cons i place ih =>
    cases e with
    | node info es =>
      obtain ⟨child, here, below⟩ := Option.bind_eq_some_iff.mp there
      exact .node (same info) (alike_modify same here (ih below))

end Expansion

namespace Element

variable [Analytic α]

/-- A broken field is as good as none, wherever it is. When the answers of the services depend only
on what is asked, the tree that is loaded for a descriptor is the tree that is built when such a
field is removed from a merged descriptor, but for the descriptors that its elements keep. -/
theorem loadWithin_without_broken (table : DelegateTable) {media : MediaBackend σ α}
    (steady : media.Steady) {depth : Nat} {desc : Record} {e sub : Expansion} {place : List Nat}
    {name : String} (expands : Expansion.within table.lookups.prototype depth desc = some e)
    (there : e.at? place = some sub)
    (broken : (Host.mk table.toDelegate media).Broken sub.info name) (dimension : Size α)
    (k : ScaleFactor α) (first : ElementId) (s s' : σ) :
    let h := Host.mk table.toDelegate media
    ((loadWithin depth h desc dimension k first).run s).1.map (map Body.withoutInfo) =
      some (((Build.tree h dimension k (e.without name place) dimension first).run s').1.1.map
        Body.withoutInfo) := by
  intro h
  have steadyHost : h.Steady := table.steady steady
  have alike := Expansion.alike_without (Build.SameFeatures.refl steadyHost) there
    (Build.sameFeatures_without steadyHost broken)
  unfold loadWithin
  rw [show Expansion.within h.delegate.prototype depth desc = some e from expands]
  exact congrArg some (Build.tree_agrees_of_sameFeatures steadyHost steady (fun _ _ _ => rfl)
    dimension k alike dimension first s s').1

def coveredFilm : Record := ⟨[("img", .text "cover.png"), ("video", .text "a.mp4")]⟩

def coveredPage : Record := ⟨[("elements", .list [coveredFilm.toValue])]⟩

theorem loadWithin_without_broken_film :
    let e := Expansion.node coveredPage [.node coveredFilm []]
    Expansion.within (fun _ => none) 2 coveredPage = some e ∧ ∃ root,
      ((loadWithin 2 Host.screening coveredPage ⟨640, 480⟩ ⟨1, 1⟩ 0).run ()).1 = some root ∧
      (root.at? [0]).any (fun film => film.body.video.isSome) = true ∧
      root.map Body.withoutInfo =
        ((Build.tree Host.screening ⟨640, 480⟩ ⟨1, 1⟩ (e.without "img" [0]) ⟨640, 480⟩ 0).run
          ()).1.1.map Body.withoutInfo := by
  intro e
  have steady : Host.screening.media.Steady :=
    ⟨fun _ _ _ => rfl, fun _ _ _ _ => rfl, fun _ _ _ _ _ => rfl⟩
  have expands :
      Expansion.within DelegateTable.empty.lookups.prototype 2 coveredPage = some e := rfl
  have there : e.at? [0] = some (.node coveredFilm []) := rfl
  have missing (source : String) : Host.screening.Missing source := by
    intro url _ s copy _ s' info probed
    cases probed
  have broken : Host.screening.Broken coveredFilm "img" :=
    .picture (by decide) fun source _ => missing source
  have loads : (((loadWithin 2 Host.screening coveredPage ⟨640, 480⟩ ⟨1, 1⟩ 0).run ()).1.any
      fun root => (root.at? [0]).any fun film => film.body.video.isSome) = true := by
    decide +kernel
  obtain ⟨root, loaded, shows⟩ := (Option.any_eq_true _ _).mp loads
  have same := loadWithin_without_broken DelegateTable.empty steady expands there broken
    ⟨640, 480⟩ ⟨1, 1⟩ 0 () ()
  exact ⟨rfl, root, loaded, shows, Option.some.inj ((congrArg _ loaded).symm.trans same)⟩

end Element

end LayerTree
