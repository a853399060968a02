import LayerTree.Proofs.Element.Loaded
import LayerTree.Proofs.Resources.Collected

/-!
What a load asks the host to have a copy of.

The host is made to note each address that it is asked for. What is noted falls into one section for
each element of the tree, and for an element that is not streamed everything in its section is
collected.
-/

set_option autoImplicit false
set_option relaxedAutoImplicit false

namespace LayerTree

def beside {σ ν β : Type} (x : StateM σ β) : StateM (σ × ν) β := fun s =>
  ((x.run s.1).1, ((x.run s.1).2, s.2))

/-- The same host, which notes the addresses that it is asked for a local copy of. -/
def Host.noting {σ α : Type} (h : Host σ α) : Host (σ × List ResourceUrl) α where
  delegate :=
    { toLookups := h.delegate.toLookups
      mapToLocal := fun url s =>
        (((h.delegate.mapToLocal url).run s.1).1,
          (((h.delegate.mapToLocal url).run s.1).2, s.2 ++ [url]))
      renderMarkdown := fun info lines => beside (h.delegate.renderMarkdown info lines) }
  media :=
    { probeImage := fun url => beside (h.media.probeImage url)
      openVideo := fun url stream => beside (h.media.openVideo url stream)
      measureText := fun text size width => beside (h.media.measureText text size width) }

/-- The second computation does what the first one does, and notes addresses; what it notes has a
property, and does not depend on the notes so far. -/
def Hands {σ β : Type} (x : StateM σ β) (y : StateM (σ × List ResourceUrl) β)
    (P : β → List ResourceUrl → Prop) : Prop :=
  ∀ s, ∃ handed, P (x.run s).1 handed ∧
    ∀ notes, y.run (s, notes) = ((x.run s).1, ((x.run s).2, notes ++ handed))

namespace Hands

variable {σ β γ : Type} {x : StateM σ β} {y : StateM (σ × List ResourceUrl) β}
  {f : β → StateM σ γ} {g : β → StateM (σ × List ResourceUrl) γ}

theorem pure {P : β → List ResourceUrl → Prop} {a : β} (h : P a []) :
    Hands (Pure.pure a : StateM σ β) (Pure.pure a) P := by
  refine fun s => ⟨[], h, fun notes => ?_⟩
  rw [List.append_nil]
  rfl

theorem bind {P : β → List ResourceUrl → Prop} {R : γ → List ResourceUrl → Prop}
    (hx : Hands x y P)
    (hf : ∀ a first, P a first → Hands (f a) (g a) fun b others => R b (first ++ others)) :
    Hands (x >>= f) (y >>= g) R := by
  intro s
  obtain ⟨first, hfirst, run⟩ := hx s
  obtain ⟨others, hothers, run'⟩ := hf (x.run s).1 first hfirst (x.run s).2
  refine ⟨first ++ others, hothers, fun notes => ?_⟩
  have step : (y >>= g).run (s, notes) =
      (g (y.run (s, notes)).1).run (y.run (s, notes)).2 := rfl
  rw [step, run, run', List.append_assoc]
  rfl

theorem and {P : β → List ResourceUrl → Prop} {Q : β → Prop} (hx : Hands x y P)
    (also : Returns Q x) : Hands x y fun a handed => Q a ∧ P a handed := by
  intro s
  obtain ⟨handed, here, run⟩ := hx s
  exact ⟨handed, ⟨also s, here⟩, run⟩

def Only (x : StateM σ β) (y : StateM (σ × List ResourceUrl) β) (Q : ResourceUrl → Prop) : Prop :=
  Hands x y fun _ handed => ∀ url ∈ handed, Q url

namespace Only

variable {Q : ResourceUrl → Prop}

theorem pure (a : β) : Only (Pure.pure a : StateM σ β) (Pure.pure a) Q := Hands.pure (by simp)

theorem beside (x : StateM σ β) : Only x (LayerTree.beside x) Q := by
  refine fun s => ⟨[], by simp, fun notes => ?_⟩
  rw [List.append_nil]
  rfl

theorem bind (hx : Only x y Q) (hf : ∀ a, Only (f a) (g a) Q) :
    Only (x >>= f) (y >>= g) Q := by
  refine Hands.bind hx fun a first here s => ?_
  obtain ⟨others, there, run⟩ := hf a s
  exact ⟨others, List.forall_mem_append.mpr ⟨here, there⟩, run⟩

end Only

end Hands

namespace Host

open Hands

variable {σ α : Type} {Q : ResourceUrl → Prop} (h : Host σ α)

def Names (Q : ResourceUrl → Prop) (source : String) : Prop :=
  ∀ url, ResourceUrl.resolve source h.delegate.baseUrl = some url → Q url

variable {h}

theorem hands_localUrl {source : String} (names : h.Names Q source) :
    Only (h.localUrl source) (h.noting.localUrl source) Q := by
  have same : h.noting.delegate.baseUrl = h.delegate.baseUrl := rfl
  unfold localUrl
  rw [same]
  cases resolved : ResourceUrl.resolve source h.delegate.baseUrl with
  | none => exact .pure none
  | some url =>
    have named : Q url := names url resolved
    exact fun s => ⟨[url], by simpa using named, fun notes => rfl⟩

theorem hands_loadImage {source : String} (names : h.Names Q source) :
    Only (h.loadImage source) (h.noting.loadImage source) Q := by
  unfold loadImage
  refine .bind (hands_localUrl names) fun found => ?_
  cases found with
  | none => exact .pure none
  | some url =>
    refine .bind (.beside _) fun probed => ?_
    cases probed with
    | ok info => exact .pure _
    | error _ => exact .pure none

theorem hands_loadField {info : Record} {name : String}
    (names : ∀ source, info.text? name = some source → h.Names Q source) :
    Only (h.loadField info name) (h.noting.loadField info name) Q := by
  unfold loadField
  cases text : info.text? name with
  | none => exact .pure none
  | some source => exact hands_loadImage (names source text)

theorem hands_loadImages : ∀ {sources : List String}, (∀ source ∈ sources, h.Names Q source) →
    Only (h.loadImages sources) (h.noting.loadImages sources) Q
  | [], _ => .pure []
  | source :: sources, names => by
    obtain ⟨first, others⟩ := List.forall_mem_cons.mp names
    exact .bind (hands_loadImage first) fun _ => .bind (hands_loadImages others) fun _ => .pure _

end Host

namespace Build

open Hands

variable {σ α : Type} [Scalar α] {Q : ResourceUrl → Prop} {h : Host σ α} {info : Record}

theorem hands_sprite (names : ∀ source, info.text? "sprite" = some source → h.Names Q source)
    (bounds : Rect α) : Only (sprite? h info bounds) (sprite? h.noting info bounds) Q := by
  unfold sprite?
  cases fields : spriteFields? info with
  | none => exact .pure none
  | some given =>
    obtain ⟨source, slice⟩ := given
    have text : info.text? "sprite" = some source := by
      unfold spriteFields? at fields
      cases text : info.text? "sprite" <;> cases slices : info.list? "slice" <;>
        simp_all
    refine .bind (Host.hands_loadImage (names source text)) fun found => ?_
    cases found with
    | none => exact .pure none
    | some image => exact .pure _

theorem hands_video (names : info.flag "stream" = false →
      ∀ source, info.text? "video" = some source → h.Names Q source)
    (bounds : Rect α) (fill : Bool) :
    Only (video? h info bounds fill) (video? h.noting info bounds fill) Q := by
  unfold video?
  cases given : videoSource? info with
  | none => exact .pure none
  | some source =>
    obtain ⟨source, stream⟩ := source
    have asked : Only (videoUrl h source stream) (videoUrl h.noting source stream) Q := by
      cases stream with
      | true => exact .pure _
      | false =>
        -- a radio is always streamed
        have video : info.text? "video" = some source ∧ info.flag "stream" = false := by
          unfold videoSource? at given
          split at given <;> simp_all
        exact Host.hands_localUrl (names video.2 source video.1)
    refine .bind asked fun found => ?_
    cases found with
    | none => exact .pure none
    | some url =>
      refine .bind (.beside _) fun opened => ?_
      cases opened with
      | ok _ => exact .pure _
      | error _ => exact .pure none

/-- A source that is collected for its merged descriptor, unless that is streamed. -/
def Wanted (h : Host σ α) (info : Record) (url : ResourceUrl) : Prop :=
  info.flag "stream" = false →
    ∃ source ∈ Resources.sources info, ResourceUrl.resolve source h.delegate.baseUrl = some url

omit [Scalar α] in
theorem wanted_of_text {name : String} (listed : name ∈ Resources.sourceFields.map Prod.fst)
    (source : String) (text : info.text? name = some source) :
    h.Names (Wanted h info) source :=
  fun _ resolved _ => ⟨source, Resources.mem_sources_of_text text listed, resolved⟩

theorem hands_primary (image : Option (ResourceUrl × ImageInfo)) (path : Option (Outline α))
    (box : Box α) (k : ScaleFactor α) :
    Only (primary h info image path box k) (primary h.noting info image path box k)
      (Wanted h info) := by
  unfold primary
  cases image with
  | some image => exact .pure _
  | none =>
    refine .bind (hands_sprite (wanted_of_text (by decide)) box.bounds) fun sprite => ?_
    cases sprite with
    | some sprite => exact .pure _
    | none =>
      cases path with
      | some path => exact .pure _
      | none =>
        refine .bind (hands_video (fun _ => wanted_of_text (by decide)) box.bounds box.fill)
          fun opened => ?_
        cases opened with
        | some opened => exact .pure _
        | none => exact .pure _

theorem hands_text (bounds : Rect α) (screen : Size α) (k : ScaleFactor α) :
    Only (text? h info bounds screen k) (text? h.noting info bounds screen k) Q := by
  unfold text?
  cases info.text? "text" with
  | none => exact .pure none
  | some text => exact .bind (.beside _) fun _ => .pure _

omit [Scalar α] in
theorem hands_richText (bounds : Rect α) :
    Only (richText? h info bounds) (richText? h.noting info bounds) Q := by
  unfold richText?
  cases info.texts? "markdown" with
  | none => exact .pure none
  | some lines => exact .bind (.beside _) fun _ => .pure _

variable [Analytic α]

/-- While an element is built that is not streamed, only what is collected for it is asked for. -/
theorem hands_body (h : Host σ α) (screen : Size α) (k : ScaleFactor α) (info : Record)
    (container : Size α) (id : ElementId) :
    Only (body h screen k info container id) (body h.noting screen k info container id)
      (Wanted h info) := by
  unfold body
  refine .bind (Host.hands_loadField (wanted_of_text (by decide))) fun image => ?_
  refine .bind (Host.hands_loadField (wanted_of_text (by decide))) fun mask => ?_
  refine .bind (hands_primary image _ _ k) fun content => ?_
  refine .bind (hands_text _ screen k) fun text => .bind (hands_richText _) fun richText => ?_
  refine .bind (Host.hands_loadImages fun source mem url resolved _ => ?_) fun frames => .pure _
  exact ⟨source, Resources.mem_sources_of_mem_imageSources mem, resolved⟩

/-- What the host is asked for while a body is built. -/
def HandedFor (h : Host σ α) (screen : Size α) (k : ScaleFactor α) (urls : List ResourceUrl)
    (b : Body α) : Prop :=
  ∃ container s, (body h.noting screen k b.info container b.id).run (s, []) =
    (b, ((body h screen k b.info container b.id).run s).2, urls)

theorem HandedFor.wanted {screen : Size α} {k : ScaleFactor α} {urls : List ResourceUrl}
    {b : Body α} (handed : HandedFor h screen k urls b) : ∀ url ∈ urls, Wanted h b.info url := by
  obtain ⟨container, s, run⟩ := handed
  obtain ⟨urls', only, run'⟩ := hands_body h screen k b.info container b.id s
  have same : urls = urls' := by
    have eq := (run.symm.trans (run' []))
    simpa using congrArg (fun done => done.2.2) eq
  exact same ▸ only

/-- What was noted while some bodies were built falls into one section for each of them. -/
def Sections (P : List ResourceUrl → Body α → Prop) (bodies : List (Body α))
    (noted : List ResourceUrl) : Prop :=
  ∃ sections : List (List ResourceUrl), noted = sections.flatten ∧ List.Forall₂ P sections bodies

omit [Scalar α] [Analytic α] in
theorem Sections.append {P : List ResourceUrl → Body α → Prop} {first others : List (Body α)}
    {noted more : List ResourceUrl} (hfirst : Sections P first noted)
    (hothers : Sections P others more) : Sections P (first ++ others) (noted ++ more) := by
  obtain ⟨sections, rfl, each⟩ := hfirst
  obtain ⟨sections', rfl, each'⟩ := hothers
  exact ⟨sections ++ sections', List.flatten_append.symm, List.rel_append each each'⟩

section

variable {h' : Host (σ × List ResourceUrl) α} {screen : Size α} {k : ScaleFactor α}
  {P : List ResourceUrl → Body α → Prop}

mutual

theorem sections_tree
    (each : ∀ info container id, Hands (body h screen k info container id)
      (body h' screen k info container id) fun b noted => P noted b) :
    ∀ (e : Expansion) (container : Size α) (id : ElementId),
      Hands (tree h screen k e container id) (tree h' screen k e container id)
        fun built noted => Sections P built.1.toList noted
  | .node info es, container, id => by
    unfold tree
    refine (each info container id).bind fun b noted here => ?_
    refine (sections_trees each es b.box.contentSize (id + 1)).bind fun kids more below => .pure ?_
    rw [List.append_nil, Element.toList_node]
    exact Sections.append ⟨[noted], by simp, .cons here .nil⟩ below

private theorem sections_trees
    (each : ∀ info container id, Hands (body h screen k info container id)
      (body h' screen k info container id) fun b noted => P noted b) :
    ∀ (es : List Expansion) (container : Size α) (id : ElementId),
      Hands (trees h screen k es container id) (trees h' screen k es container id)
        fun built noted => Sections P (Element.listAll built.1) noted
  | [], container, id => .pure ⟨[], rfl, .nil⟩
  | e :: es, container, id => by
    unfold trees
    refine (sections_tree each e container id).bind fun first noted here => ?_
    refine (sections_trees each es container first.2).bind fun others more there => .pure ?_
    rw [List.append_nil, Element.listAll_cons]
    exact here.append there

end

mutual

theorem tree_infos (h : Host σ α) (screen : Size α) (k : ScaleFactor α) :
    ∀ (e : Expansion) (container : Size α) (id : ElementId),
      Returns (fun built => built.1.toList.map Body.info = e.infos) (tree h screen k e container id)
  | .node info es, container, id => by
    unfold tree
    refine .bind (body_returns h screen k info container id) fun b here => ?_
    refine .bind (trees_infos h screen k es b.box.contentSize (id + 1)) fun kids below => .pure ?_
    simp only [Element.toList_node, List.map_cons, here.2.1, below, Expansion.infos]

private theorem trees_infos (h : Host σ α) (screen : Size α) (k : ScaleFactor α) :
    ∀ (es : List Expansion) (container : Size α) (id : ElementId),
      Returns (fun built => (Element.listAll built.1).map Body.info = Expansion.infosAll es)
        (trees h screen k es container id)
  | [], _, _ => .pure rfl
  | e :: es, container, id => by
    unfold trees
    refine .bind (tree_infos h screen k e container id) fun first here => ?_
    refine .bind (trees_infos h screen k es container first.2) fun others there => .pure ?_
    simp only [Element.listAll_cons, List.map_append, here, there, Expansion.infosAll]

end

end

theorem hands_tree (h : Host σ α) (screen : Size α) (k : ScaleFactor α) (e : Expansion)
    (container : Size α) (id : ElementId) :
    Hands (tree h screen k e container id) (tree h.noting screen k e container id)
      fun built handed => built.1.toList.map Body.info = e.infos ∧
        Sections (HandedFor h screen k) built.1.toList handed := by
  refine (sections_tree (fun info container id => ?_) e container id).and
    (tree_infos h screen k e container id)
  intro s
  obtain ⟨handed, -, run⟩ := hands_body h screen k info container id s
  obtain ⟨named, merged, -⟩ := body_returns h screen k info container id s
  refine ⟨handed, ⟨container, s, ?_⟩, run⟩
  rw [named, merged]
  exact run []

end Build

namespace Element

variable {σ α : Type} [Scalar α] [Analytic α]

/-- When a tree is loaded, collecting from the same descriptor answers as well. What the load asks
the host for falls into one section for each element, in the order of the tree, and what it asks for
an element that is not streamed is collected. The other way round, what is collected are the
addresses of the images, masks, sprite sheets, videos and frames that the elements which are not
streamed name; a radio plays no part in it. -/
theorem loadWithin_hands_collected (h : Host σ α) {depth : Nat} {desc : Record}
    {dimension : Size α} {k : ScaleFactor α} {first : ElementId} {s : σ} {root : Element α}
    (loaded : ((loadWithin depth h desc dimension k first).run s).1 = some root) :
    ∃ table, Resources.collectWithin depth h.delegate.toLookups desc = some table ∧
      (∃ sections : List (List ResourceUrl),
        (loadWithin depth h.noting desc dimension k first).run (s, []) =
          (some root, ((loadWithin depth h desc dimension k first).run s).2, sections.flatten) ∧
        List.Forall₂ (fun urls b => Build.HandedFor h dimension k urls b ∧
          (b.info.flag "stream" = false → ∀ url ∈ urls, url ∈ table.keys))
          sections root.toList) ∧
      (∀ url, url ∈ table.keys ↔ ∃ b ∈ root.toList, b.info.flag "stream" = false ∧
        ∃ source ∈ Resources.sources b.info,
          ResourceUrl.resolve source h.delegate.baseUrl = some url) ∧
      ∀ info info' : Record, (∀ name, name ≠ "radio" → info.get? name = info'.get? name) →
        ∀ base table, Resources.addOwn base info table = Resources.addOwn base info' table := by
  have same : h.noting.delegate.prototype = h.delegate.prototype := rfl
  unfold loadWithin at loaded ⊢
  rw [same]
  unfold Resources.collectWithin
  cases found : Expansion.within h.delegate.prototype depth desc with
  | none => simp [found] at loaded
  | some expansion =>
    rw [found] at loaded
    obtain ⟨handed, ⟨infos, sections, rfl, each⟩, run⟩ :=
      Build.hands_tree h dimension k expansion dimension first s
    obtain rfl : ((Build.tree h dimension k expansion dimension first).run s).1.1 = root :=
      Option.some.inj loaded
    have keys : ∀ url,
        url ∈ (Resources.addTree h.delegate.baseUrl expansion []).keys ↔
          ∃ b ∈ ((Build.tree h dimension k expansion dimension first).run s).1.1.toList,
            b.info.flag "stream" = false ∧ ∃ source ∈ Resources.sources b.info,
              ResourceUrl.resolve source h.delegate.baseUrl = some url := by
      intro url
      rw [Resources.mem_keys_addTree, ← infos]
      simp [ResourceTable.keys]
    refine ⟨_, rfl, ⟨sections, ?_, ?_⟩, keys, fun _ _ same _ => Resources.addOwn_congr same⟩
    · exact congrArg (fun done => (some done.1.1, done.2)) (run [])
    · obtain ⟨length, paired⟩ := List.forall₂_iff_zip.mp each
      refine List.forall₂_iff_zip.mpr ⟨length, fun {urls b} mem => ⟨paired mem, ?_⟩⟩
      intro stored url asked
      exact (keys url).mpr
        ⟨b, (List.of_mem_zip mem).2, stored, (paired mem).wanted url asked stored⟩

def mixedFilm : Record :=
  .film "a.mp4" [⟨[("img", .text "b.png")]⟩, ⟨[("radio", .text "c.mp3")]⟩,
    ⟨[("video", .text "d.mp4"), ("stream", .bool true)]⟩]

theorem loadWithin_hands_collected_film : ∃ root table,
    ((load Host.screening mixedFilm ⟨640, 480⟩ ⟨1, 1⟩).run ()).1 = some root ∧
    Resources.collect Host.screening.delegate.toLookups mixedFilm = some table ∧
    table.keys = [⟨"a.mp4"⟩, ⟨"b.png"⟩] ∧
    ∃ sections : List (List ResourceUrl), sections.flatten = [⟨"a.mp4"⟩, ⟨"b.png"⟩] ∧
      List.Forall₂ (fun urls b => b.info.flag "stream" = false → ∀ url ∈ urls, url ∈ table.keys)
        sections root.toList := by
  have asked : ((load Host.screening.noting mixedFilm ⟨640, 480⟩ ⟨1, 1⟩).run ((), [])).2.2 =
      [⟨"a.mp4"⟩, ⟨"b.png"⟩] := by
    decide +kernel
  have kept : (Resources.collect Host.screening.delegate.toLookups mixedFilm).map
      ResourceTable.keys = some [⟨"a.mp4"⟩, ⟨"b.png"⟩] := by
    decide +kernel
  have loads : (screened mixedFilm).isSome = true := by decide +kernel
  obtain ⟨root, shown⟩ := Option.isSome_iff_exists.mp loads
  have loaded := shown
  rw [screened, load_eq_loadWithin] at loaded
  obtain ⟨table, collected, ⟨sections, noted, each⟩, -⟩ :=
    loadWithin_hands_collected Host.screening loaded
  rw [← load_eq_loadWithin] at noted
  rw [← Resources.collect_eq_collectWithin] at collected
  have all : ((load Host.screening.noting mixedFilm ⟨640, 480⟩ ⟨1, 1⟩).run ((), [])).2.2 =
      sections.flatten := congrArg (fun done => done.2.2) noted
  have keys : table.keys = [⟨"a.mp4"⟩, ⟨"b.png"⟩] := by simpa [collected] using kept
  exact ⟨root, table, shown, collected, keys, sections, all.symm.trans asked,
    each.imp fun _ _ here => here.2⟩

end Element

end LayerTree
