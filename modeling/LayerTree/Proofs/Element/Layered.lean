import LayerTree.Proofs.Element.Mirrored
import LayerTree.Proofs.Element.Opened
import LayerTree.Proofs.Playback.Operations
import LayerTree.Proofs.Scalar.Double

/-!
Which layers an element has at once.

A video, the clock of a sprite and repeated content each go with one kind of primary content. This
is so when a tree is built, and the operations of playback keep it, as they change nothing of the
layers but the cell that a sprite shows and the opacity.
-/

set_option autoImplicit false
set_option relaxedAutoImplicit false

namespace LayerTree

/-- The layers of a body and what is driven beside them fit together. -/
structure Body.Layered {α : Type} (b : Body α) : Prop where
  /-- Only a video layer has a player. -/
  video : b.video.isSome = true → ∃ layer, b.layers.primary = some (.video layer)
  /-- Only a sprite steps, through the cells of its own sheet. -/
  clock : ∀ clock, b.sprite = some clock → ∃ layer, b.layers.primary = some (.sprite layer) ∧
    clock.slice = layer.slice ∧ 1 ≤ layer.slice.column ∧ 1 ≤ layer.slice.row ∧
    clock.slotRow = layer.slot.row
  /-- Only images and shapes are repeated, and they are cut at the bounds then. -/
  tiling : b.layers.tiling.isSome = true →
    ((∃ layer, b.layers.primary = some (.image layer)) ∨
      ∃ layer, b.layers.primary = some (.shape layer)) ∧
    b.layers.style.masksToBounds = true
  /-- A shape carries the shadow itself. -/
  shape : ∀ layer, b.layers.primary = some (.shape layer) → b.layers.style.shadow = none

theorem Layers.sprite?_eq_some {α : Type} {l : Layers α} {layer : SpriteLayer α}
    (h : l.sprite? = some layer) : l.primary = some (.sprite layer) := by
  unfold sprite? at h
  split at h
  · next same => rw [same, Option.some.inj h]
  · cases h

variable {σ α : Type} [Scalar α]

namespace Build

/-- What holds of the primary content and the surface that are built: the surface is there with a
video layer, and a sprite has at least one cell. -/
structure Fits (content : Option (Primary α) × Option (VideoSurface α)) : Prop where
  video : content.2.isSome = true ↔ ∃ layer, content.1 = some (.video layer)
  cells : ∀ layer, content.1 = some (.sprite layer) →
    1 ≤ layer.slice.column ∧ 1 ≤ layer.slice.row

variable (cells : ∀ value, 1 ≤ cellCount α value) {h : Host σ α} {info : Record}

include cells

theorem sprite?_cells (bounds : Rect α) :
    Returns (fun sprite => ∀ layer, sprite = some layer →
      1 ≤ layer.slice.column ∧ 1 ≤ layer.slice.row) (sprite? h info bounds) := by
  unfold sprite?
  split
  · exact .pure nofun
  · refine .bind (.trivial _) fun image _ => ?_
    split
    · exact .pure nofun
    · refine .pure fun layer same => ?_
      obtain rfl := Option.some.inj same
      exact ⟨cells _, cells _⟩

theorem primary_fits (image : Option (ResourceUrl × ImageInfo)) (path : Option (Outline α))
    (box : Box α) (k : ScaleFactor α) :
    Returns Fits (primary h info image path box k) := by
  unfold primary
  split
  · exact .pure ⟨by simp, by simp⟩
  · refine .bind (sprite?_cells cells box.bounds) fun sprite here => ?_
    split
    · next sprite =>
      refine .pure ⟨by simp, fun layer same => ?_⟩
      obtain rfl := Primary.sprite.inj (Option.some.inj same)
      exact here sprite rfl
    · split
      · exact .pure ⟨by simp, by simp⟩
      · refine .bind (.trivial _) fun video _ => ?_
        split
        · exact .pure ⟨by simp, by simp⟩
        · exact .pure ⟨by simp, by simp⟩

omit cells

theorem isSome_tiling? {content : Option (Primary α)} {bounds : Rect α}
    (there : (tiling? info content bounds).isSome = true) :
    (∃ layer, content = some (.image layer)) ∨ ∃ layer, content = some (.shape layer) := by
  unfold tiling? at there
  split at there
  · split at there
    · exact .inl ⟨_, rfl⟩
    · exact .inr ⟨_, rfl⟩
    · cases there
  · cases there

variable [Analytic α]

theorem assemble_layered {content : Option (Primary α) × Option (VideoSurface α)}
    (fits : Fits content) (paths : Outline.NamedPaths) (k : ScaleFactor α) (container : Size α)
    (id : ElementId) (box : Box α) (mask : Option (ResourceUrl × ImageInfo))
    (text : Option (TextLayer α)) (richText : Option (RichTextLayer α))
    (frames : List ResourceUrl) :
    (assemble paths k info id box (layers info container k box content.1 mask text richText)
      frames content.2).Layered where
  video there := fits.video.mp there
  clock clock started := by
    obtain ⟨count, -, started⟩ := Option.bind_eq_some_iff.mp started
    obtain ⟨layer, found, started⟩ := Option.bind_eq_some_iff.mp started
    obtain rfl := Option.some.inj started
    have shown : content.1 = some (.sprite layer) := Layers.sprite?_eq_some found
    obtain ⟨columns, rows⟩ := fits.cells layer shown
    refine ⟨layer, shown, ?_, columns, rows, rfl⟩
    change Cell.mk (max layer.slice.column 1) (max layer.slice.row 1) = layer.slice
    rw [Nat.max_eq_left columns, Nat.max_eq_left rows]
  tiling there := by
    refine ⟨isSome_tiling? there, ?_⟩
    have repeated : (tiling? info content.1 box.bounds).isSome = true := there
    change (_ || (tiling? info content.1 box.bounds).isSome) = true
    rw [repeated, Bool.or_true]
  shape layer shown := by
    have here : content.1 = some (.shape layer) := shown
    simp only [assemble, layers, finishStyle, here]

theorem body_layered (cells : ∀ value, 1 ≤ cellCount α value) (h : Host σ α) (screen : Size α)
    (k : ScaleFactor α) (info : Record) (container : Size α) (id : ElementId) :
    Returns (fun b => b.Layered ∧
        (b.video.isSome = true ↔ ∃ layer, b.layers.primary = some (.video layer)))
      (body h screen k info container id) := by
  rw [body_eq]
  refine .bind (.trivial _) fun image _ => .bind (.trivial _) fun mask _ => ?_
  refine .bind (primary_fits cells image _ _ k) fun content fits => ?_
  refine .bind (.trivial _) fun text _ => .bind (.trivial _) fun richText _ => ?_
  refine .bind (.trivial _) fun frames _ => .pure ⟨?_, fits.video⟩
  exact assemble_layered fits _ k container id _ mask text richText frames

end Build

def Primary.withoutCell : Primary α → Primary α
  | image layer => image layer
  | sprite layer => sprite { layer with contentsRect := Rect.zero }
  | shape layer => shape layer
  | video layer => video layer

theorem Primary.eq_or_sprites {content content' : Option (Primary α)}
    (same : content'.map withoutCell = content.map withoutCell) :
    content' = content ∨ ∃ layer layer', content = some (.sprite layer) ∧
      content' = some (.sprite layer') ∧ layer'.slice = layer.slice ∧ layer'.slot = layer.slot := by
  cases content with
  | none => exact .inl (Option.map_eq_none_iff.mp same)
  | some p =>
    obtain ⟨p', rfl, kept⟩ := Option.map_eq_some_iff.mp same
    clear same
    cases p' with
    | sprite layer' =>
      cases p with
      | sprite layer =>
        have slice := congrArg SpriteLayer.slice (Primary.sprite.inj kept)
        have slot := congrArg SpriteLayer.slot (Primary.sprite.inj kept)
        exact .inr ⟨layer, layer', rfl, rfl, slice, slot⟩
      | _ => cases kept
    | _ =>
      cases p with
      | sprite layer => cases kept
      | _ => exact .inl (congrArg some kept)

theorem Layers.primary_showCell (rect : Rect α) (l : Layers α) :
    (l.showCell rect).primary.map Primary.withoutCell = l.primary.map Primary.withoutCell := by
  unfold showCell
  split
  · next layer here => rw [here]; rfl
  · rfl

omit [Scalar α] in
theorem Layers.tiling_showCell (rect : Rect α) (l : Layers α) :
    (l.showCell rect).tiling = l.tiling := by
  unfold showCell
  split <;> rfl

omit [Scalar α] in
theorem Layers.style_showCell (rect : Rect α) (l : Layers α) :
    (l.showCell rect).style = l.style := by
  unfold showCell
  split <;> rfl

namespace Body

/-- The second body is the first one but for the cell of a sprite, the opacity, the progress of its
clock and its video, and what does not belong to the layers. -/
structure KeepsLayers (b b' : Body α) : Prop where
  id : b'.id = b.id
  primary : b'.layers.primary.map Primary.withoutCell = b.layers.primary.map Primary.withoutCell
  tiling : b'.layers.tiling = b.layers.tiling
  masks : b'.layers.style.masksToBounds = b.layers.style.masksToBounds
  shadow : b'.layers.style.shadow = b.layers.style.shadow
  clock : ∀ clock', b'.sprite = some clock' →
    ∃ clock, b.sprite = some clock ∧ clock'.slice = clock.slice ∧ clock'.slotRow = clock.slotRow
  video : b'.video.isSome = true → b.video.isSome = true

namespace KeepsLayers

variable {b b' b'' : Body α}

theorem of_layers (id : b'.id = b.id) (layers : b'.layers = b.layers)
    (sprite : b'.sprite = b.sprite)
    (video : b'.video.isSome = true → b.video.isSome = true) : b.KeepsLayers b' where
  id := id
  primary := by rw [layers]
  tiling := by rw [layers]
  masks := by rw [layers]
  shadow := by rw [layers]
  clock clock same := ⟨clock, sprite ▸ same, rfl, rfl⟩
  video := video

theorem refl (b : Body α) : b.KeepsLayers b := of_layers rfl rfl rfl fun there => there

theorem trans (first : b.KeepsLayers b') (second : b'.KeepsLayers b'') : b.KeepsLayers b'' where
  id := second.id.trans first.id
  primary := second.primary.trans first.primary
  tiling := second.tiling.trans first.tiling
  masks := second.masks.trans first.masks
  shadow := second.shadow.trans first.shadow
  clock clock'' same := by
    obtain ⟨clock', same', slice', row'⟩ := second.clock clock'' same
    obtain ⟨clock, here, slice, row⟩ := first.clock clock' same'
    exact ⟨clock, here, slice'.trans slice, row'.trans row⟩
  video there := first.video (second.video there)

theorem withOpacity (b : Body α) (opacity : α) : b.KeepsLayers (b.withOpacity opacity) :=
  ⟨rfl, rfl, rfl, rfl, rfl, fun clock same => ⟨clock, same, rfl, rfl⟩, fun there => there⟩

theorem stepSprite (t : α) (b : Body α) : b.KeepsLayers (b.stepSprite t) := by
  unfold Body.stepSprite
  cases started : b.sprite with
  | none => exact refl b
  | some clock =>
    have moved : ∀ clock', some (clock.advance t).2 = some clock' →
        ∃ clock, b.sprite = some clock ∧ clock'.slice = clock.slice ∧
          clock'.slotRow = clock.slotRow := by
      intro clock' same
      obtain rfl := Option.some.inj same
      refine ⟨clock, started, ?_⟩
      unfold SpriteClock.advance
      dsimp only
      split
      · exact ⟨rfl, rfl⟩
      · exact ⟨rfl, rfl⟩
    cases shown : (clock.advance t).1 with
    | none => simpa only [shown] using ⟨rfl, rfl, rfl, rfl, rfl, moved, fun there => there⟩
    | some rect =>
      simp only [shown]
      refine ⟨rfl, b.layers.primary_showCell rect, b.layers.tiling_showCell rect, ?_, ?_, moved,
        fun there => there⟩
      · exact congrArg LayerStyle.masksToBounds (b.layers.style_showCell rect)
      · exact congrArg LayerStyle.shadow (b.layers.style_showCell rect)

theorem seekVideo (ready : Player → Bool) (t : α) (b : Body α) :
    b.KeepsLayers (b.seekVideo ready t).2 := by
  rcases b.seekVideo_cases ready t with
    ⟨eq, -⟩ | ⟨video, ticket, -, -, eq⟩ | ⟨video, -, -, -, eq⟩
  · rw [eq]
    exact refl b
  · rw [eq]
    exact of_layers rfl rfl rfl fun there => there
  · rw [eq]
    exact of_layers rfl rfl rfl fun there => there

theorem layered (keeps : b.KeepsLayers b') (h : b.Layered) : b'.Layered := by
  rcases Primary.eq_or_sprites keeps.primary with same | ⟨layer, layer', here, there, slice, slot⟩
  · refine ⟨fun has => ?_, fun clock' has => ?_, fun has => ?_, fun layer shown => ?_⟩
    · rw [same]
      exact h.video (keeps.video has)
    · obtain ⟨clock, had, slice, row⟩ := keeps.clock clock' has
      rw [same, slice, row]
      exact h.clock clock had
    · rw [same, keeps.masks]
      exact h.tiling (keeps.tiling ▸ has)
    · rw [keeps.shadow]
      exact h.shape layer (same ▸ shown)
  · refine ⟨fun has => ?_, fun clock' has => ?_, fun has => ?_, fun layer shown => ?_⟩
    · obtain ⟨layer, video⟩ := h.video (keeps.video has)
      exact nomatch here.symm.trans video
    · obtain ⟨clock, had, sameSlice, sameRow⟩ := keeps.clock clock' has
      obtain ⟨layer'', sprite, ofLayer, columns, rows, row⟩ := h.clock clock had
      obtain rfl := Primary.sprite.inj (Option.some.inj (here.symm.trans sprite))
      refine ⟨layer', there, ?_, ?_, ?_, ?_⟩
      · rw [sameSlice, ofLayer, slice]
      · rw [slice]
        exact columns
      · rw [slice]
        exact rows
      · rw [sameRow, row, slot]
    · obtain ⟨⟨layer, image⟩ | ⟨layer, shape⟩, -⟩ := h.tiling (keeps.tiling ▸ has)
      · exact nomatch here.symm.trans image
      · exact nomatch here.symm.trans shape
    · exact nomatch there.symm.trans shown

theorem moves {I : Body α → Prop} (keeps : ∀ b b', b.KeepsLayers b' → I b → I b') :
    Moves (Carries (fun _ => I) fun _ => I) where
  stay b log h := h
  follow b l b' l' b'' := Carries.follow b l b' l' b''
  fade b opacity log := keeps _ _ (withOpacity b opacity)
  start b log := by
    refine keeps _ _ ?_
    rcases b.startVideo_cases with ⟨eq, -⟩ | ⟨video, there, -, eq⟩
    · rw [eq]
      exact refl b
    · rw [eq]
      exact of_layers rfl rfl rfl fun _ => by rw [there]; rfl
  pause b log := by
    refine keeps _ _ ?_
    rcases b.pauseVideo_cases with ⟨eq, -⟩ | ⟨video, there, -, eq⟩
    · rw [eq]
      exact refl b
    · rw [eq]
      exact of_layers rfl rfl rfl fun _ => by rw [there]; rfl
  finish repeats b video there log := by
    refine keeps _ _ ?_
    have had : b.video.isSome = true := by rw [there]; rfl
    unfold endVideo
    split
    · exact refl b
    · dsimp only
      split
      · exact of_layers rfl rfl rfl fun _ => had
      · exact of_layers rfl rfl rfl fun _ => had
  tap b name action log h := h
  drop b log := keeps _ _ (of_layers rfl rfl rfl fun has => nomatch has)
  apply ready t autoplay b low high log := by
    refine keeps _ _ ?_
    unfold applyOffset
    split
    · exact stepSprite t b
    · exact (stepSprite t b).trans (seekVideo ready t _)
  land ticket b awaits names log := keeps _ _ (of_layers rfl rfl rfl fun has => has)

end KeepsLayers

end Body

theorem Build.one_le_cellCount (value : Option Json.Value) : 1 ≤ cellCount Float value := by
  unfold cellCount
  split
  · split
    · exact Double.one_le_toUInt32_max _
    · exact Nat.le_refl 1
  · exact Nat.le_refl 1

namespace Element

/-- Every element of a loaded tree has as its primary content the first that can be built of image,
sprite, shape and video, and a player is opened for it only when it has no image, sprite or shape;
then it has a video surface exactly when its content is a video. Whatever is done with the tree
afterwards, the content stays the same but for the cell that a sprite shows, and the layers go on to
fit together. -/
theorem loadWithin_layered {σ : Type} (h : Host σ Float) {depth : Nat} {desc : Record}
    {dimension : Size Float} {k : ScaleFactor Float} {first : ElementId} {s : σ}
    {root : Element Float}
    (loaded : ((loadWithin depth h desc dimension k first).run s).1 = some root) :
    (∃ sections : List (List ResourceUrl),
      (loadWithin depth h.notingPlayers desc dimension k first).run (s, []) =
        (some root, ((loadWithin depth h desc dimension k first).run s).2, sections.flatten) ∧
      List.Forall₂ (Build.FirstBuilt h dimension k) sections root.toList) ∧
    (∀ b ∈ root.toList,
      b.video.isSome = true ↔ ∃ layer, b.layers.primary = some (.video layer)) ∧
    ∀ calls : List (Call Float), ∀ b ∈ (root.run calls).2.toList,
      b.Layered ∧ ∃ built ∈ root.toList, built.id = b.id ∧
        b.layers.primary.map Primary.withoutCell =
          built.layers.primary.map Primary.withoutCell := by
  have nodup : root.ids.Nodup := Loaded.nodup_ids ⟨σ, h, depth, desc, _, k, first, s, loaded⟩
  have fits : ∀ b ∈ root.toList, b.Layered ∧
      (b.video.isSome = true ↔ ∃ layer, b.layers.primary = some (.video layer)) := by
    intro b hb
    obtain ⟨container, _, here⟩ := (mirrors_of_loadWithin loaded).renders b hb
    obtain ⟨s, same, -⟩ := here.built
    rw [← same]
    exact Build.body_layered Build.one_le_cellCount h dimension k b.info container b.id s
  refine ⟨opens_loadWithin loaded, fun b hb => (fits b hb).2, fun calls => ?_⟩
  let Kept (b : Body Float) : Prop := b.Layered ∧ ∃ built ∈ root.toList, built.KeepsLayers b
  have keeps : ∀ b b' : Body Float, b.KeepsLayers b' → Kept b → Kept b' := by
    rintro b b' move ⟨layered, built, hbuilt, here⟩
    exact ⟨move.layered layered, built, hbuilt, here.trans move⟩
  have start : ∀ b ∈ root.toList, Kept b :=
    fun b hb => ⟨(fits b hb).1, b, hb, .refl b⟩
  obtain ⟨-, all, -⟩ := run_keeps (G := fun _ _ => True) (Body.KeepsLayers.moves keeps)
    (fun _ _ _ => trivial) calls root [] nodup start fun _ => trivial
  intro b hb
  obtain ⟨layered, built, hbuilt, here⟩ := all b hb
  exact ⟨layered, built, hbuilt, here.id.symm, here.primary⟩

theorem loadWithin_layered_film : ∃ root,
    ((loadWithin 3 Host.projecting doubleFilm ⟨640, 480⟩ ⟨1, 1⟩ 0).run ()).1 = some root ∧
    (∃ sections : List (List ResourceUrl), sections.flatten = [⟨"a.mp4"⟩, ⟨"b.mp4"⟩] ∧
      List.Forall₂ (Build.FirstBuilt Host.projecting ⟨640, 480⟩ ⟨1, 1⟩) sections root.toList) ∧
    root.toList.map (fun b => (b.video.isSome, b.sprite.isSome)) =
      [(true, false), (true, false), (false, true)] ∧
    ∀ b ∈ (root.run [⟨0, .setTimeOffset (fun _ => true) 0.5 false⟩, ⟨1, .clear⟩]).2.toList,
      b.Layered := by
  have loads : (((loadWithin 3 Host.projecting doubleFilm ⟨640, 480⟩ ⟨1, 1⟩ 0).run ()).1.any
      fun root => root.toList.map (fun b => (b.video.isSome, b.sprite.isSome)) ==
        [(true, false), (true, false), (false, true)]) = true := by
    decide +kernel
  have players : ((loadWithin 3 Host.projecting.notingPlayers doubleFilm ⟨640, 480⟩ ⟨1, 1⟩ 0).run
      ((), [])).2.2 = [⟨"a.mp4"⟩, ⟨"b.mp4"⟩] := by
    decide +kernel
  obtain ⟨root, loaded, driven⟩ := (Option.any_eq_true _ _).mp loads
  obtain ⟨⟨sections, noted, each⟩, -, run⟩ := loadWithin_layered Host.projecting loaded
  have all := congrArg (fun done => done.2.2) noted
  exact ⟨root, loaded, ⟨sections, all.symm.trans players, each⟩, by simpa using driven,
    fun b hb => (run _ b hb).1⟩

end Element

end LayerTree
