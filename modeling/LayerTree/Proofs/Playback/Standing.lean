import LayerTree.Proofs.Element.Cut
import LayerTree.Proofs.Element.Layered
import LayerTree.Proofs.Playback.Remains

/-!
What a run leaves as it was built.

Playback moves the opacity of elements that can be tapped and the cells of sprites that step, and
keeps its own state of seeks and videos. With all of that put to rest, the tree after a run is the
tree before it, cut at the elements that were cleared.
-/

set_option autoImplicit false
set_option relaxedAutoImplicit false

namespace LayerTree

variable {α : Type}

/-! Layers. -/

namespace Layers

theorem showCell_showCell (cell cell' : Rect α) (l : Layers α) :
    (l.showCell cell).showCell cell' = l.showCell cell' := by
  unfold showCell
  cases content : l.primary with
  | none => simp only [content]
  | some p => cases p <;> simp only [content]

theorem showCell_withOpacity (cell : Rect α) (opacity : α) (l : Layers α) :
    (l.withOpacity opacity).showCell cell = (l.showCell cell).withOpacity opacity := by
  unfold showCell withOpacity
  dsimp only
  split <;> rfl

theorem exists_showCell_self [Scalar α] (l : Layers α) : ∃ cell, l.showCell cell = l := by
  unfold showCell
  cases content : l.primary with
  | none => exact ⟨Rect.zero, rfl⟩
  | some p =>
    cases p with
    | sprite layer => exact ⟨layer.contentsRect, by simp only [← content]⟩
    | _ => exact ⟨Rect.zero, rfl⟩

theorem eq_withOpacity_of_same {l l' : Layers α} {opacity : α}
    (same : l'.withOpacity opacity = l.withOpacity opacity) :
    l' = l.withOpacity l'.style.opacity := by
  have undone := congrArg (withOpacity l'.style.opacity) same
  exact undone

theorem exists_eq_showCell_of_same [Scalar α] {l l' : Layers α} {cell : Rect α}
    (same : l'.showCell cell = l.showCell cell) : ∃ shown, l' = l.showCell shown := by
  obtain ⟨shown, self⟩ := l'.exists_showCell_self
  refine ⟨shown, ?_⟩
  calc l' = l'.showCell shown := self.symm
    _ = (l'.showCell cell).showCell shown := (showCell_showCell cell shown l').symm
    _ = l.showCell shown := by rw [same, showCell_showCell]

variable [Scalar α]

/-- The layers with the opacity put to zero where the element can be tapped, and with an empty cell
where a sprite steps. -/
def atRest (tapped stepping : Bool) (l : Layers α) : Layers α :=
  let still := if stepping then l.showCell Rect.zero else l
  if tapped then still.withOpacity 0 else still

theorem atRest_withOpacity (stepping : Bool) (opacity : α) (l : Layers α) :
    (l.withOpacity opacity).atRest true stepping = l.atRest true stepping := by
  cases stepping with
  | false => rfl
  | true =>
    simp only [atRest, if_true, showCell_withOpacity]
    rfl

theorem atRest_showCell (tapped : Bool) (cell : Rect α) (l : Layers α) :
    (l.showCell cell).atRest tapped true = l.atRest tapped true := by
  simp only [atRest, if_true, showCell_showCell]

theorem of_atRest {tapped stepping : Bool} {l l' : Layers α}
    (same : l'.atRest tapped stepping = l.atRest tapped stepping) :
    (∃ opacity cell, l' = (l.withOpacity opacity).showCell cell) ∧
      (tapped = false → l'.style.opacity = l.style.opacity) ∧
      (stepping = false → l'.primary = l.primary) := by
  cases tapped with
  | false =>
    cases stepping with
    | false =>
      obtain rfl : l' = l := same
      obtain ⟨cell, self⟩ := l'.exists_showCell_self
      exact ⟨⟨l'.style.opacity, cell, self.symm⟩, fun _ => rfl, fun _ => rfl⟩
    | true =>
      obtain ⟨cell, rfl⟩ := exists_eq_showCell_of_same same
      exact ⟨⟨l.style.opacity, cell, rfl⟩, fun _ => by rw [style_showCell], nofun⟩
  | true =>
    cases stepping with
    | false =>
      have shown : l' = l.withOpacity l'.style.opacity := eq_withOpacity_of_same same
      obtain ⟨cell, self⟩ := (l.withOpacity l'.style.opacity).exists_showCell_self
      have content : l'.primary = (l.withOpacity l'.style.opacity).primary :=
        congrArg Layers.primary shown
      exact ⟨⟨l'.style.opacity, cell, shown.trans self.symm⟩, nofun, fun _ => content⟩
    | true =>
      have shown : l'.showCell Rect.zero =
          (l.showCell Rect.zero).withOpacity (l'.showCell Rect.zero).style.opacity :=
        eq_withOpacity_of_same same
      rw [← showCell_withOpacity] at shown
      obtain ⟨cell, eq⟩ := exists_eq_showCell_of_same shown
      exact ⟨⟨_, cell, eq⟩, nofun, nofun⟩

end Layers

/-! Bodies. -/

namespace Body

/-- What stands of a body as it was built: everything but the state of playback, the opacity of an
element with an action, and the cell that is shown of a sprite with a clock. -/
structure Stands (built now : Body α) : Prop where
  id : now.id = built.id
  info : now.info = built.info
  scale : now.scale = built.scale
  action : now.action = built.action
  box : now.box = built.box
  animations : now.animations = built.animations
  /-- The layers are those built, with some opacity and with some cell shown. -/
  layers : ∃ opacity cell, now.layers = (built.layers.withOpacity opacity).showCell cell
  opacity : built.action = none → now.layers.style.opacity = built.layers.style.opacity
  cell : built.sprite = none → now.layers.primary = built.layers.primary

variable [Scalar α]

def atRest (b : Body α) : Body α :=
  { b with
    layers := b.layers.atRest b.action.isSome b.sprite.isSome
    sprite := b.sprite.map fun clock => { clock with step := none }
    seek := SeekState.initial
    video := none }

@[simp] theorem atRest_id (b : Body α) : b.atRest.id = b.id := rfl

theorem Stands.of_atRest {built now : Body α} (same : now.atRest = built.atRest) :
    built.Stands now := by
  have field {β : Type} (f : Body α → β) : f now.atRest = f built.atRest := congrArg f same
  have action : now.action = built.action := field Body.action
  have clocks : now.sprite.isSome = built.sprite.isSome := by
    have steps := field fun b => b.sprite.isSome
    simpa only [atRest, Option.isSome_map] using steps
  have layers : now.layers.atRest now.action.isSome now.sprite.isSome =
      built.layers.atRest built.action.isSome built.sprite.isSome := field Body.layers
  rw [action, clocks] at layers
  obtain ⟨drawn, opacity, cell⟩ := Layers.of_atRest layers
  exact
    { id := field Body.id
      info := field Body.info
      scale := field Body.scale
      action := action
      box := field Body.box
      animations := field Body.animations
      layers := drawn
      opacity := fun untapped => opacity (by rw [untapped]; rfl)
      cell := fun unclocked => cell (by rw [unclocked]; rfl) }

/-! No change of a body is seen at rest. -/

theorem atRest_withOpacity {b : Body α} (tapped : b.action.isSome = true) (opacity : α) :
    (b.withOpacity opacity).atRest = b.atRest := by
  have layers : (b.layers.withOpacity opacity).atRest b.action.isSome b.sprite.isSome =
      b.layers.atRest b.action.isSome b.sprite.isSome := by
    rw [tapped]
    exact Layers.atRest_withOpacity _ _ _
  unfold atRest withOpacity
  dsimp only
  rw [layers]

theorem atRest_withPlayOpacity (opacity : α) (b : Body α) :
    (b.withPlayOpacity opacity).atRest = b.atRest := by
  unfold withPlayOpacity
  split
  · next button =>
    have tapped : b.action.isSome = true := by
      rw [eq_of_beq button]
      rfl
    exact atRest_withOpacity tapped opacity
  · rfl

theorem atRest_stepSprite (t : α) (b : Body α) : (b.stepSprite t).atRest = b.atRest := by
  unfold stepSprite
  cases started : b.sprite with
  | none => rfl
  | some clock =>
    have clocks : { (clock.advance t).2 with step := none } = { clock with step := none } := by
      unfold SpriteClock.advance
      dsimp only
      split <;> rfl
    have layers : ∀ rect, (b.layers.showCell rect).atRest b.action.isSome true =
        b.layers.atRest b.action.isSome true := fun rect =>
      Layers.atRest_showCell b.action.isSome rect b.layers
    unfold atRest
    cases moved : (clock.advance t).1 with
    | none => simp only [moved, started, Option.map_some, Option.isSome_some, clocks]
    | some rect =>
      simp only [moved, started, Option.map_some, Option.isSome_some, clocks, layers rect]

theorem atRest_seekVideo (ready : Player → Bool) (t : α) (b : Body α) :
    (b.seekVideo ready t).2.atRest = b.atRest := by
  rcases b.seekVideo_cases ready t with
    ⟨eq, -⟩ | ⟨video, ticket, -, -, eq⟩ | ⟨video, -, -, -, eq⟩
  · rw [eq]
  · rw [eq]
    rfl
  · rw [eq]
    rfl

theorem atRest_applyOffset (ready : Player → Bool) (t : α) (autoplay : Bool) (b : Body α) :
    (b.applyOffset ready t autoplay).2.atRest = b.atRest := by
  unfold applyOffset
  split
  · exact atRest_stepSprite t b
  · exact (atRest_seekVideo ready t _).trans (atRest_stepSprite t b)

theorem atRest_landed (b : Body α) : b.landed.atRest = b.atRest := rfl

theorem atRest_tearDown (b : Body α) : b.tearDown.atRest = b.atRest := rfl

theorem atRest_startVideo (b : Body α) : b.startVideo.2.atRest = b.atRest := by
  rcases b.startVideo_cases with ⟨eq, -⟩ | ⟨video, -, -, eq⟩
  · rw [eq]
  · rw [eq]
    rfl

theorem atRest_pauseVideo (b : Body α) : b.pauseVideo.2.atRest = b.atRest := by
  rcases b.pauseVideo_cases with ⟨eq, -⟩ | ⟨video, -, -, eq⟩
  · rw [eq]
  · rw [eq]
    rfl

theorem atRest_endVideo (repeats : Bool) (video : VideoSurface α) (b : Body α) :
    (b.endVideo repeats video).2.atRest = b.atRest := by
  unfold endVideo
  split
  · rfl
  · dsimp only
    split <;> rfl

end Body

/-! Trees. -/

def Operation.isClear : Operation α → Bool
  | clear => true
  | _ => false

theorem Operation.eq_clear {operation : Operation α} (cleared : operation.isClear = true) :
    operation = .clear := by
  cases operation with
  | clear => rfl
  | _ => cases cleared

def Call.clears (c : Call α) (id : ElementId) : Bool := c.operation.isClear && c.element == id

namespace Element

variable [Scalar α]

def atRest (e : Element α) : Element α := e.map Body.atRest

theorem atRest_node (b : Body α) (es : List (Element α)) :
    (node b es).atRest = node b.atRest (mapAll Body.atRest es) := rfl

theorem atRest_setPlayOpacity (opacity : α) (e : Element α) :
    (e.setPlayOpacity opacity).atRest = e.atRest :=
  map_map_of_view (Body.atRest_withPlayOpacity opacity) e

theorem atRest_setTimeOffset (ready : Player → Bool) (t : α) (autoplay : Bool) (e : Element α) :
    (e.setTimeOffset ready t autoplay).2.atRest = e.atRest := by
  unfold setTimeOffset
  split
  · exact map_sweep_of_view (Body.atRest_applyOffset ready t autoplay) e
  · rfl

theorem atRest_landed (e : Element α) : e.landed.atRest = e.atRest := by
  cases e with
  | node b es =>
    have root : (node b es).landed = node b.landed es := rfl
    rw [root, atRest_node, atRest_node, Body.atRest_landed]

theorem atRest_landSeek (ready : Player → Bool) (ticket : SeekTicket) (e : Element α) :
    (landSeek ready ticket e).2.atRest = e.atRest := by
  rcases landSeek_cases ready ticket e with ⟨-, eq⟩ | ⟨-, -, eq⟩ | ⟨t, -, -, eq⟩
  · rw [eq]
  · rw [eq]
    exact atRest_landed e
  · rw [eq]
    exact (atRest_setTimeOffset ready t false e.landed).trans (atRest_landed e)

theorem atRest_update? {β : Type} {id : ElementId} {f : Element α → β × Element α}
    (unseen : ∀ sub, (f sub).2.atRest = sub.atRest) {e : Element α} (nodup : e.ids.Nodup)
    {answer : β × Element α} (changed : update? id f e = some answer) :
    answer.2.atRest = e.atRest := by
  have step (sub : Element α) : (f sub).2.atRest = (sub.cut fun _ => false).atRest := by
    rw [cut_false]
    exact unseen sub
  have only : ∀ x : ElementId, false = true → x = id := fun _ picked => by cases picked
  have cut : answer.2.atRest = (e.cut fun _ => false).atRest :=
    map_update?_of_cut only (fun sub _ _ => step sub) nodup changed
  rw [cut, cut_false]

theorem atRest_completeSeek (ready : Player → Bool) (ticket : SeekTicket) {e : Element α}
    (nodup : e.ids.Nodup) : (e.completeSeek ready ticket).2.atRest = e.atRest := by
  unfold completeSeek
  cases changed : update? ticket.element (landSeek ready ticket) e with
  | none => rfl
  | some answer => exact atRest_update? (atRest_landSeek ready ticket) nodup changed

theorem atRest_startAutoplay (e : Element α) : e.startAutoplay.2.atRest = e.atRest := by
  have swept : (e.sweep Body.startVideo).2.atRest = e.atRest :=
    map_sweep_of_view Body.atRest_startVideo e
  unfold startAutoplay
  dsimp only
  split
  · exact swept
  · exact (atRest_setPlayOpacity 0 _).trans swept

theorem atRest_pauseAutoplay (e : Element α) : e.pauseAutoplay.2.atRest = e.atRest := by
  have swept : (e.sweep Body.pauseVideo).2.atRest = e.atRest :=
    map_sweep_of_view Body.atRest_pauseVideo e
  unfold pauseAutoplay
  dsimp only
  split
  · exact swept
  · exact (atRest_setPlayOpacity 1 _).trans swept

theorem atRest_endHere (repeats : Body α → Bool) (e : Element α) :
    (e.endHere repeats).2.atRest = e.atRest := by
  unfold endHere
  split
  · rfl
  · next video _ =>
    cases e with
    | node b es =>
      rw [atRest_node, body_node, children_node, atRest_node,
        Body.atRest_endVideo (repeats b) video b]

theorem atRest_videoReachedEnd (repeats : Body α → Bool) (id : ElementId) {e : Element α}
    (nodup : e.ids.Nodup) : (e.videoReachedEnd repeats id).2.atRest = e.atRest := by
  unfold videoReachedEnd
  split
  · next events stopped next changed =>
    have ended : next.atRest = e.atRest :=
      atRest_update? (atRest_endHere repeats) nodup changed
    dsimp only
    split
    · exact (atRest_setPlayOpacity 1 next).trans ended
    · exact ended
  · rfl

theorem atRest_setActionOpacity (opacity : α) (e : Element α) :
    (e.setActionOpacity opacity).2.atRest = e.atRest := by
  unfold setActionOpacity
  split
  · next tapped =>
    cases e with
    | node b es =>
      have carried : b.action.isSome = true := tapped
      rw [atRest_node, body_node, children_node, atRest_node, Body.atRest_withOpacity carried]
  · rfl

theorem atRest_perform {operation : Operation α} (keeps : operation.isClear = false)
    {e : Element α} (nodup : e.ids.Nodup) : (operation.perform e).2.atRest = e.atRest := by
  cases operation with
  | setTimeOffset ready t autoplay => exact atRest_setTimeOffset ready t autoplay e
  | completeSeek ready ticket => exact atRest_completeSeek ready ticket nodup
  | startAutoplay => exact atRest_startAutoplay e
  | pauseAutoplay => exact atRest_pauseAutoplay e
  | videoReachedEnd repeats id => exact atRest_videoReachedEnd repeats id nodup
  | touchDown => exact atRest_setActionOpacity pressedOpacity e
  | touchCancel => exact atRest_setActionOpacity 1 e
  | press =>
    simp only [Operation.perform, press]
    split
    · exact atRest_setActionOpacity 1 e
    · rfl
  | clear => cases keeps

theorem atRest_clear {picked : ElementId → Bool} {e : Element α}
    (here : picked e.body.id = true) : e.clear.atRest = (e.cut picked).atRest := by
  cases e with
  | node b es =>
    have root : picked b.id = true := here
    rw [clear, body_node, cut, if_pos root, atRest_node, atRest_node, Body.atRest_tearDown]

theorem atRest_make (c : Call α) {e : Element α} (nodup : e.ids.Nodup) :
    (e.make c).2.atRest = (e.cut c.clears).atRest := by
  have only : ∀ x, c.clears x = true → x = c.element := by
    intro x clears
    obtain ⟨-, here⟩ := Bool.and_eq_true_iff.mp clears
    exact (eq_of_beq here).symm
  unfold make
  cases changed : update? c.element c.operation.perform e with
  | none =>
    have absent : c.element ∉ e.ids := update?_eq_none.mp changed
    have whole : e.cut c.clears = e := cut_of_absent (unpicked_of_not_mem only absent)
    rw [whole]
    rfl
  | some answer =>
    refine map_update?_of_cut only (fun sub distinct named => ?_) nodup changed
    cases cleared : c.operation.isClear with
    | false =>
      have whole : sub.cut c.clears = sub :=
        cut_of_absent fun x _ => by rw [Call.clears, cleared, Bool.false_and]
      rw [whole]
      exact atRest_perform cleared distinct
    | true =>
      have clears : c.clears sub.body.id = true := by
        rw [Call.clears, cleared, named, beq_self_eq_true, Bool.and_self]
      rw [Operation.eq_clear cleared]
      exact atRest_clear clears

/-- At rest, the tree after a run is the tree before it, cut at all elements that were cleared. -/
theorem atRest_run (calls : List (Call α)) {e : Element α} (nodup : e.ids.Nodup) :
    (e.run calls).2.atRest = (e.cut fun id => calls.any fun c => c.clears id).atRest := by
  induction calls generalizing e with
  | nil =>
    have whole : (e.cut fun id => ([] : List (Call α)).any fun c => c.clears id) = e := cut_false e
    rw [whole]
    rfl
  | cons c calls ih =>
    have distinct : (e.make c).2.ids.Nodup := (prunes_make c e).nodup nodup
    calc ((e.make c).2.run calls).2.atRest
        = ((e.make c).2.cut fun id => calls.any fun c => c.clears id).atRest := ih distinct
      _ = (e.make c).2.atRest.cut fun id => calls.any fun c => c.clears id :=
          map_cut Body.atRest_id _ _
      _ = (e.cut c.clears).atRest.cut fun id => calls.any fun c => c.clears id := by
          rw [atRest_make c nodup]
      _ = ((e.cut c.clears).cut fun id => calls.any fun c => c.clears id).atRest :=
          (map_cut Body.atRest_id _ _).symm
      _ = (e.cut fun id => (c :: calls).any fun c => c.clears id).atRest := by
          rw [cut_cut]
          rfl

/-- Whatever is done with a loaded tree, each element that is left stands where it was built and as
it was built, but for the opacity of one with an action and for the cell of a sprite with a clock;
and it has the children that it was built with, in their order, or none when it was cleared. -/
theorem Loaded.build_stands [Analytic α] {root : Element α} (loaded : root.Loaded)
    (calls : List (Call α)) {place : List Nat} {now : Element α}
    (left : (root.run calls).2.at? place = some now) :
    ∃ built, root.at? place = some built ∧ built.body.Stands now.body ∧
      now.children.map (fun child => child.body.id) =
        if calls.any fun c => c.clears built.body.id then []
        else built.children.map fun child => child.body.id := by
  have here : ((root.run calls).2.atRest).at? place = some now.atRest := by
    rw [atRest, at?_map, left]
    rfl
  rw [atRest_run calls loaded.nodup_ids, atRest, at?_map] at here
  obtain ⟨part, there, same⟩ := Option.map_eq_some_iff.mp here
  obtain ⟨built, found, rfl⟩ := at?_cut there
  have body : now.body.atRest = built.body.atRest := by
    have bodies := congrArg Element.body same
    simpa only [atRest, body_map, body_cut] using bodies.symm
  have ids (e : Element α) : e.atRest.children.map (fun child => child.body.id) =
      e.children.map fun child => child.body.id := by
    rw [atRest, children_map, List.map_map]
    refine List.map_congr_left fun child _ => ?_
    rw [Function.comp_apply, body_map, Body.atRest_id]
  have resting : (built.cut fun id => calls.any fun c => c.clears id).atRest = now.atRest := same
  refine ⟨built, found, .of_atRest body, ?_⟩
  rw [← ids now, ← resting, ids, children_cut]
  split
  · rfl
  · rw [List.map_map]
    refine List.map_congr_left fun child _ => ?_
    rw [Function.comp_apply, body_cut]

def stripAndButton : Record :=
  .film "a.mp4" [.strip "s.png",
    ⟨[("action", .text playAction), ("elements", .list [(Record.film "b.mp4" []).toValue])]⟩]

def stepsAndClear : List (Call Float) :=
  [⟨0, .setTimeOffset (fun _ => true) 0.5 false⟩, ⟨0, .startAutoplay⟩, ⟨2, .touchDown⟩, ⟨2, .clear⟩]

theorem Loaded.build_stands_film : ∃ root now built : Element Float, root.Loaded ∧
    (root.run stepsAndClear).2.at? [1] = some now ∧ root.at? [1] = some built ∧
    built.body.Stands now.body ∧ built.children.length = 1 ∧
    now.children.map (fun child => child.body.id) = [] := by
  have seen : (projected stripAndButton).any fun root =>
      ((root.run stepsAndClear).2.at? [1]).isSome &&
        (root.at? [1]).any fun built => built.body.id == 2 && built.children.length == 1 := by
    decide +kernel
  obtain ⟨root, loaded, seen⟩ := exists_loaded_of_projected seen
  obtain ⟨left, shape⟩ := Bool.and_eq_true_iff.mp seen
  obtain ⟨now, left⟩ := Option.isSome_iff_exists.mp left
  obtain ⟨built, there, stands, kids⟩ := loaded.build_stands stepsAndClear left
  have known : built.body.id = 2 ∧ built.children.length = 1 := by
    simpa [there] using shape
  have cleared : (stepsAndClear.any fun c => c.clears built.body.id) = true := by
    rw [known.1]
    rfl
  rw [if_pos cleared] at kids
  exact ⟨root, now, built, loaded, left, there, stands, known.2, kids⟩

end Element

end LayerTree
