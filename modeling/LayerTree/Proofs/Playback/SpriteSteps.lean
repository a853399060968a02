import LayerTree.Proofs.Element.Layered
import LayerTree.Proofs.Layout.Tiled
import LayerTree.Proofs.Playback.Sprites
import LayerTree.Proofs.Playback.Standing

/-!
Only the last offset counts for stepping sprites.

A clock comes to a column of its sheet at every offset, whatever the offset is. What a sprite shows
then is told by the clock alone. So an offset undoes what the offsets before it did, and passing it
once more does nothing.
-/

set_option autoImplicit false
set_option relaxedAutoImplicit false

namespace LayerTree

variable {α : Type} [Scalar α]

namespace SpriteClock

theorem stepAt_start_lt (slice : Cell) (slotRow : Nat) (repeatCount t : α) :
    0 < (start slice slotRow repeatCount).slice.column ∧
      (start slice slotRow repeatCount).stepAt t <
        (start slice slotRow repeatCount).slice.column := by
  have pos : 0 < (start slice slotRow repeatCount).slice.column :=
    Nat.lt_of_lt_of_le Nat.one_pos (Nat.le_max_right _ _)
  refine ⟨pos, ?_⟩
  unfold stepAt
  dsimp only
  split
  · exact pos
  · exact Nat.mod_lt _ pos

theorem advance_snd (clock : SpriteClock α) (t : α) :
    (clock.advance t).2 = { clock with step := some (clock.stepAt t) } := by
  unfold advance
  dsimp only
  split
  · next same =>
    have here : clock.step = some (clock.stepAt t) := by simpa using same
    rw [← here]
  · rfl

theorem advance_advance (clock : SpriteClock α) (t t' : α) :
    ((clock.advance t).2.advance t').2 = (clock.advance t').2 := by
  simp only [advance_snd, stepAt]

end SpriteClock

omit [Scalar α] in
theorem Layers.showCell_of_shown {l : Layers α} {rect : Rect α}
    (shown : l.sprite?.map SpriteLayer.contentsRect = some rect) : l.showCell rect = l := by
  obtain ⟨layer, found, rfl⟩ := Option.map_eq_some_iff.mp shown
  have here := sprite?_eq_some found
  rcases l with ⟨style, primary, tiling, mask, text, richText⟩
  obtain rfl : primary = some (.sprite layer) := here
  rfl

namespace Body

theorem Seated.stepSprite_eq {b : Body α} (seated : b.Seated) {clock : SpriteClock α}
    (started : b.sprite = some clock) (t : α) :
    b.stepSprite t = { b with
      sprite := some (clock.advance t).2
      layers := b.layers.showCell (clock.rectOf (clock.stepAt t)) } := by
  unfold stepSprite
  simp only [started]
  rcases clock.advance_cases t with ⟨still, eq⟩ | eq
  · have shown := (seated clock started).2 _ still
    simp only [eq, Layers.showCell_of_shown shown]
  · simp only [eq]

/-- A step leaves no trace of the one before it. -/
theorem Seated.stepSprite_stepSprite {b : Body α} (seated : b.Seated) (t t' : α) :
    (b.stepSprite t).stepSprite t' = b.stepSprite t' := by
  cases started : b.sprite with
  | none =>
    have still : ∀ t, b.stepSprite t = b := fun t => by simp only [stepSprite, started]
    rw [still t, still t']
  | some clock =>
    have moved : (b.stepSprite t).sprite = some (clock.advance t).2 := by
      rw [stepSprite_sprite, started, Option.map_some]
    rw [(seated.shows_stepSprite t).seated.stepSprite_eq moved, seated.stepSprite_eq started,
      seated.stepSprite_eq started]
    simp only [SpriteClock.advance_advance, SpriteClock.rectOf_advance, SpriteClock.stepAt_advance,
      Layers.showCell_showCell]

theorem applyOffset_of_silent {b : Body α} (silent : b.video = none) (ready : Player → Bool) (t : α)
    (autoplay : Bool) : (b.applyOffset ready t autoplay).2 = b.stepSprite t := by
  unfold applyOffset
  split
  · rfl
  · simp only [seekVideo, stepSprite_video, silent]

omit [Scalar α] in
theorem Layered.silent {b : Body α} (layered : b.Layered) (steps : b.sprite.isSome = true) :
    b.video = none := by
  obtain ⟨clock, started⟩ := Option.isSome_iff_exists.mp steps
  obtain ⟨sheet, sprite, -⟩ := layered.clock clock started
  cases playing : b.video with
  | none => rfl
  | some video =>
    obtain ⟨surface, shown⟩ := layered.video (by rw [playing]; rfl)
    exact nomatch sprite.symm.trans shown

structure Steppable (b : Body α) : Prop where
  seated : b.Seated
  silent : b.sprite.isSome = true → b.video = none

theorem isSome_sprite_applyOffset (ready : Player → Bool) (t : α) (autoplay : Bool) (b : Body α) :
    (b.applyOffset ready t autoplay).2.sprite.isSome = b.sprite.isSome := by
  rw [(sameSprite_applyOffset ready t autoplay b).sprite, stepSprite_sprite, Option.isSome_map]

theorem Steppable.applyOffset {b : Body α} (h : b.Steppable) (ready : Player → Bool) (t : α)
    (autoplay : Bool) : (b.applyOffset ready t autoplay).2.Steppable where
  seated := h.seated.applyOffset ready t autoplay
  silent steps := by
    rw [isSome_sprite_applyOffset] at steps
    rw [applyOffset_of_silent (h.silent steps), stepSprite_video, h.silent steps]

end Body

namespace Element

def steppers (e : Element α) : List (Body α) := e.toList.filter fun b => b.sprite.isSome

def Offsets (operations : List (Operation α)) : Prop :=
  ∀ o ∈ operations, o.offset?.isSome = true

/-- How the stepping sprites of a tree follow the timeline. -/
structure FollowsLast (e : Element α) : Prop where
  /-- They come to the step of the last offset and show its cell. -/
  arrives : ∀ earlier last t, Offsets (earlier ++ [last]) → last.offset? = some t →
    (e.drive (earlier ++ [last])).2.Shows t
  /-- They show the cell of the step that they are at. -/
  seated : ∀ operations, Offsets operations → ∀ b ∈ (e.drive operations).2.toList, b.Seated
  /-- The last offset does what it does alone. -/
  forgets : ∀ earlier last, Offsets (earlier ++ [last]) →
    (e.drive (earlier ++ [last])).2.steppers = (e.drive [last]).2.steppers
  /-- The same offset once more, played or sought, does nothing. -/
  repeats : ∀ earlier last again, Offsets (earlier ++ [last]) → again.offset? = last.offset? →
    (e.drive (earlier ++ [last, again])).2.steppers = (e.drive (earlier ++ [last])).2.steppers

theorem Offsets.of_concat {operations : List (Operation α)} {last : Operation α}
    (offsets : Offsets (operations ++ [last])) :
    Offsets operations ∧ ∃ t, last.offset? = some t := by
  refine ⟨fun o ho => offsets o (List.mem_append_left _ ho), Option.isSome_iff_exists.mp ?_⟩
  exact offsets last (List.mem_append_right _ List.mem_cons_self)

variable {e : Element α} {t : α}

theorem toList_perform_offset {operation : Operation α} (passes : operation.offset? = some t)
    (e : Element α) : ∃ ready autoplay, (operation.perform e).2.toList =
      e.toList.map fun b => (b.applyOffset ready t autoplay).2 := by
  cases operation with
  | setTimeOffset ready t' autoplay =>
    obtain ⟨⟨low, high⟩, same⟩ := Option.ite_none_right_eq_some.mp passes
    obtain rfl := Option.some.inj same
    exact ⟨ready, autoplay, toList_setTimeOffset low high ready autoplay e⟩
  | _ => cases passes

section

variable (steppable : ∀ b ∈ e.toList, b.Steppable)

include steppable

theorem steppable_perform {operation : Operation α} (passes : operation.offset? = some t) :
    ∀ b ∈ (operation.perform e).2.toList, b.Steppable := by
  obtain ⟨ready, autoplay, eq⟩ := toList_perform_offset passes e
  intro b' hb'
  rw [eq] at hb'
  obtain ⟨b, hb, rfl⟩ := List.mem_map.mp hb'
  exact (steppable b hb).applyOffset ready t autoplay

theorem shows_perform {operation : Operation α} (passes : operation.offset? = some t) :
    (operation.perform e).2.Shows t := by
  obtain ⟨ready, autoplay, eq⟩ := toList_perform_offset passes e
  intro b' hb'
  rw [eq] at hb'
  obtain ⟨b, hb, rfl⟩ := List.mem_map.mp hb'
  exact ((steppable b hb).seated.shows_applyOffset_iff ready t autoplay).mpr fun _ _ => rfl

theorem steppers_perform {operation : Operation α} (passes : operation.offset? = some t) :
    (operation.perform e).2.steppers = e.steppers.map (Body.stepSprite t) := by
  obtain ⟨ready, autoplay, eq⟩ := toList_perform_offset passes e
  have same : (fun b : Body α => b.sprite.isSome) ∘
      (fun b : Body α => (b.applyOffset ready t autoplay).2) = fun b => b.sprite.isSome :=
    funext (Body.isSome_sprite_applyOffset ready t autoplay)
  unfold steppers
  rw [eq, List.filter_map, same]
  refine List.map_congr_left fun b hb => ?_
  obtain ⟨inside, steps⟩ := List.mem_filter.mp hb
  exact Body.applyOffset_of_silent ((steppable b inside).silent steps) ready t autoplay

theorem steppable_drive {operations : List (Operation α)} (offsets : Offsets operations) :
    ∀ b ∈ (e.drive operations).2.toList, b.Steppable := by
  induction operations using List.reverseRecOn with
  | nil => exact steppable
  | append_singleton operations operation ih =>
    obtain ⟨before, t, passes⟩ := offsets.of_concat
    rw [drive_concat]
    exact steppable_perform (ih before) passes

theorem steppers_drive {earlier : List (Operation α)} {last : Operation α}
    (offsets : Offsets earlier) (passes : last.offset? = some t) :
    (e.drive (earlier ++ [last])).2.steppers = e.steppers.map (Body.stepSprite t) := by
  rw [drive_concat, steppers_perform (steppable_drive steppable offsets) passes]
  induction earlier using List.reverseRecOn generalizing t with
  | nil => rfl
  | append_singleton earlier operation ih =>
    -- the offset before the last one is overwritten by it
    obtain ⟨before, t', passes'⟩ := offsets.of_concat
    have steppable' := steppable_drive steppable before
    rw [← ih before passes, drive_concat, steppers_perform steppable' passes', List.map_map]
    refine List.map_congr_left fun b hb => ?_
    exact (steppable' b (List.mem_filter.mp hb).1).seated.stepSprite_stepSprite t' t

theorem followsLast : e.FollowsLast where
  arrives earlier last t offsets passes := by
    rw [drive_concat]
    exact shows_perform (steppable_drive steppable offsets.of_concat.1) passes
  seated operations offsets b hb := (steppable_drive steppable offsets b hb).seated
  forgets earlier last offsets := by
    obtain ⟨before, t, passes⟩ := offsets.of_concat
    have alone : Offsets ([] : List (Operation α)) := fun _ mem => absurd mem List.not_mem_nil
    exact (steppers_drive steppable before passes).trans
      (steppers_drive steppable alone passes).symm
  repeats earlier last again offsets same := by
    obtain ⟨before, t, passes⟩ := offsets.of_concat
    have longer : earlier ++ [last, again] = earlier ++ [last] ++ [again] := by simp
    rw [longer, steppers_drive steppable offsets (same.trans passes),
      steppers_drive steppable before passes]

end

theorem Reachable.layered {root : Element Float} (reachable : root.Reachable) :
    ∀ b ∈ root.toList, b.Layered := by
  obtain ⟨root, calls, loaded, rfl⟩ := reachable
  have built : ∀ b ∈ root.toList, b.Layered := by
    intro b hb
    obtain ⟨σ, h, depth, desc, dimension, k, first, s, loads⟩ := loaded
    obtain ⟨container, _, here⟩ := (mirrors_of_loadWithin loads).renders b hb
    obtain ⟨s, same, -⟩ := here.built
    rw [← same]
    exact (Build.body_layered Build.one_le_cellCount h dimension k b.info container b.id s).1
  have keeps : ∀ b b' : Body Float, b.KeepsLayers b' → b.Layered → b'.Layered :=
    fun b b' move layered => move.layered layered
  obtain ⟨-, all, -⟩ := run_keeps (G := fun _ _ => True) (Body.KeepsLayers.moves keeps)
    (fun _ _ _ => trivial) calls root [] loaded.nodup_ids built fun _ => trivial
  exact all

/-- Whatever was done with a loaded tree: when offsets are passed to any of its elements, the last
one alone tells where the stepping sprites below are, and they show the cell of their step. At every
offset a clock is in its row. The cells of a sheet meet at their edges and divide the sheet. -/
theorem Reachable.sprites_follow_last {root e : Element Float} (reachable : root.Reachable)
    {id : ElementId} (there : subtree? id root = some e) :
    e.FollowsLast ∧
      (∀ slice slotRow (repeatCount t : Float),
        0 < (SpriteClock.start slice slotRow repeatCount).slice.column ∧
        (SpriteClock.start slice slotRow repeatCount).stepAt t <
          (SpriteClock.start slice slotRow repeatCount).slice.column) ∧
      ∀ slice : Cell, slice.Abut ∧ slice.Tile := by
  have steppable : ∀ b ∈ e.toList, b.Steppable := by
    intro b hb
    have inside := (subtree?_sublist there).subset hb
    exact ⟨reachable.seated b inside, (reachable.layered b inside).silent⟩
  exact ⟨followsLast steppable, SpriteClock.stepAt_start_lt, fun slice => ⟨slice.abut, slice.tile⟩⟩

theorem Reachable.sprites_follow_last_film : ∃ root e : Element Float, root.Reachable ∧
    subtree? 1 root = some e ∧
    e.steppers.map (fun b => b.sprite.bind SpriteClock.step) = [some 1] ∧
    (∀ early ready : Player → Bool,
      (e.drive [.setTimeOffset early 0.75 false, .setTimeOffset ready 0.5 true]).2.steppers =
        (e.drive [.setTimeOffset ready 0.5 true]).2.steppers ∧
      (e.drive [.setTimeOffset early 0.75 false, .setTimeOffset ready 0.5 true]).2.Shows 0.5) := by
  let scrub : List (Call Float) :=
    [⟨0, .setTimeOffset (fun _ => true) 0.25 false⟩, ⟨0, .pauseAutoplay⟩]
  have seen : (projected (.film "a.mp4" [.strip "s.png"])).any fun root =>
      (subtree? 1 (root.run scrub).2).any fun e =>
        decide (e.steppers.map (fun b => b.sprite.bind SpriteClock.step) = [some 1]) := by
    decide +kernel
  obtain ⟨root, loaded, found⟩ := exists_loaded_of_projected seen
  obtain ⟨e, there, stepping⟩ := (Option.any_eq_true _ _).mp found
  obtain ⟨follows, -⟩ := Reachable.sprites_follow_last ⟨root, scrub, loaded, rfl⟩ there
  refine ⟨_, e, ⟨root, scrub, loaded, rfl⟩, there, of_decide_eq_true stepping, ?_⟩
  intro early ready
  have first : (0 : Float) ≤ 0.75 ∧ (0.75 : Float) ≤ 1 := by decide +kernel
  have last : (0 : Float) ≤ 0.5 ∧ (0.5 : Float) ≤ 1 := by decide +kernel
  have latest : (Operation.setTimeOffset ready (0.5 : Float) true).offset? = some 0.5 := by
    simp [Operation.offset?, last]
  have offsets : Offsets
      ([.setTimeOffset early 0.75 false] ++ [.setTimeOffset ready 0.5 true]) := by
    simp [Offsets, Operation.offset?, first, last]
  exact ⟨follows.forgets _ _ offsets, follows.arrives _ _ 0.5 offsets latest⟩

end Element

end LayerTree
