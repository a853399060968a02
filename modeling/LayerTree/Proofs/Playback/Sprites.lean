import LayerTree.Proofs.Playback.Drained
import LayerTree.Proofs.Playback.Remains

/-!
What stepping sprites show.

An offset that a host passes reaches every sprite of the tree. An offset that was pending reaches
the sprites of its video's subtree once more, when newer ones may have been passed as hints only. So
the sprites go on showing the newest offset exactly as long as no completion brings an older one
back.
-/

set_option autoImplicit false
set_option relaxedAutoImplicit false

namespace LayerTree

variable {α : Type}

namespace SpriteClock

variable [Scalar α] (clock : SpriteClock α) (t : α)

@[simp] theorem step_advance : (clock.advance t).2.step = some (clock.stepAt t) := by
  unfold advance
  dsimp only
  split
  · next same => simpa using same
  · rfl

@[simp] theorem stepAt_advance (t' : α) : (clock.advance t).2.stepAt t' = clock.stepAt t' := by
  unfold advance
  dsimp only
  split <;> rfl

@[simp] theorem rectOf_advance (column : Nat) :
    (clock.advance t).2.rectOf column = clock.rectOf column := by
  unfold advance
  dsimp only
  split <;> rfl

theorem advance_cases :
    (clock.step = some (clock.stepAt t) ∧ (clock.advance t).1 = none) ∨
      (clock.advance t).1 = some (clock.rectOf (clock.stepAt t)) := by
  unfold advance
  dsimp only
  split
  · next same => exact .inl ⟨by simpa using same, rfl⟩
  · exact .inr rfl

end SpriteClock

theorem Layers.sprite?_showCell (rect : Rect α) (l : Layers α) :
    (l.showCell rect).sprite? =
      l.sprite?.map fun layer => { layer with contentsRect := rect } := by
  unfold showCell sprite?
  cases primary : l.primary with
  | none => simp [primary]
  | some content => cases content <;> simp [primary]

namespace Body

def cell? (b : Body α) : Option (Rect α) := b.layers.sprite?.map SpriteLayer.contentsRect

variable [Scalar α]

/-- A stepping sprite shows the cell of the step that it is at, if it is at one. -/
def Seated (b : Body α) : Prop :=
  ∀ clock, b.sprite = some clock → b.cell?.isSome = true ∧
    ∀ column, clock.step = some column → b.cell? = some (clock.rectOf column)

/-- A stepping sprite is at the step of an offset and shows its cell. -/
def Shows (t : α) (b : Body α) : Prop :=
  ∀ clock, b.sprite = some clock →
    clock.step = some (clock.stepAt t) ∧ b.cell? = some (clock.rectOf (clock.stepAt t))

theorem Fresh.seated {b : Body α} (h : b.Fresh) : b.Seated := by
  intro clock same
  obtain ⟨count, built⟩ := h.sprite
  rw [built] at same
  unfold Build.spriteClock? at same
  obtain ⟨n, -, started⟩ := Option.bind_eq_some_iff.mp same
  obtain ⟨layer, hlayer, started⟩ := Option.bind_eq_some_iff.mp started
  obtain rfl := Option.some.inj started
  exact ⟨by simp [cell?, hlayer], nofun⟩

theorem stepSprite_sprite (t : α) (b : Body α) :
    (b.stepSprite t).sprite = b.sprite.map fun clock => (clock.advance t).2 := by
  unfold stepSprite
  cases hclock : b.sprite with
  | none => simp [hclock]
  | some clock => rfl

theorem Seated.shows_stepSprite {b : Body α} (h : b.Seated) (t : α) : (b.stepSprite t).Shows t := by
  intro clock' same
  rw [stepSprite_sprite] at same
  obtain ⟨clock, hclock, rfl⟩ := Option.map_eq_some_iff.mp same
  obtain ⟨shown, cell⟩ := h clock hclock
  refine ⟨by simp, ?_⟩
  unfold stepSprite
  rcases clock.advance_cases t with ⟨still, eq⟩ | eq
  · simpa [hclock, cell?, eq] using cell _ still
  · obtain ⟨rect, hrect⟩ := Option.isSome_iff_exists.mp shown
    obtain ⟨layer, hlayer, -⟩ := Option.map_eq_some_iff.mp hrect
    simp [hclock, cell?, eq, Layers.sprite?_showCell, hlayer]

structure SameSprite (b b' : Body α) : Prop where
  sprite : b'.sprite = b.sprite
  cell : b'.cell? = b.cell?

namespace SameSprite

variable {b b' : Body α} (same : SameSprite b b')

include same

theorem seated (h : b.Seated) : b'.Seated := by
  intro clock hclock
  rw [same.cell]
  exact h clock (same.sprite ▸ hclock)

theorem shows {t : α} (h : b.Shows t) : b'.Shows t := by
  intro clock hclock
  rw [same.cell]
  exact h clock (same.sprite ▸ hclock)

end SameSprite

omit [Scalar α] in
theorem sameSprite_landed {b c : Body α} (h : c = b ∨ c = b.landed) : SameSprite b c := by
  rcases h with rfl | rfl
  · exact ⟨rfl, rfl⟩
  · exact ⟨rfl, rfl⟩

theorem sameSprite_seekVideo (ready : Player → Bool) (t : α) (b : Body α) :
    SameSprite b (b.seekVideo ready t).2 := by
  rcases b.seekVideo_cases ready t with
    ⟨eq, -⟩ | ⟨video, ticket, -, -, eq⟩ | ⟨video, -, -, -, eq⟩ <;> rw [eq] <;> exact ⟨rfl, rfl⟩

theorem sameSprite_applyOffset (ready : Player → Bool) (t : α) (autoplay : Bool) (b : Body α) :
    SameSprite (b.stepSprite t) (b.applyOffset ready t autoplay).2 := by
  cases autoplay with
  | true => exact ⟨rfl, rfl⟩
  | false => exact sameSprite_seekVideo ready t (b.stepSprite t)

/-- A stepping sprite is at the same step at two offsets. -/
def SameStep (t t' : α) (b : Body α) : Prop :=
  ∀ clock, b.sprite = some clock → clock.stepAt t = clock.stepAt t'

theorem Seated.shows_applyOffset_iff {b : Body α} (h : b.Seated) (ready : Player → Bool)
    (t : α) (autoplay : Bool) {t' : α} :
    (b.applyOffset ready t autoplay).2.Shows t' ↔ b.SameStep t t' := by
  have shows : (b.applyOffset ready t autoplay).2.Shows t :=
    (sameSprite_applyOffset ready t autoplay b).shows (h.shows_stepSprite t)
  have sprite : (b.applyOffset ready t autoplay).2.sprite =
      b.sprite.map fun clock => (clock.advance t).2 :=
    (sameSprite_applyOffset ready t autoplay b).sprite.trans (stepSprite_sprite t b)
  constructor
  · intro shows' clock hclock
    have moved : (b.applyOffset ready t autoplay).2.sprite = some (clock.advance t).2 := by
      rw [sprite, hclock, Option.map_some]
    have steps := (shows _ moved).1.symm.trans (shows' _ moved).1
    simpa using steps
  · intro same clock' moved
    obtain ⟨step, cell⟩ := shows clock' moved
    rw [sprite] at moved
    obtain ⟨clock, hclock, rfl⟩ := Option.map_eq_some_iff.mp moved
    simpa [same clock hclock] using And.intro step cell

theorem Shows.seated {t : α} {b : Body α} (h : b.Shows t) : b.Seated := by
  intro clock same
  obtain ⟨step, cell⟩ := h clock same
  refine ⟨by simp [cell], fun column here => ?_⟩
  obtain rfl := Option.some.inj (step.symm.trans here)
  exact cell

theorem Seated.applyOffset {b : Body α} (h : b.Seated) (ready : Player → Bool) (t : α)
    (autoplay : Bool) : (b.applyOffset ready t autoplay).2.Seated :=
  ((h.shows_applyOffset_iff ready t autoplay).mpr fun _ _ => rfl).seated

theorem SeekSound.pending_applyOffset {b : Body α} (sound : b.SeekSound) {ready : Player → Bool}
    {t t' : α} (pending : (b.applyOffset ready t false).2.seek.pending = some t') : t' = t := by
  rw [applyOffset_false] at pending
  rcases (b.stepSprite t).seekVideo_cases ready t with
    ⟨eq, still⟩ | ⟨video, ticket, -, -, eq⟩ | ⟨video, -, flying, -, eq⟩
  · rw [eq, stepSprite_seek] at pending
    obtain ⟨ticket, hticket⟩ := Option.isSome_iff_exists.mp (sound.pending t' pending).1
    obtain ⟨video, hvideo⟩ := Option.isSome_iff_exists.mp (sound.inFlight ticket hticket).2.2.2
    have unasked := (still video ((stepSprite_video t b).trans hvideo)).1
    simp [hticket] at unasked
  · simpa [eq, SeekState.postpone] using pending.symm
  · have kept : b.seek.pending = some t' := by simpa [eq, SeekState.issue] using pending
    have flying' := (sound.pending t' kept).1
    simp only [stepSprite_seek] at flying
    simp [flying] at flying'

theorem SeekSound.landed (b : Body α) : b.landed.SeekSound := ⟨nofun, nofun⟩

theorem Seated.moves :
    Moves (Carries (fun _ : List (Occurrence α) => Seated) fun _ => Seated) where
  stay := Carries.stay fun _ _ h => h
  follow := Carries.follow
  fade b opacity _ h := SameSprite.seated ⟨rfl, rfl⟩ h
  apply ready t autoplay b _ _ _ h := h.applyOffset ready t autoplay
  land _ _ _ _ _ h := SameSprite.seated ⟨rfl, rfl⟩ h
  start b _ h := by
    rcases b.startVideo_cases with ⟨eq, -⟩ | ⟨video, -, -, eq⟩ <;> rw [eq] <;>
      exact SameSprite.seated ⟨rfl, rfl⟩ h
  pause b _ h := by
    rcases b.pauseVideo_cases with ⟨eq, -⟩ | ⟨video, -, -, eq⟩ <;> rw [eq] <;>
      exact SameSprite.seated ⟨rfl, rfl⟩ h
  finish repeats b video _ _ h := by
    unfold endVideo
    repeat' split
    all_goals exact SameSprite.seated ⟨rfl, rfl⟩ h
  tap _ _ _ _ h := h
  drop _ _ h := SameSprite.seated ⟨rfl, rfl⟩ h

end Body

/-! The offsets that a host passed. -/

namespace Operation

variable [Scalar α]

def offset? : Operation α → Option α
  | setTimeOffset _ t _ => if 0 ≤ t ∧ t ≤ 1 then some t else none
  | _ => none

/-- The offset on the timeline that an operation sends videos to. -/
def sought? : Operation α → Option α
  | setTimeOffset _ t false => if 0 ≤ t ∧ t ≤ 1 then some t else none
  | _ => none

def newest (operations : List (Operation α)) : Option α :=
  (operations.filterMap offset?).getLast?

def newestSought (operations : List (Operation α)) : Option α :=
  (operations.filterMap sought?).getLast?

omit [Scalar α] in
private theorem getLast?_filterMap_concat (read : Operation α → Option α)
    (operations : List (Operation α)) (operation : Operation α) :
    ((operations ++ [operation]).filterMap read).getLast? =
      (read operation).or (operations.filterMap read).getLast? := by
  rw [List.filterMap_append, List.getLast?_append]
  cases h : read operation <;> simp [h]

theorem newest_concat (operations : List (Operation α)) (operation : Operation α) :
    newest (operations ++ [operation]) = operation.offset?.or (newest operations) :=
  getLast?_filterMap_concat offset? operations operation

theorem newestSought_concat (operations : List (Operation α)) (operation : Operation α) :
    newestSought (operations ++ [operation]) = operation.sought?.or (newestSought operations) :=
  getLast?_filterMap_concat sought? operations operation

end Operation

namespace Element

variable [Scalar α]

def Shows (t : α) (e : Element α) : Prop := ∀ b ∈ e.toList, b.Shows t

def SameSteps (t t' : α) (e : Element α) : Prop := ∀ b ∈ e.toList, b.SameStep t t'

def AwaitsOnly (t : Option α) (e : Element α) : Prop :=
  ∀ b ∈ e.toList, ∀ t', b.seek.pending = some t' → t = some t'

variable {e : Element α} {ready : Player → Bool} {ticket : SeekTicket} {t : α}

theorem shows_setTimeOffset (seated : ∀ b ∈ e.toList, b.Seated) (low : 0 ≤ t) (high : t ≤ 1)
    (autoplay : Bool) : (e.setTimeOffset ready t autoplay).2.Shows t := by
  intro b' hb'
  rw [toList_setTimeOffset low high] at hb'
  obtain ⟨b, hb, rfl⟩ := List.mem_map.mp hb'
  exact ((seated b hb).shows_applyOffset_iff ready t autoplay).mpr fun _ _ => rfl

/-- A completion moves no sprite, except to an offset that was pending, if that is at another
step. -/
theorem shows_completeSeek_iff (seated : ∀ b ∈ e.toList, b.Seated)
    (sound : ∀ b ∈ e.toList, b.SeekSound) (shows : e.Shows t) :
    (e.completeSeek ready ticket).2.Shows t ↔
      ∀ sub t', e.Drains ready ticket sub t' → sub.SameSteps t' t := by
  constructor
  · intro shows' sub t' drains b hb
    obtain ⟨low, high⟩ := drains.range sound
    obtain ⟨c, hc, origin⟩ := exists_mem_landed hb
    have same := Body.sameSprite_landed origin
    have seated' : c.Seated := same.seated (seated b (drains.mem_of_mem hb))
    have reached : (c.applyOffset ready t' false).2 ∈ (e.completeSeek ready ticket).2.toList := by
      refine drains.answer.2 _ ?_
      rw [toList_setTimeOffset low high]
      exact List.mem_map_of_mem hc
    have steps := (seated'.shows_applyOffset_iff ready t' false).mp (shows' _ reached)
    exact fun clock hclock => steps clock (same.sprite.trans hclock)
  · intro steps b' hb'
    rcases mem_completeSeek hb' with before | ⟨b, hb, rfl⟩ | ⟨sub, t', drains, reached⟩
    · exact shows b' before
    · exact (Body.sameSprite_landed (.inr rfl)).shows (shows b hb)
    · obtain ⟨low, high⟩ := drains.range sound
      rw [toList_setTimeOffset low high] at reached
      obtain ⟨c, hc, rfl⟩ := List.mem_map.mp reached
      obtain ⟨b, hb, origin⟩ := exists_of_mem_landed hc
      have same := Body.sameSprite_landed origin
      have seated' : c.Seated := same.seated (seated b (drains.mem_of_mem hb))
      exact (seated'.shows_applyOffset_iff ready t' false).mpr fun clock hclock =>
        steps sub t' drains b hb clock (same.sprite.symm.trans hclock)

theorem awaitsOnly_setTimeOffset (sound : ∀ b ∈ e.toList, b.SeekSound) (low : 0 ≤ t)
    (high : t ≤ 1) : (e.setTimeOffset ready t false).2.AwaitsOnly (some t) := by
  intro b' hb' t' pending
  rw [toList_setTimeOffset low high] at hb'
  obtain ⟨b, hb, rfl⟩ := List.mem_map.mp hb'
  rw [(sound b hb).pending_applyOffset pending]

theorem AwaitsOnly.completeSeek {sought : Option α} (h : e.AwaitsOnly sought)
    (sound : ∀ b ∈ e.toList, b.SeekSound) :
    (e.completeSeek ready ticket).2.AwaitsOnly sought := by
  intro b' hb' t' pending
  rcases mem_completeSeek hb' with before | ⟨b, hb, rfl⟩ | ⟨sub, t, drains, reached⟩
  · exact h b' before t' pending
  · simp [SeekState.reset] at pending
  · obtain ⟨low, high⟩ := drains.range sound
    have landed : ∀ c ∈ sub.landed.toList, c.SeekSound := by
      intro c hc
      obtain ⟨b, hb, rfl | rfl⟩ := exists_of_mem_landed hc
      · exact sound _ (drains.mem_of_mem hb)
      · exact .landed b
    rw [h _ (drains.mem_of_mem (body_mem_toList sub)) t drains.pending]
    exact awaitsOnly_setTimeOffset landed low high b' reached t' pending

theorem AwaitsOnly.perform {sought : Option α} (h : e.AwaitsOnly sought)
    (sound : ∀ b ∈ e.toList, b.SeekSound) {operation : Operation α}
    (scrub : operation.isSeekless = false) :
    (operation.perform e).2.AwaitsOnly (operation.sought?.or sought) := by
  cases operation with
  | setTimeOffset ready t autoplay =>
    by_cases range : 0 ≤ t ∧ t ≤ 1
    · cases autoplay with
      | true =>
        intro b' hb' t' pending
        simp only [Operation.perform] at hb'
        rw [toList_setTimeOffset range.1 range.2] at hb'
        obtain ⟨b, hb, rfl⟩ := List.mem_map.mp hb'
        exact h b hb t' (by simpa [Body.applyOffset] using pending)
      | false =>
        have only : (e.setTimeOffset ready t false).2.AwaitsOnly (some t) :=
          awaitsOnly_setTimeOffset sound range.1 range.2
        simpa [Operation.perform, Operation.sought?, range] using only
    · have nothing : (e.setTimeOffset ready t autoplay) = ([], e) := if_neg range
      have unsought : (Operation.setTimeOffset ready t autoplay).sought? = none := by
        cases autoplay <;> simp [Operation.sought?, range]
      simpa [Operation.perform, nothing, unsought] using h
  | completeSeek ready ticket => exact h.completeSeek sound
  | _ => simp [Operation.isSeekless] at scrub

theorem Shows.perform (seated : ∀ b ∈ e.toList, b.Seated) (sound : ∀ b ∈ e.toList, b.SeekSound)
    {newest : Option α} (shows : ∀ t, newest = some t → e.Shows t) {operation : Operation α}
    (scrub : operation.isSeekless = false)
    (steady : ∀ ready ticket, operation = .completeSeek ready ticket →
      ∀ sub t', e.Drains ready ticket sub t' → ∀ t, newest = some t → sub.SameSteps t' t) :
    ∀ t, operation.offset?.or newest = some t → (operation.perform e).2.Shows t := by
  intro t latest
  cases operation with
  | setTimeOffset ready t' autoplay =>
    by_cases range : 0 ≤ t' ∧ t' ≤ 1
    · obtain rfl : t' = t := by simpa [Operation.offset?, range] using latest
      exact shows_setTimeOffset seated range.1 range.2 autoplay
    · have nothing : (e.setTimeOffset ready t' autoplay) = ([], e) := if_neg range
      simp only [Operation.perform, nothing]
      exact shows t (by simpa [Operation.offset?, range] using latest)
  | completeSeek ready ticket =>
    have before : newest = some t := by simpa [Operation.offset?] using latest
    exact (shows_completeSeek_iff seated sound (shows t before)).mpr fun sub t' drains =>
      steady ready ticket rfl sub t' drains t before
  | _ => simp [Operation.isSeekless] at scrub

variable [Analytic α]

theorem Reachable.seated (reachable : e.Reachable) : ∀ b ∈ e.toList, b.Seated := by
  obtain ⟨root, calls, loaded, rfl⟩ := reachable
  obtain ⟨-, all, -⟩ := run_keeps (G := fun _ _ => True) Body.Seated.moves (fun _ _ _ => trivial)
    calls root [] loaded.nodup_ids (fun b hb => (loaded.fresh hb).seated) fun _ => trivial
  exact all

/-- No completion of a run brings an offset back at which some sprite that it reaches is at another
step than at the newest one. -/
def NeverReverts (root : Element α) (operations : List (Operation α)) : Prop :=
  ∀ before ready ticket, before ++ [.completeSeek ready ticket] <+: operations →
    ∀ sub t', (root.drive before).2.Drains ready ticket sub t' →
      ∀ t, Operation.newest before = some t → sub.SameSteps t' t

variable {root : Element α}

theorem Loaded.reachable_drive (loaded : root.Loaded) (operations : List (Operation α)) :
    (root.drive operations).2.Reachable :=
  ⟨root, operations.map (Call.mk root.body.id), loaded, rfl⟩

theorem Loaded.awaitsOnly_drive (loaded : root.Loaded) (operations : List (Operation α))
    (scrub : ∀ o ∈ operations, o.isSeekless = false) :
    (root.drive operations).2.AwaitsOnly (Operation.newestSought operations) := by
  induction operations using List.reverseRecOn with
  | nil =>
    intro b hb t pending
    simp [loaded.seek_eq hb, SeekState.initial] at pending
  | append_singleton operations operation ih =>
    have before := ih fun o ho => scrub o (List.mem_append_left _ ho)
    rw [drive_concat, Operation.newestSought_concat]
    exact before.perform (loaded.reachable_drive operations).sound
      (scrub operation (List.mem_append_right _ List.mem_cons_self))

theorem Loaded.shows_drive (loaded : root.Loaded) (operations : List (Operation α))
    (scrub : ∀ o ∈ operations, o.isSeekless = false) (steady : root.NeverReverts operations) :
    ∀ t, Operation.newest operations = some t → (root.drive operations).2.Shows t := by
  induction operations using List.reverseRecOn with
  | nil => exact nofun
  | append_singleton operations operation ih =>
    have steady' : root.NeverReverts operations := fun first ready ticket part =>
      steady first ready ticket (part.trans (List.prefix_append operations [operation]))
    have before := ih (fun o ho => scrub o (List.mem_append_left _ ho)) steady'
    have reachable := loaded.reachable_drive operations
    rw [drive_concat, Operation.newest_concat]
    refine Shows.perform reachable.seated reachable.sound before
      (scrub operation (List.mem_append_right _ List.mem_cons_self)) ?_
    rintro ready ticket rfl
    exact steady operations ready ticket (List.prefix_refl _)

/-- During a scrub of the whole tree, whatever the players answer, all stepping sprites show the
newest offset after every step, if and only if no completion brings an older one back. What a
completion can bring back is only the newest offset that was not just a hint. -/
theorem Loaded.sprites_show_newest_iff (loaded : root.Loaded) (operations : List (Operation α))
    (scrub : ∀ o ∈ operations, o.isSeekless = false) :
    ((∀ before, before <+: operations → ∀ t, Operation.newest before = some t →
        (root.drive before).2.Shows t) ↔ root.NeverReverts operations) ∧
      ∀ before, before <+: operations →
        (root.drive before).2.AwaitsOnly (Operation.newestSought before) := by
  refine ⟨⟨fun shows before ready ticket part sub t' drains t latest => ?_,
    fun steady before part => ?_⟩, fun before part => ?_⟩
  · have reachable := loaded.reachable_drive before
    have first := shows before ((List.prefix_append _ _).trans part) t latest
    have second := shows _ part t (by simpa [Operation.newest_concat, Operation.offset?])
    rw [drive_concat] at second
    exact (shows_completeSeek_iff reachable.seated reachable.sound first).mp second sub t' drains
  · exact loaded.shows_drive before (fun o ho => scrub o (part.subset ho))
      fun first ready ticket inside => steady first ready ticket (inside.trans part)
  · exact loaded.awaitsOnly_drive before fun o ho => scrub o (part.subset ho)

theorem Loaded.neverReverts (loaded : root.Loaded) {operations : List (Operation α)}
    (scrub : ∀ o ∈ operations, o.isSeekless = false)
    (followed : ∀ before ready ticket, before ++ [.completeSeek ready ticket] <+: operations →
      Operation.newest before = Operation.newestSought before) : root.NeverReverts operations := by
  intro before ready ticket part sub t' drains t latest b hb clock hclock
  have inside := (List.prefix_append before [.completeSeek ready ticket]).trans part
  have only := loaded.awaitsOnly_drive before fun o ho => scrub o (inside.subset ho)
  have sought := only _ (drains.mem_of_mem (body_mem_toList sub)) t' drains.pending
  rw [← followed before ready ticket part, latest] at sought
  rw [Option.some.inj sought]

def followedScrub : List (Operation Float) :=
  [.setTimeOffset (fun _ => true) 0.25 false, .setTimeOffset (fun _ => true) 0.5 false,
    .completeSeek (fun _ => true) ⟨0, 0⟩]

theorem Loaded.sprites_show_newest_film : ∃ root : Element Float, root.Loaded ∧
    (∀ o ∈ followedScrub, o.isSeekless = false) ∧
    (∃ b ∈ (root.drive followedScrub).2.toList, b.sprite.bind SpriteClock.step = some 2) ∧
    (root.drive followedScrub).2.Shows 0.5 := by
  have seen : (projected (.film "a.mp4" [.strip "s.png"])).any fun root =>
      ∃ b ∈ (root.drive followedScrub).2.toList, b.sprite.bind SpriteClock.step = some 2 := by
    decide +kernel
  obtain ⟨root, loaded, seen⟩ := exists_loaded_of_projected seen
  have scrub : ∀ o ∈ followedScrub, o.isSeekless = false := by
    simp [followedScrub, Operation.isSeekless]
  have unhinted : ∀ o ∈ followedScrub, o.offset? = o.sought? := by
    simp [followedScrub, Operation.offset?, Operation.sought?]
  have steady : root.NeverReverts followedScrub := by
    refine loaded.neverReverts scrub fun before ready ticket part => ?_
    have inside := (List.prefix_append before _).trans part
    exact congrArg List.getLast? (List.filterMap_congr fun o ho => unhinted o (inside.subset ho))
  have latest : Operation.newest followedScrub = some 0.5 := by decide +kernel
  obtain ⟨shows, -⟩ := loaded.sprites_show_newest_iff followedScrub scrub
  exact ⟨root, loaded, scrub, of_decide_eq_true seen,
    shows.mpr steady followedScrub (List.prefix_refl _) 0.5 latest⟩

def hintedScrub : List (Operation Float) :=
  [.setTimeOffset (fun _ => true) 0.25 false, .setTimeOffset (fun _ => true) 0.5 false,
    .setTimeOffset (fun _ => true) 0.75 true, .completeSeek (fun _ => true) ⟨0, 0⟩]

/-- A completion moves a sprite back to an offset that is older than the newest one. -/
theorem Loaded.sprite_moved_back : ¬∀ root : Element Float, root.Loaded →
    ∀ operations : List (Operation Float), (∀ o ∈ operations, o.isSeekless = false) →
      ∀ t, Operation.newest operations = some t → (root.drive operations).2.Shows t := by
  intro claim
  have seen : (projected (.film "a.mp4" [.strip "s.png"])).any fun root =>
      ∃ b ∈ (root.drive hintedScrub).2.toList, b.sprite.any fun clock =>
        clock.step = some 2 ∧ clock.stepAt 0.75 = 3 := by
    decide +kernel
  obtain ⟨root, loaded, seen⟩ := exists_loaded_of_projected seen
  obtain ⟨b, hb, stepping⟩ := of_decide_eq_true seen
  obtain ⟨clock, hclock, steps⟩ := (Option.any_eq_true _ _).mp stepping
  obtain ⟨behind, wanted⟩ := of_decide_eq_true steps
  have latest : Operation.newest hintedScrub = some 0.75 := by decide +kernel
  have shown := claim root loaded hintedScrub (by simp [hintedScrub, Operation.isSeekless]) 0.75
    latest b hb clock hclock
  simp [behind, wanted] at shown

end Element

end LayerTree
