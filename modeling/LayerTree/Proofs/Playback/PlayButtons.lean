import LayerTree.Proofs.Element.Loaded
import LayerTree.Proofs.Playback.Remains

/-!
The buttons that start playing.

When a host drives the root of a tree, the buttons are what the last notification made of them:
hidden after a video has started, shown after one has stopped. This is what a single video needs. Of
several videos one may come to its end while others go on, and then the buttons are shown although a
video plays.
-/

set_option autoImplicit false
set_option relaxedAutoImplicit false

namespace LayerTree

variable {α : Type}

/-! Notifications in a record. -/

def Event.isNotice : Event α → Bool
  | started _ => true
  | finished _ _ => true
  | _ => false

def Occurrence.notice? : Occurrence α → Option (Event α)
  | landed _ => none
  | caused event => if event.isNotice then some event else none

def lastNotice (log : List (Occurrence α)) : Option (Event α) :=
  (log.filterMap Occurrence.notice?).getLast?

theorem lastNotice_append (log more : List (Occurrence α)) :
    lastNotice (log ++ more) = (lastNotice more).or (lastNotice log) := by
  rw [lastNotice, List.filterMap_append, List.getLast?_append]
  rfl

theorem lastNotice_eq_none {log : List (Occurrence α)} :
    lastNotice log = none ↔ ∀ event, .caused event ∈ log → event.isNotice = false := by
  rw [lastNotice, List.getLast?_eq_none_iff, List.filterMap_eq_nil_iff]
  constructor
  · intro quiet event mem
    simpa [Occurrence.notice?] using quiet _ mem
  · intro quiet o ho
    cases o with
    | landed ticket => rfl
    | caused event => simp [Occurrence.notice?, quiet event ho]

theorem mem_of_lastNotice {log : List (Occurrence α)} {event : Event α}
    (last : lastNotice log = some event) : .caused event ∈ log ∧ event.isNotice = true := by
  obtain ⟨o, ho, notice⟩ := List.mem_filterMap.mp (List.mem_of_getLast? last)
  cases o with
  | landed ticket => simp [Occurrence.notice?] at notice
  | caused other =>
    obtain ⟨told, rfl⟩ : other.isNotice = true ∧ other = event := by
      simpa [Occurrence.notice?] using notice
    exact ⟨ho, told⟩

namespace Body

def playing (b : Body α) : Bool := b.video.any fun video => video.playing

theorem startVideo_notice (b : Body α) :
    (∀ v ∈ b.startVideo.1, v.isNotice = true → ∃ element, v = .started element) ∧
      (b.startVideo.1 ≠ [] → ∃ v ∈ b.startVideo.1, v.isNotice = true) := by
  rcases b.startVideo_cases with ⟨eq, -⟩ | ⟨video, -, -, eq⟩
  · simp [eq]
  · refine ⟨fun v hv notice => ?_, fun _ => ⟨.started b.id, by simp [eq], rfl⟩⟩
    rw [eq] at hv
    rcases List.mem_append.mp hv with rewound | told
    · split at rewound
      · obtain rfl := List.mem_singleton.mp rewound
        simp [Event.isNotice] at notice
      · simp at rewound
    · have cause : v = .play (b.player video) ∨ v = .started b.id := by simpa using told
      rcases cause with rfl | rfl
      · simp [Event.isNotice] at notice
      · exact ⟨b.id, rfl⟩

theorem pauseVideo_notice (b : Body α) :
    (∀ v ∈ b.pauseVideo.1, v.isNotice = true → ∃ element, v = .finished element false) ∧
      (b.pauseVideo.1 ≠ [] → ∃ v ∈ b.pauseVideo.1, v.isNotice = true) := by
  rcases b.pauseVideo_cases with ⟨eq, -⟩ | ⟨video, -, -, eq⟩
  · simp [eq]
  · refine ⟨fun v hv notice => ?_, fun _ => ⟨.finished b.id false, by simp [eq], rfl⟩⟩
    have cause : v = .pause (b.player video) ∨ v = .finished b.id false := by simpa [eq] using hv
    rcases cause with rfl | rfl
    · simp [Event.isNotice] at notice
    · exact ⟨b.id, rfl⟩

theorem endVideo_notice (repeats : Bool) (video : VideoSurface α) (b : Body α) :
    (b.endVideo repeats video).1 = ([.finished b.id true], true) ∨
      (b.endVideo repeats video).1.2 = false ∧
        ∀ v ∈ (b.endVideo repeats video).1.1, v.isNotice = false := by
  unfold endVideo
  cases repeats with
  | true => exact .inr ⟨rfl, by simp [Event.isNotice]⟩
  | false =>
    cases playing : video.playing with
    | true => exact .inl (by simp)
    | false => exact .inr (by simp)

theorem pauseVideo_playing (b : Body α) : b.pauseVideo.2.playing = false := by
  rcases b.pauseVideo_cases with ⟨eq, still⟩ | ⟨video, -, -, eq⟩
  · rw [eq, playing]
    cases hvideo : b.video with
    | none => rfl
    | some video => exact still video hvideo
  · rw [eq]
    rfl

/-- What a button is recognised by, and how it is seen. -/
def look (b : Body α) : Option String × α := (b.action, b.layers.style.opacity)

theorem startVideo_look (b : Body α) : b.startVideo.2.look = b.look := by
  rcases b.startVideo_cases with ⟨eq, -⟩ | ⟨video, -, -, eq⟩ <;> simp [eq, look]

theorem pauseVideo_look (b : Body α) : b.pauseVideo.2.look = b.look := by
  rcases b.pauseVideo_cases with ⟨eq, -⟩ | ⟨video, -, -, eq⟩ <;> simp [eq, look]

theorem endVideo_look (repeats : Bool) (video : VideoSurface α) (b : Body α) :
    (b.endVideo repeats video).2.look = b.look := by
  unfold endVideo
  repeat' split
  all_goals rfl

theorem stepSprite_look [Scalar α] (t : α) (b : Body α) : (b.stepSprite t).look = b.look := by
  unfold stepSprite
  split
  · rfl
  · next clock _ =>
    dsimp only [look]
    split
    · unfold Layers.showCell
      split <;> rfl
    · rfl

theorem applyOffset_look [Scalar α] (ready : Player → Bool) (t : α) (autoplay : Bool)
    (b : Body α) : (b.applyOffset ready t autoplay).2.look = b.look := by
  cases autoplay with
  | true => exact stepSprite_look t b
  | false =>
    rw [applyOffset_false, ← stepSprite_look t b]
    rcases (b.stepSprite t).seekVideo_cases ready t with
      ⟨eq, -⟩ | ⟨video, ticket, -, -, eq⟩ | ⟨video, -, -, -, eq⟩ <;> rw [eq] <;> rfl

def StartsTold (b : Body α) (log : List (Occurrence α)) (b' : Body α) : Prop :=
  b'.playing = true → b.playing = true ∨ ∃ element, .caused (.started element) ∈ log

namespace StartsTold

theorem of_video {b b' : Body α} (log : List (Occurrence α)) (same : b'.video = b.video) :
    StartsTold b log b' := fun playing => .inl (by rwa [Body.playing, same] at playing)

theorem of_stopped {b b' : Body α} (log : List (Occurrence α)) (stopped : b'.playing = false) :
    StartsTold b log b' := fun playing => by simp [stopped] at playing

theorem moves [Scalar α] : Moves (StartsTold (α := α)) where
  stay _ := .of_video _ rfl
  follow b l b' l' b'' first second playing := by
    rcases second playing with before | ⟨element, told⟩
    · rcases first before with before | ⟨element, told⟩
      · exact .inl before
      · exact .inr ⟨element, List.mem_append_left _ told⟩
    · exact .inr ⟨element, List.mem_append_right _ told⟩
  fade _ _ := .of_video _ rfl
  apply ready t autoplay b _ _ := .of_video _ (applyOffset_video ready t autoplay b)
  land _ _ _ _ := .of_video _ rfl
  start b := by
    rcases b.startVideo_cases with ⟨eq, -⟩ | ⟨video, -, -, eq⟩
    · rw [eq]
      exact .of_video _ rfl
    · rw [eq]
      exact fun _ => .inr ⟨b.id, by simp⟩
  pause b := by
    rcases b.pauseVideo_cases with ⟨eq, -⟩ | ⟨video, -, -, eq⟩
    · rw [eq]
      exact .of_video _ rfl
    · rw [eq]
      exact .of_stopped _ rfl
  finish repeats b video _ := by
    unfold endVideo
    dsimp only
    repeat' split
    · exact .of_video _ rfl
    · exact .of_stopped _ rfl
    · exact .of_stopped _ rfl
  tap _ _ _ := .of_video _ rfl
  drop _ := .of_stopped _ rfl

end StartsTold

end Body

namespace Element

theorem isPlaying_iff {e : Element α} :
    e.isPlaying = true ↔ ∃ b ∈ e.toList, b.playing = true := by
  rw [isPlaying, List.any_eq_true]
  rfl

def looks (e : Element α) : List (Option String × α) := e.toList.map Body.look

/-- Every button that starts playing has the opacity. -/
def ButtonsAt (opacity : α) (e : Element α) : Prop :=
  ∀ b ∈ e.toList, b.action = some playAction → b.layers.style.opacity = opacity

instance [DecidableEq α] (opacity : α) (e : Element α) : Decidable (e.ButtonsAt opacity) :=
  inferInstanceAs (Decidable (∀ b ∈ e.toList, _ → _))

theorem ButtonsAt.of_looks {opacity : α} {e e' : Element α} (h : e.ButtonsAt opacity)
    (same : e'.looks = e.looks) : e'.ButtonsAt opacity := by
  intro b hb action
  have mem : b.look ∈ e.looks := same ▸ List.mem_map_of_mem hb
  obtain ⟨c, hc, look⟩ := List.mem_map.mp mem
  obtain ⟨action', opacity'⟩ := Prod.mk.inj look
  exact opacity' ▸ h c hc (action'.trans action)

theorem buttonsAt_setPlayOpacity (opacity : α) (e : Element α) :
    (e.setPlayOpacity opacity).ButtonsAt opacity := by
  intro b hb action
  rw [setPlayOpacity, toList_map] at hb
  obtain ⟨c, hc, rfl⟩ := List.mem_map.mp hb
  by_cases button : c.action = some playAction
  · simp [Body.withPlayOpacity, button, Body.withOpacity, Layers.withOpacity]
  · simp [Body.withPlayOpacity, button] at action

theorem looks_sweep {ε : Type} {f : Body α → List ε × Body α} (same : ∀ b, (f b).2.look = b.look)
    (e : Element α) : (e.sweep f).2.looks = e.looks := by
  rw [looks, toList_sweep, List.map_map]
  exact List.map_congr_left fun b _ => same b

theorem isPlaying_setPlayOpacity (opacity : α) (e : Element α) :
    (e.setPlayOpacity opacity).isPlaying = e.isPlaying := by
  rw [Bool.eq_iff_iff, isPlaying_iff, isPlaying_iff, setPlayOpacity, toList_map]
  simp [Body.playing]

/-- What becomes of the buttons with a record. -/
inductive Faded (e : Element α) [Scalar α] (log : List (Occurrence α)) (e' : Element α) : Prop
  /-- Without a notification they look as before. -/
  | still : lastNotice log = none → e'.looks = e.looks → Faded e log e'
  /-- When videos started and none stopped, they are hidden. -/
  | hidden {element : ElementId} : lastNotice log = some (.started element) →
      (∀ element completed, .caused (.finished element completed) ∉ log) →
      e'.ButtonsAt 0 → Faded e log e'
  /-- When videos stopped, they are shown; nothing plays after a pause. -/
  | shown {element : ElementId} {completed : Bool} :
      lastNotice log = some (.finished element completed) → e'.ButtonsAt 1 →
      (completed = false → e'.isPlaying = false) → Faded e log e'

section

variable [Scalar α]

theorem faded_setTimeOffset (ready : Player → Bool) (t : α) (autoplay : Bool) (e : Element α) :
    Faded e ((e.setTimeOffset ready t autoplay).1.map .caused)
      (e.setTimeOffset ready t autoplay).2 := by
  refine .still (lastNotice_eq_none.mpr fun event mem => ?_)
    (map_toList_setTimeOffset Body.applyOffset_look ready t autoplay e)
  have sent : event ∈ (e.setTimeOffset ready t autoplay).1 := by simpa using mem
  obtain ⟨player, request, rfl⟩ := seek_of_mem_setTimeOffset sent
  rfl

theorem faded_completeSeek (ready : Player → Bool) (ticket : SeekTicket) (e : Element α) :
    Faded e ((e.completeSeek ready ticket).1.1.record ticket ++
      (e.completeSeek ready ticket).1.2.map .caused) (e.completeSeek ready ticket).2 := by
  refine .still (lastNotice_eq_none.mpr fun event mem => ?_)
    (map_toList_completeSeek Body.applyOffset_look (fun _ => rfl) ready ticket e)
  have sent : event ∈ (e.completeSeek ready ticket).1.2 := by
    have unrecorded : .caused event ∉ (e.completeSeek ready ticket).1.1.record ticket := by
      cases (e.completeSeek ready ticket).1.1 <;> simp [SeekCompletion.record]
    simpa [unrecorded] using mem
  obtain ⟨player, request, rfl⟩ := seek_of_mem_completeSeek sent
  rfl

omit [Scalar α] in
theorem lastNotice_sweep {f : Body α → List (Event α) × Body α} {P : Event α → Prop}
    (notices : ∀ b, (∀ v ∈ (f b).1, v.isNotice = true → P v) ∧
      ((f b).1 ≠ [] → ∃ v ∈ (f b).1, v.isNotice = true))
    {e : Element α} (events : (e.sweep f).1 ≠ []) :
    (∃ v, lastNotice ((e.sweep f).1.map .caused) = some v ∧ P v) ∧
      ∀ v, .caused v ∈ (e.sweep f).1.map Occurrence.caused → v.isNotice = true → P v := by
  have only : ∀ v, .caused v ∈ (e.sweep f).1.map Occurrence.caused → v.isNotice = true → P v := by
    intro v mem notice
    have told : v ∈ (e.sweep f).1 := by simpa using mem
    rw [sweep_told] at told
    obtain ⟨b, -, hv⟩ := List.mem_flatMap.mp told
    exact (notices b).1 v hv notice
  refine ⟨?_, only⟩
  cases last : lastNotice ((e.sweep f).1.map .caused) with
  | some v =>
    obtain ⟨mem, notice⟩ := mem_of_lastNotice last
    exact ⟨v, rfl, only v mem notice⟩
  | none =>
    obtain ⟨v, hv⟩ := List.exists_mem_of_ne_nil _ events
    rw [sweep_told] at hv
    obtain ⟨b, hb, hv⟩ := List.mem_flatMap.mp hv
    obtain ⟨w, hw, notice⟩ := (notices b).2 (List.ne_nil_of_mem hv)
    have told : w ∈ (e.sweep f).1 := by
      rw [sweep_told]
      exact List.mem_flatMap.mpr ⟨b, hb, hw⟩
    have quiet := lastNotice_eq_none.mp last w (List.mem_map_of_mem told)
    simp [quiet] at notice

theorem faded_startAutoplay (e : Element α) :
    Faded e (e.startAutoplay.1.map .caused) e.startAutoplay.2 := by
  unfold startAutoplay
  dsimp only
  split
  · next nothing =>
    rw [List.isEmpty_iff] at nothing
    rw [nothing]
    exact .still rfl (looks_sweep Body.startVideo_look e)
  · next something =>
    rw [List.isEmpty_iff] at something
    obtain ⟨⟨v, last, element, rfl⟩, only⟩ := lastNotice_sweep Body.startVideo_notice something
    refine .hidden last (fun other completed mem => ?_) (buttonsAt_setPlayOpacity 0 _)
    obtain ⟨_, same⟩ := only _ mem rfl
    simp at same

theorem isPlaying_pauseAutoplay (e : Element α) : e.pauseAutoplay.2.isPlaying = false := by
  have rests : (e.sweep Body.pauseVideo).2.isPlaying = false := by
    rw [Bool.eq_false_iff, ne_eq, isPlaying_iff, toList_sweep]
    rintro ⟨b, hb, playing⟩
    obtain ⟨c, -, rfl⟩ := List.mem_map.mp hb
    simp [Body.pauseVideo_playing] at playing
  unfold pauseAutoplay
  dsimp only
  split
  · exact rests
  · exact (isPlaying_setPlayOpacity 1 _).trans rests

theorem faded_pauseAutoplay (e : Element α) :
    Faded e (e.pauseAutoplay.1.map .caused) e.pauseAutoplay.2 := by
  have rests := isPlaying_pauseAutoplay e
  unfold pauseAutoplay at rests ⊢
  dsimp only at rests ⊢
  split
  · next nothing =>
    rw [List.isEmpty_iff] at nothing
    rw [nothing]
    exact .still rfl (looks_sweep Body.pauseVideo_look e)
  · next something =>
    rw [List.isEmpty_iff] at something
    obtain ⟨⟨v, last, element, rfl⟩, -⟩ := lastNotice_sweep Body.pauseVideo_notice something
    refine .shown last (buttonsAt_setPlayOpacity 1 _) fun _ => ?_
    simpa [something] using rests

theorem faded_videoReachedEnd (repeats : Body α → Bool) (id : ElementId) (e : Element α) :
    Faded e (((e.videoReachedEnd repeats id).1.getD []).map .caused)
      (e.videoReachedEnd repeats id).2 := by
  rcases e.videoReachedEnd_cases repeats id with
    eq | ⟨part, video, before, after, e', -, -, old, new, eq⟩
  · rw [eq]
    exact .still rfl rfl
  · have looks : e'.looks = e.looks := by
      simp only [Element.looks, old, new, toList_eq part, List.map_append, List.map_cons,
        Body.endVideo_look]
    rw [eq]
    rcases part.body.endVideo_notice (repeats part.body) video with stopped | ⟨goesOn, quiet⟩
    · rw [stopped]
      exact .shown rfl (buttonsAt_setPlayOpacity 1 e') nofun
    · rw [goesOn]
      refine .still (lastNotice_eq_none.mpr fun event mem => quiet event ?_) looks
      simpa using mem

end

end Element

/-- What a host does that drives a tree with a timeline. -/
def Operation.drives : Operation α → Bool
  | touchDown | touchCancel | press | clear => false
  | _ => true

namespace Element

variable [Scalar α]

theorem faded_perform {operation : Operation α} (driven : operation.drives = true)
    (e : Element α) : Faded e (operation.perform e).1 (operation.perform e).2 := by
  cases operation with
  | setTimeOffset ready t autoplay => exact faded_setTimeOffset ready t autoplay e
  | completeSeek ready ticket => exact faded_completeSeek ready ticket e
  | startAutoplay => exact faded_startAutoplay e
  | pauseAutoplay => exact faded_pauseAutoplay e
  | videoReachedEnd repeats id => exact faded_videoReachedEnd repeats id e
  | _ => simp [Operation.drives] at driven

theorem isPlaying_perform {e : Element α} (nodup : e.ids.Nodup) (operation : Operation α)
    (playing : (operation.perform e).2.isPlaying = true) :
    e.isPlaying = true ∨ ∃ element, .caused (.started element) ∈ (operation.perform e).1 := by
  obtain ⟨b', hb', playing⟩ := isPlaying_iff.mp playing
  obtain ⟨b, hb, -, move⟩ := (Body.StartsTold.moves.perform operation nodup).moved b' hb'
  rcases move playing with before | ⟨element, told⟩
  · exact .inl (isPlaying_iff.mpr ⟨b, hb, before⟩)
  · exact .inr ⟨element, (List.mem_filter.mp told).1⟩

/-- The buttons are what the last notification made of them, and while a video plays the last
notification is no pause. -/
structure ShowsNotices (log : List (Occurrence α)) (e : Element α) : Prop where
  started : ∀ element, lastNotice log = some (.started element) → e.ButtonsAt 0
  finished : ∀ element completed, lastNotice log = some (.finished element completed) →
    e.ButtonsAt 1
  playing : e.isPlaying = true → (∃ element, lastNotice log = some (.started element)) ∨
    ∃ element, lastNotice log = some (.finished element true)

theorem ShowsNotices.perform {log : List (Occurrence α)} {e : Element α}
    (shows : e.ShowsNotices log) (nodup : e.ids.Nodup) {operation : Operation α}
    (driven : operation.drives = true) :
    (operation.perform e).2.ShowsNotices (log ++ (operation.perform e).1) := by
  have begun := isPlaying_perform nodup operation
  cases faded_perform driven e with
  | still quiet looks =>
    have last : lastNotice (log ++ (operation.perform e).1) = lastNotice log := by
      rw [lastNotice_append, quiet, Option.none_or]
    refine ⟨fun element h => ?_, fun element completed h => ?_, fun playing => ?_⟩
    · exact (shows.started element (last ▸ h)).of_looks looks
    · exact (shows.finished element completed (last ▸ h)).of_looks looks
    · rw [last]
      refine shows.playing ((begun playing).resolve_right ?_)
      rintro ⟨element, told⟩
      simpa [Event.isNotice] using lastNotice_eq_none.mp quiet _ told
  | @hidden element told _ buttons =>
    have last : lastNotice (log ++ (operation.perform e).1) = some (.started element) := by
      rw [lastNotice_append, told, Option.some_or]
    exact ⟨fun _ _ => buttons, fun _ _ h => by simp [last] at h, fun _ => .inl ⟨element, last⟩⟩
  | @shown element completed told buttons rests =>
    have last : lastNotice (log ++ (operation.perform e).1) =
        some (.finished element completed) := by
      rw [lastNotice_append, told, Option.some_or]
    refine ⟨fun _ h => by simp [last] at h, fun _ _ _ => buttons, fun playing => ?_⟩
    cases completed with
    | true => exact .inr ⟨element, last⟩
    | false => simp [rests rfl] at playing

variable [Analytic α]

theorem Loaded.isPlaying_eq_false {root : Element α} (loaded : root.Loaded) :
    root.isPlaying = false := by
  rw [Bool.eq_false_iff, ne_eq, isPlaying_iff]
  rintro ⟨b, hb, playing⟩
  cases hvideo : b.video with
  | none => simp [Body.playing, hvideo] at playing
  | some video => simp [Body.playing, hvideo, ((loaded.fresh hb).video video hvideo).1] at playing

/-- While a host drives the root of a loaded tree, the buttons that start playing are hidden when
the last notification was that a video started, and shown when it was that one stopped. So while a
video plays they are hidden, except from when another video has come to its end until one is started
again. Whatever stops a video shows them, also when nothing plays any more. -/
theorem Loaded.buttons_follow_notices {root : Element α} (loaded : root.Loaded)
    (operations : List (Operation α)) (driven : ∀ o ∈ operations, o.drives = true) :
    let done := root.drive operations
    (∀ element, lastNotice done.1 = some (.started element) → done.2.ButtonsAt 0) ∧
      (∀ element completed, lastNotice done.1 = some (.finished element completed) →
        done.2.ButtonsAt 1) ∧
      (done.2.isPlaying = true → (∃ element, lastNotice done.1 = some (.started element)) ∨
        ∃ element, lastNotice done.1 = some (.finished element true)) ∧
      ∀ operation : Operation α, operation.drives = true →
        ∀ element completed,
          .caused (.finished element completed) ∈ (operation.perform done.2).1 →
            (operation.perform done.2).2.ButtonsAt 1 := by
  intro done
  have start : root.ShowsNotices [] :=
    ⟨nofun, nofun, fun playing => by simp [loaded.isPlaying_eq_false] at playing⟩
  obtain ⟨started, finished, playing⟩ : done.2.ShowsNotices done.1 :=
    drive_keeps (fun nodup driven shows => shows.perform nodup driven) operations []
      loaded.nodup_ids driven start
  refine ⟨started, finished, playing, fun operation driven' element completed told => ?_⟩
  cases faded_perform driven' done.2 with
  | still quiet _ => simpa [Event.isNotice] using lastNotice_eq_none.mp quiet _ told
  | hidden _ only _ => exact absurd told (only element completed)
  | shown _ buttons _ => exact buttons

def filmWithButton : Record :=
  .film "a.mp4" [.film "b.mp4" [], ⟨[("action", .text playAction)]⟩]

def innerEnds : List (Operation Float) := [.startAutoplay, .videoReachedEnd (fun _ => false) 1]

omit [Scalar α] [Analytic α] in
private theorem exists_innerEnds : ∃ root : Element Float, root.Loaded ∧
    (root.drive innerEnds).2.isPlaying = true ∧
    lastNotice (root.drive innerEnds).1 = some (.finished 1 true) ∧
    ¬(root.drive innerEnds).2.ButtonsAt 0 := by
  have seen : (screened filmWithButton).any fun root =>
      (root.drive innerEnds).2.isPlaying = true ∧
        lastNotice (root.drive innerEnds).1 = some (.finished 1 true) ∧
        ¬(root.drive innerEnds).2.ButtonsAt 0 := by
    decide +kernel
  obtain ⟨root, loaded, seen⟩ := exists_loaded_of_screened seen
  exact ⟨root, loaded, of_decide_eq_true seen⟩

theorem Loaded.buttons_follow_notices_film : ∃ root : Element Float, root.Loaded ∧
    (∀ o ∈ innerEnds, o.drives = true) ∧ (root.drive innerEnds).2.isPlaying = true ∧
    (root.drive innerEnds).2.ButtonsAt 1 := by
  obtain ⟨root, loaded, playing, last, -⟩ := exists_innerEnds
  have driven : ∀ o ∈ innerEnds, o.drives = true := by simp [innerEnds, Operation.drives]
  obtain ⟨-, finished, -⟩ := loaded.buttons_follow_notices innerEnds driven
  exact ⟨root, loaded, driven, playing, finished 1 true last⟩

/-- A button is seen while a video plays, when another one has come to its end. -/
theorem Loaded.button_seen_while_playing : ¬∀ root : Element Float, root.Loaded →
    ∀ operations : List (Operation Float), (∀ o ∈ operations, o.drives = true) →
      (root.drive operations).2.isPlaying = true → (root.drive operations).2.ButtonsAt 0 := by
  intro claim
  obtain ⟨root, loaded, playing, -, seen⟩ := exists_innerEnds
  exact seen (claim root loaded innerEnds (by simp [innerEnds, Operation.drives]) playing)

end Element

end LayerTree
