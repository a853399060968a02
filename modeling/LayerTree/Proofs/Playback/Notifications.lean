import LayerTree.Proofs.Playback.VideoStep

/-!
Notifications of playback.

What a host is told of an element is that its video started and stopped, in turns; while the element
keeps the video, the last of it says whether the video plays. A video that came to its end without
being repeated is rewound before it plays again.
-/

set_option autoImplicit false
set_option relaxedAutoImplicit false

namespace LayerTree

variable {α : Type}

def Event.isCommand : Event α → Bool
  | seek _ _ => true
  | rewind _ => true
  | play _ => true
  | pause _ => true
  | _ => false

namespace Entry

def notice? : Entry α → Option (Event α)
  | ended _ _ => none
  | noted occurrence => occurrence.notice?

def command? : Entry α → Option (Event α)
  | caused event => if event.isCommand then some event else none
  | _ => none

end Entry

def noticesOf (id : ElementId) (log : List (Occurrence α)) : List (Event α) :=
  (about id log).filterMap Occurrence.notice?

def commandsTo (id : ElementId) (history : List (Entry α)) : List (Event α) :=
  (concerning id history).filterMap Entry.command?

/-- Started, stopped, started, and so on. -/
def TakeTurns (id : ElementId) (notices : List (Event α)) : Prop :=
  ∀ n notice, notices[n]? = some notice →
    if n % 2 = 0 then notice = .started id else ∃ completed, notice = .finished id completed

namespace TakeTurns

variable {id : ElementId} {notices : List (Event α)}

theorem nil (id : ElementId) : TakeTurns id ([] : List (Event α)) := by simp [TakeTurns]

theorem concat (turns : TakeTurns id notices) {notice : Event α}
    (next : if notices.length % 2 = 0 then notice = .started id
      else ∃ completed, notice = .finished id completed) :
    TakeTurns id (notices ++ [notice]) := by
  intro n other here
  rcases Nat.lt_trichotomy n notices.length with before | rfl | after
  · rw [List.getElem?_append_left before] at here
    exact turns n other here
  · rw [List.getElem?_concat_length] at here
    exact Option.some.inj here ▸ next
  · rw [List.getElem?_eq_none (by simp; omega)] at here
    simp at here

theorem getLast?_eq_started_iff (turns : TakeTurns id notices) :
    notices.getLast? = some (.started id) ↔ notices.length % 2 = 1 := by
  rw [List.getLast?_eq_getElem?]
  constructor
  · intro last
    have turn := turns _ _ last
    have nonempty : notices.length ≠ 0 := by
      intro empty
      simp [List.length_eq_zero_iff.mp empty] at last
    split at turn
    · omega
    · simp at turn
  · intro odd
    have last : notices.length - 1 < notices.length := by omega
    have turn := turns _ _ (List.getElem?_eq_getElem last)
    rw [if_pos (by omega)] at turn
    rw [List.getElem?_eq_getElem last, turn]

end TakeTurns

/-- What the host was told fits the video of an element. -/
structure Told (id : ElementId) (log : List (Entry α)) (video : Option (VideoSurface α)) :
    Prop where
  turns : TakeTurns id (log.filterMap Entry.notice?)
  playing : ∀ shown, video = some shown →
    (shown.playing = true ↔ (log.filterMap Entry.notice?).length % 2 = 1)

theorem Entry.notice?_of_isIdle {entry : Entry α} (idle : entry.isIdle = true) :
    entry.notice? = none := by
  unfold isIdle at idle
  split at idle <;> simp_all [notice?, Occurrence.notice?, Event.isNotice]

namespace Told

variable {id : ElementId} {log entries : List (Entry α)} {video video' : Option (VideoSurface α)}

theorem silent (told : Told id log video) (quiet : entries.filterMap Entry.notice? = []) :
    Told id (log ++ entries) video := by
  have same : (log ++ entries).filterMap Entry.notice? = log.filterMap Entry.notice? := by
    rw [List.filterMap_append, quiet, List.append_nil]
  exact ⟨same ▸ told.turns, same ▸ told.playing⟩

theorem notify {shown shown' : VideoSurface α} (told : Told id log (some shown))
    (notice : Event α) (one : entries.filterMap Entry.notice? = [notice])
    (turn : if shown.playing = true then ∃ completed, notice = .finished id completed
      else notice = .started id) (changed : shown'.playing = !shown.playing) :
    Told id (log ++ entries) (some shown') := by
  have more : (log ++ entries).filterMap Entry.notice? =
      log.filterMap Entry.notice? ++ [notice] := by
    rw [List.filterMap_append, one]
  have plays := told.playing shown rfl
  refine ⟨more ▸ told.turns.concat ?_, fun other same => ?_⟩
  · by_cases playing : shown.playing = true
    · have odd := plays.mp playing
      rw [if_pos playing] at turn
      rwa [if_neg (by omega)]
    · have even := mt plays.mpr playing
      rw [if_neg playing] at turn
      rwa [if_pos (by omega)]
  · obtain rfl := Option.some.inj same
    rw [more, changed, List.length_append, List.length_singleton]
    cases playing : shown.playing with
    | true =>
      have odd := plays.mp playing
      simp only [Bool.not_true, Bool.false_eq_true, false_iff]
      omega
    | false =>
      have even : ¬(log.filterMap Entry.notice?).length % 2 = 1 := by simp [← plays, playing]
      simp only [Bool.not_false, true_iff]
      omega

theorem step (moved : VideoStep id video entries video') (told : Told id log video) :
    Told id (log ++ entries) video' := by
  cases moved with
  | idle idle =>
    exact told.silent
      (List.filterMap_eq_nil_iff.mpr fun e he => Entry.notice?_of_isIdle (idle e he))
  | @start video rests =>
    refine told.notify (.started id) ?_ (by simp [rests]) (by simp [rests])
    cases video.needsRewind <;> rfl
  | pause plays =>
    exact told.notify (.finished id false) rfl (by simp [plays]) (by simp [plays])
  | again => exact told.silent rfl
  | finish plays =>
    exact told.notify (.finished id true) rfl (by simp [plays]) (by simp [plays])
  | lapse rests =>
    have silent : Told id (log ++ [.ended id false]) _ := told.silent rfl
    refine ⟨silent.turns, fun shown same => ?_⟩
    obtain rfl := Option.some.inj same
    simpa [rests] using silent.playing _ rfl
  | drop =>
    rw [List.append_nil]
    exact ⟨told.turns, nofun⟩

end Told

/-! Rewinding. -/

/-- Whether a video is to be rewound before it plays: it came to its end without being repeated,
and did not play since. -/
def Entry.owesRewind (owing : Bool) : Entry α → Bool
  | ended _ repeats => owing || !repeats
  | caused (.play _) => false
  | _ => owing

def owesRewind (log : List (Entry α)) : Bool := log.foldl Entry.owesRewind false

theorem owesRewind_append (log more : List (Entry α)) :
    owesRewind (log ++ more) = more.foldl Entry.owesRewind (owesRewind log) :=
  List.foldl_append ..

theorem Entry.owesRewind_of_isIdle (owing : Bool) (entry : Entry α) (idle : entry.isIdle = true) :
    entry.owesRewind owing = owing := by
  unfold isIdle at idle
  split at idle <;> simp_all [owesRewind]

theorem owesRewind_of_ended {early since : List (Entry α)} {id : ElementId}
    (unplayed : ∀ player, .caused (.play player) ∉ since) :
    owesRewind (early ++ .ended id false :: since) = true := by
  have lasts : since.foldl Entry.owesRewind true = true := by
    induction since with
    | nil => rfl
    | cons entry since ih =>
      have here : entry.owesRewind true = true := by
        unfold Entry.owesRewind
        split
        · rfl
        · next player => exact absurd List.mem_cons_self (unplayed player)
        · rfl
      rw [List.foldl_cons, here]
      exact ih fun player mem => unplayed player (List.mem_cons_of_mem _ mem)
  rw [owesRewind_append, List.foldl_cons]
  simpa [Entry.owesRewind] using lasts

def JustRewound (player : Player) (commands : List (Event α)) : Prop :=
  ∃ earlier, commands = earlier ++ [.rewind player] ∧
    ∀ other, earlier.getLast? ≠ some (.rewind other)

/-- An entry that is a play comes right after a rewind when one is due. -/
def PlaysRewound (before : List (Entry α)) (entry : Entry α) : Prop :=
  ∀ player, entry = .caused (.play player) → owesRewind before = true →
    JustRewound player (before.filterMap Entry.command?)

structure Rewound (log : List (Entry α)) (video : Option (VideoSurface α)) : Prop where
  owed : owesRewind log = true → ∀ shown, video = some shown → shown.needsRewind = true
  last : ∀ player, (log.filterMap Entry.command?).getLast? ≠ some (.rewind player)
  plays : ∀ before entry after, log = before ++ entry :: after → PlaysRewound before entry

namespace Rewound

variable {id : ElementId} {log entries : List (Entry α)} {video video' : Option (VideoSurface α)}

theorem plays_append (rewound : Rewound log video)
    (more : ∀ before entry after, entries = before ++ entry :: after →
      PlaysRewound (log ++ before) entry) :
    ∀ before entry after, log ++ entries = before ++ entry :: after →
      PlaysRewound before entry := by
  intro before entry after split
  rcases List.append_eq_append_iff.mp split with ⟨new, rfl, eq⟩ | ⟨old, rfl, eq⟩
  · exact more new entry after eq
  · cases old with
    | nil =>
      rw [List.append_nil] at more
      simpa using more [] entry after eq.symm
    | cons first old =>
      obtain ⟨rfl, -⟩ := List.cons.inj eq
      exact rewound.plays before entry old rfl

theorem unplayed (rewound : Rewound log video)
    (unplayed : ∀ player, .caused (.play player) ∉ entries ∧ .caused (.rewind player) ∉ entries)
    (owed : owesRewind (log ++ entries) = true → ∀ shown, video' = some shown →
      shown.needsRewind = true) : Rewound (log ++ entries) video' := by
  refine ⟨owed, fun player last => ?_, rewound.plays_append ?_⟩
  · rw [List.filterMap_append, List.getLast?_append] at last
    cases new : (entries.filterMap Entry.command?).getLast? with
    | none => exact rewound.last player (by simpa [new] using last)
    | some command =>
      obtain rfl : command = .rewind player := by simpa [new] using last
      obtain ⟨entry, mem, commanded⟩ := List.mem_filterMap.mp (List.mem_of_getLast? new)
      unfold Entry.command? at commanded
      split at commanded
      · next event =>
        obtain ⟨-, rfl⟩ : event.isCommand = true ∧ event = .rewind player := by
          simpa using commanded
        exact (unplayed player).2 mem
      · simp at commanded
  · rintro before entry after rfl player rfl
    exact absurd (by simp) (unplayed player).1

theorem play (rewound : Rewound log video) {player : Player} (pre post : List (Entry α))
    (once : ∀ other, .caused (.play other) ∉ pre ∧ .caused (.play other) ∉ post)
    (due : owesRewind (log ++ pre) = true →
      JustRewound player ((log ++ pre).filterMap Entry.command?))
    (silent : post.filterMap Entry.command? = [])
    (settled : post.foldl Entry.owesRewind false = false) :
    Rewound (log ++ (pre ++ .caused (.play player) :: post)) video' := by
  refine ⟨fun owed => ?_, fun other last => ?_, rewound.plays_append ?_⟩
  · simp [owesRewind_append, Entry.owesRewind, settled] at owed
  · simp [List.filterMap_append, Entry.command?, Event.isCommand, silent] at last
  · rintro before entry after eq other rfl owed
    rcases List.append_eq_append_iff.mp eq with ⟨new, rfl, rest⟩ | ⟨old, rfl, rest⟩
    · cases new with
      | nil =>
        obtain ⟨same, -⟩ := List.cons.inj rest
        cases same
        simpa using due (by simpa using owed)
      | cons first new =>
        obtain ⟨-, rfl⟩ := List.cons.inj rest
        exact absurd (by simp) (once other).2
    · cases old with
      | nil =>
        obtain ⟨same, -⟩ := List.cons.inj rest
        cases same
        simpa using due (by simpa using owed)
      | cons first old =>
        obtain ⟨rfl, -⟩ := List.cons.inj rest
        exact absurd (by simp) (once other).1

theorem step (moved : VideoStep id video entries video') (rewound : Rewound log video) :
    Rewound (log ++ entries) video' := by
  have rewinding : ∀ player : Player, JustRewound player
      (log.filterMap Entry.command? ++ [.rewind player]) :=
    fun player => ⟨_, rfl, rewound.last⟩
  cases moved with
  | idle idle =>
    refine rewound.unplayed (fun player => ⟨fun mem => ?_, fun mem => ?_⟩) fun owed => ?_
    · simpa [Entry.isIdle] using idle _ mem
    · simpa [Entry.isIdle] using idle _ mem
    · rw [owesRewind_append, foldl_eq_of_idle Entry.owesRewind_of_isIdle idle] at owed
      exact rewound.owed owed
  | @start video rests =>
    cases spent : video.needsRewind with
    | true =>
      refine rewound.play [.caused (.rewind ⟨id, video.url⟩)] [.caused (.started id)]
        (by simp) (fun _ => ?_) rfl rfl
      rw [List.filterMap_append]
      exact rewinding _
    | false =>
      refine rewound.play [] [.caused (.started id)] (by simp) (fun owed => ?_)
        rfl rfl
      rw [List.append_nil] at owed
      simpa [spent] using rewound.owed owed video rfl
  | @pause video plays =>
    refine rewound.unplayed (by simp) fun owed shown same => ?_
    obtain rfl := Option.some.inj same
    have before : owesRewind log = true := by
      simpa [owesRewind_append, Entry.owesRewind] using owed
    exact rewound.owed before video rfl
  | @again video =>
    refine rewound.play [.ended id true, .caused (.rewind ⟨id, video.url⟩)] [] (by simp)
      (fun _ => ?_) rfl rfl
    rw [List.filterMap_append]
    exact rewinding _
  | finish plays =>
    refine rewound.unplayed (by simp) fun _ shown same => ?_
    exact Option.some.inj same ▸ rfl
  | lapse rests =>
    refine rewound.unplayed (by simp) fun _ shown same => ?_
    exact Option.some.inj same ▸ rfl
  | drop => exact rewound.unplayed (by simp) (by simp)

end Rewound

namespace Element

variable [Scalar α]

theorem notices_history (id : ElementId) : ∀ (calls : List (Call α)) (e : Element α),
    (concerning id (e.history calls)).filterMap Entry.notice? = noticesOf id (e.run calls).1
  | [], e => rfl
  | c :: calls, e => by
    have unreported : (concerning id (c.reports e)).filterMap Entry.notice? = [] := by
      refine List.filterMap_eq_nil_iff.mpr fun entry mem => ?_
      obtain ⟨-, element, repeats, rfl⟩ := ended_of_mem_reports (List.mem_filter.mp mem).1
      rfl
    have recorded : (concerning id ((e.make c).1.map .noted)).filterMap Entry.notice? =
        noticesOf id (e.make c).1 := by
      rw [concerning_noted, List.filterMap_map]
      rfl
    rw [history, entries, concerning_append, concerning_append, List.filterMap_append,
      List.filterMap_append, unreported, recorded, notices_history id calls, run, noticesOf,
      noticesOf, noticesOf, about_append, List.filterMap_append, List.nil_append]

omit [Scalar α] in
theorem any_iff_mem_sweep {f : Body α → List (Event α) × Body α} {test : Body α → Bool}
    {P : Event α → Prop} (each : ∀ b, test b = true ↔ ∃ v ∈ (f b).1, P v) (e : Element α) :
    e.toList.any test = true ↔ ∃ v ∈ (e.sweep f).1, P v := by
  rw [sweep_told, List.any_eq_true]
  constructor
  · rintro ⟨b, hb, holds⟩
    obtain ⟨v, hv, told⟩ := (each b).mp holds
    exact ⟨v, List.mem_flatMap.mpr ⟨b, mem_upward.mpr hb, hv⟩, told⟩
  · rintro ⟨v, mem, told⟩
    obtain ⟨b, hb, hv⟩ := List.mem_flatMap.mp mem
    exact ⟨b, mem_upward.mp hb, (each b).mpr ⟨v, hv, told⟩⟩

theorem startAnswer_iff (e : Element α) :
    e.startAnswer = true ↔ ∃ id, .started id ∈ e.startAutoplay.1 := by
  have swept : e.startAutoplay.1 = (e.sweep Body.startVideo).1 := by
    simp only [startAutoplay]
    split <;> rfl
  have each : ∀ b : Body α, (b.video.any fun video => !video.playing) = true ↔
      ∃ v ∈ b.startVideo.1, ∃ id, v = .started id := by
    intro b
    rcases b.startVideo_cases with ⟨eq, plays⟩ | ⟨video, hvideo, rests, eq⟩
    · cases hvideo : b.video with
      | none => simp [eq]
      | some video => simp [eq, plays video hvideo]
    · simp [eq, hvideo, rests]
  rw [startAnswer, any_iff_mem_sweep each, swept]
  simp

theorem pauseAnswer_iff (e : Element α) :
    e.pauseAnswer = true ↔ ∃ id completed, .finished id completed ∈ e.pauseAutoplay.1 := by
  have swept : e.pauseAutoplay.1 = (e.sweep Body.pauseVideo).1 := by
    simp only [pauseAutoplay]
    split <;> rfl
  have each : ∀ b : Body α, (b.video.any fun video => video.playing) = true ↔
      ∃ v ∈ b.pauseVideo.1, ∃ id completed, v = .finished id completed := by
    intro b
    rcases b.pauseVideo_cases with ⟨eq, rests⟩ | ⟨video, hvideo, plays, eq⟩
    · cases hvideo : b.video with
      | none => simp [eq]
      | some video => simp [eq, rests video hvideo]
    · simp [eq, hvideo, plays]
  rw [pauseAnswer, isPlaying, any_iff_mem_sweep each, swept]
  simp

theorem completed_iff {e : Element α} (nodup : e.ids.Nodup) {c : Call α} {id : ElementId}
    {completed : Bool} (told : .caused (.finished id completed) ∈ (e.make c).1) :
    completed = true ↔ ∃ repeats element, c.operation = .videoReachedEnd repeats element := by
  constructor
  · rintro rfl
    have moved := videoStep_make nodup c id
    have entered : .caused (.finished id true) ∈ concerning id (e.entries c) := by
      refine List.mem_filter.mpr ⟨List.mem_append_right _ (List.mem_map_of_mem told), ?_⟩
      exact beq_self_eq_true id
    have ended : ∃ repeats, .ended id repeats ∈ concerning id (e.entries c) := by
      generalize e.videoOf id = video, concerning id (e.entries c) = entries,
        (e.make c).2.videoOf id = video' at moved entered
      cases moved with
      | idle idle => simpa [Entry.isIdle] using idle _ entered
      | @start video _ => cases spent : video.needsRewind <;> simp [spent] at entered
      | _ => simp_all
    obtain ⟨repeats, mem⟩ := ended
    rcases List.mem_append.mp (List.mem_filter.mp mem).1 with reported | noted
    · exact (ended_of_mem_reports reported).1
    · simp at noted
  · rintro ⟨repeats, element, operation⟩
    unfold make at told
    cases found : subtree? c.element e with
    | none => simp [update?_of_none _ found] at told
    | some part =>
      obtain ⟨before, after, e', eq, -⟩ := update?_of_some c.operation.perform found
      rw [eq, Option.getD_some, operation, Operation.perform] at told
      rcases part.videoReachedEnd_cases repeats element with
        none | ⟨sub, video, _, _, _, -, -, -, -, ended⟩
      · simp [none] at told
      · have mem : .finished id completed ∈
            (sub.body.endVideo (repeats sub.body) video).1.1 := by
          simpa [ended] using told
        rcases Body.endVideo_notice (repeats sub.body) video sub.body with one | ⟨-, quiet⟩
        · have same : id = sub.body.id ∧ completed = true := by simpa [one] using mem
          exact same.2
        · simpa [Event.isNotice] using quiet _ mem

variable [Analytic α]

/-- Whatever a host does with a loaded tree, what it is told of each element is that its video
started and stopped, in turns. While the element has its video, the video plays exactly when a start
was told last. A stop is said to be complete exactly when it comes from the end of the media. A
start and a pause answer whether they told of any start or stop. After an end of its media that was
not repeated, a player is asked to rewind, once, right before it is asked to play again. -/
theorem Loaded.notices_balanced {root : Element α} (loaded : root.Loaded)
    (calls : List (Call α)) :
    let log := (root.run calls).1
    let e := (root.run calls).2
    (∀ id, TakeTurns id (noticesOf id log)) ∧
      (∀ b ∈ e.toList, ∀ video, b.video = some video →
        (video.playing = true ↔ (noticesOf b.id log).getLast? = some (.started b.id))) ∧
      (∀ (c : Call α) id completed, .caused (.finished id completed) ∈ (e.make c).1 →
        (completed = true ↔ ∃ repeats element, c.operation = .videoReachedEnd repeats element)) ∧
      (∀ x part, subtree? x e = some part →
        (part.startAnswer = true ↔ ∃ id, .started id ∈ part.startAutoplay.1) ∧
          (part.pauseAnswer = true ↔
            ∃ id completed, .finished id completed ∈ part.pauseAutoplay.1)) ∧
      ∀ early since after id player,
        root.history calls =
            early ++ .ended id false :: (since ++ .caused (.play player) :: after) →
          player.element = id →
          (∀ other, .caused (.play other) ∈ since → other.element ≠ id) →
          JustRewound player (commandsTo id (early ++ .ended id false :: since)) := by
  intro log e
  have nodup : e.ids.Nodup := (prunes_run calls root).nodup loaded.nodup_ids
  have told : ∀ id, Told id (concerning id (root.history calls)) (e.videoOf id) := by
    intro id
    refine run_keeps_video loaded.nodup_ids ⟨.nil id, fun video shown => ?_⟩ Told.step calls
    obtain ⟨b, hb, -, hvideo⟩ := exists_of_videoOf shown
    simp [((loaded.fresh hb).video video hvideo).1]
  have rewound : ∀ id, Rewound (concerning id (root.history calls)) (e.videoOf id) := by
    intro id
    refine run_keeps_video loaded.nodup_ids ⟨nofun, by simp, by simp⟩ Rewound.step calls
  refine ⟨fun id => notices_history id calls root ▸ (told id).turns, fun b hb video shown => ?_,
    fun c id completed => completed_iff nodup, fun x part _ =>
      ⟨part.startAnswer_iff, part.pauseAnswer_iff⟩, ?_⟩
  · have here : e.videoOf b.id = some video := (videoOf_of_mem nodup hb).trans shown
    rw [← notices_history, (told b.id).turns.getLast?_eq_started_iff]
    exact (told b.id).playing video here
  · intro early since after id player eq named unplayed
    have split : concerning id (root.history calls) =
        concerning id (early ++ .ended id false :: since) ++
          .caused (.play player) :: concerning id after := by
      rw [eq]
      simp [concerning, Entry.element, Occurrence.element, Event.element, named]
    refine (rewound id).plays _ _ _ split player rfl ?_
    have debt : concerning id (early ++ .ended id false :: since) =
        concerning id early ++ .ended id false :: concerning id since := by
      simp [concerning, Entry.element]
    rw [debt]
    refine owesRewind_of_ended fun other mem => ?_
    obtain ⟨there, here⟩ := List.mem_filter.mp mem
    exact unplayed other there (beq_iff_eq.mp here)

def playedTwice : List (Call Float) :=
  [⟨0, .startAutoplay⟩, ⟨0, .videoReachedEnd (fun _ => false) 0⟩, ⟨0, .startAutoplay⟩]

theorem Loaded.notices_balanced_film : ∃ root : Element Float, root.Loaded ∧
    noticesOf 0 (root.run playedTwice).1 = [.started 0, .finished 0 true, .started 0] ∧
    TakeTurns 0 (noticesOf 0 (root.run playedTwice).1) ∧
    JustRewound ⟨0, ⟨"a.mp4"⟩⟩ (commandsTo 0 ((root.history playedTwice).take 5)) := by
  have seen : (screened (.film "a.mp4" [])).any fun root =>
      noticesOf 0 (root.run playedTwice).1 = [.started 0, .finished 0 true, .started 0] ∧
        root.history playedTwice =
          [.caused (.play ⟨0, ⟨"a.mp4"⟩⟩), .caused (.started 0)] ++
            .ended 0 false :: ([.caused (.finished 0 true), .caused (.rewind ⟨0, ⟨"a.mp4"⟩⟩)] ++
              .caused (.play ⟨0, ⟨"a.mp4"⟩⟩) :: [.caused (.started 0)]) := by
    decide +kernel
  obtain ⟨root, loaded, seen⟩ := exists_loaded_of_screened seen
  obtain ⟨notices, history⟩ := of_decide_eq_true seen
  obtain ⟨turns, -, -, -, rewound⟩ := loaded.notices_balanced playedTwice
  refine ⟨root, loaded, notices, turns 0, ?_⟩
  have just := rewound _ _ _ 0 ⟨0, ⟨"a.mp4"⟩⟩ history rfl (by simp)
  rw [history]
  exact just

end Element

end LayerTree
