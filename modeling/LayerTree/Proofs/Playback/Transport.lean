import LayerTree.Proofs.Playback.VideoStep

/-!
Players against the flags of their videos.

A player runs from when it is asked to play until it is asked to pause or its media are over. While
a host drives a tree, every video that is marked as playing has a player that runs. The converse
fails when the end of media is reported late, for a video that does not play any more, and the host
wants the video repeated: its player runs again, and no pause reaches it.
-/

set_option autoImplicit false
set_option relaxedAutoImplicit false

namespace LayerTree

variable {α : Type}

def Entry.runs (running : Bool) : Entry α → Bool
  | ended _ _ => false
  | caused (.play _) => true
  | caused (.pause _) => false
  | _ => running

/-- Whether the player of an element runs after a history. -/
def running (id : ElementId) (history : List (Entry α)) : Bool :=
  (concerning id history).foldl Entry.runs false

theorem running_append (id : ElementId) (history more : List (Entry α)) :
    running id (history ++ more) = (concerning id more).foldl Entry.runs (running id history) := by
  rw [running, concerning_append, List.foldl_append]
  rfl

theorem Entry.runs_of_isIdle (before : Bool) (entry : Entry α) (idle : entry.isIdle = true) :
    entry.runs before = before := by
  unfold isIdle at idle
  split at idle <;> simp_all [runs]

def marked (video : Option (VideoSurface α)) : Bool := video.any fun video => video.playing

namespace Element

def playsAt (id : ElementId) (e : Element α) : Bool := marked (e.videoOf id)

/-- The call reports the end of media of a video that does not play, and the video repeats. -/
def RepeatsIdle (c : Call α) (e : Element α) : Prop :=
  ∃ id ∈ e.ids, .ended id true ∈ c.reports e ∧ e.playsAt id = false

instance [DecidableEq α] (c : Call α) (e : Element α) : Decidable (e.RepeatsIdle c) :=
  inferInstanceAs (Decidable (∃ id ∈ e.ids, _ ∧ _))

/-- No call of a run makes a video repeat that does not play. -/
def Timely [Scalar α] (calls : List (Call α)) (e : Element α) : Prop :=
  ∀ done c, done ++ [c] <+: calls → ¬(e.run done).2.RepeatsIdle c

theorem Timely.nil [Scalar α] (e : Element α) : e.Timely [] := by
  intro done c before
  simp at before

theorem Timely.of_prefix [Scalar α] {calls done : List (Call α)} {e : Element α}
    (timely : e.Timely calls) (before : done <+: calls) : e.Timely done :=
  fun done' c here => timely done' c (here.trans before)

theorem Timely.concat [Scalar α] {calls : List (Call α)} {e : Element α} (timely : e.Timely calls)
    {c : Call α} (last : ¬(e.run calls).2.RepeatsIdle c) : e.Timely (calls ++ [c]) := by
  intro done d before
  rcases List.prefix_concat_iff.mp before with same | before
  · obtain ⟨rfl, rfl⟩ := List.concat_inj.mp (by simpa using same)
    exact last
  · exact timely done d before

end Element

namespace VideoStep

variable {id : ElementId} {video video' : Option (VideoSurface α)} {entries : List (Entry α)}

theorem runs_of_playing (moved : VideoStep id video entries video') {before : Bool}
    (agreed : marked video = true → before = true)
    (playing : marked video' = true) :
    entries.foldl Entry.runs before = true := by
  cases moved with
  | idle idle => exact (foldl_eq_of_idle Entry.runs_of_isIdle idle before).trans (agreed playing)
  | @start video _ => cases video.needsRewind <;> rfl
  | again => rfl
  | _ => simp [marked] at playing

theorem playing_of_runs (moved : VideoStep id video entries video')
    (kept : video'.isSome = video.isSome)
    (plays : .ended id true ∈ entries → marked video = true)
    {before : Bool} (agreed : before = true → marked video = true)
    (runs : entries.foldl Entry.runs before = true) :
    marked video' = true := by
  cases moved with
  | idle idle => exact agreed ((foldl_eq_of_idle Entry.runs_of_isIdle idle before).symm.trans runs)
  | start _ => rfl
  | again => exact plays (by simp)
  | drop =>
    obtain rfl : video = none := by simpa using kept.symm
    exact agreed runs
  | _ => simp [Entry.runs] at runs

theorem not_playing_of_repeats (moved : VideoStep id video entries video')
    (repeated : .ended id true ∈ entries)
    (rests : marked video = false) (before : Bool) :
    entries.foldl Entry.runs before = true ∧ marked video' = false := by
  cases moved with
  | idle idle => simpa [Entry.isIdle] using idle _ repeated
  | @start video _ => cases spent : video.needsRewind <;> simp [spent] at repeated
  | again => exact ⟨rfl, rests⟩
  | _ => simp at repeated

end VideoStep

namespace Element

variable [Scalar α] {e : Element α}

theorem ended_mem_entries {c : Call α} {id : ElementId} {repeats : Bool} :
    .ended id repeats ∈ concerning id (e.entries c) ↔ .ended id repeats ∈ c.reports e := by
  simp [concerning, entries, Entry.element]

theorem playsAt_pauseAutoplay (id : ElementId) (e : Element α) :
    (e.make ⟨e.body.id, .pauseAutoplay⟩).2.playsAt id = false := by
  have rests : (e.make ⟨e.body.id, .pauseAutoplay⟩).2.isPlaying = false := by
    rw [make_root]
    exact isPlaying_pauseAutoplay e
  rw [Bool.eq_false_iff, ne_eq, playsAt, marked, Option.any_eq_true]
  rintro ⟨video, here, playing⟩
  obtain ⟨b, hb, -, hvideo⟩ := exists_of_videoOf here
  refine Bool.eq_false_iff.mp rests (isPlaying_iff.mpr ⟨b, hb, ?_⟩)
  simp [Body.playing, hvideo, playing]

theorem running_of_playsAt_run (nodup : e.ids.Nodup) (rests : ∀ id, e.playsAt id = false)
    (calls : List (Call α)) (id : ElementId) (playing : (e.run calls).2.playsAt id = true) :
    running id (e.history calls) = true := by
  refine run_keeps_video (P := fun log video => marked video = true →
    log.foldl Entry.runs false = true) nodup (fun plays => ?_) (fun moved agreed plays => ?_)
    calls playing
  · exact absurd plays (Bool.eq_false_iff.mp (rests id))
  · rw [List.foldl_append]
    exact moved.runs_of_playing agreed plays

theorem playsAt_of_running_run (nodup : e.ids.Nodup) {calls : List (Call α)}
    (driven : ∀ c ∈ calls, c.operation.drives = true)
    (timely : e.Timely calls) (id : ElementId) (runs : running id (e.history calls) = true) :
    (e.run calls).2.playsAt id = true := by
  induction calls using List.reverseRecOn generalizing id with
  | nil => simp [history, running, concerning] at runs
  | append_singleton calls c ih =>
    have nodup' : (e.run calls).2.ids.Nodup := (prunes_run calls e).nodup nodup
    have agreed := ih (fun d mem => driven d (by simp [mem]))
      (timely.of_prefix (List.prefix_append _ _)) id
    rw [history_concat, running_append] at runs
    rw [run_concat]
    refine (videoStep_make nodup' c id).playing_of_runs
      (isSome_videoOf_make nodup' (driven c (by simp)) id) (fun repeated => ?_) agreed runs
    by_contra rests
    have reported := ended_mem_entries.mp repeated
    exact timely calls c List.prefix_rfl
      ⟨id, mem_ids_of_mem_reports reported, reported, Bool.eq_false_iff.mpr rests⟩

theorem running_pauseAutoplay (nodup : e.ids.Nodup) {calls : List (Call α)}
    (driven : ∀ c ∈ calls, c.operation.drives = true) (timely : e.Timely calls)
    (id : ElementId) :
    running id (e.history (calls ++ [⟨e.body.id, .pauseAutoplay⟩])) = false := by
  have driven' : ∀ c ∈ calls ++ [⟨e.body.id, .pauseAutoplay⟩], c.operation.drives = true :=
    List.forall_mem_append.mpr ⟨driven, List.forall_mem_singleton.mpr rfl⟩
  have timely' : e.Timely (calls ++ [⟨e.body.id, .pauseAutoplay⟩]) := by
    refine timely.concat ?_
    rintro ⟨element, -, reported, -⟩
    obtain ⟨⟨repeats, target, operation⟩, -⟩ := ended_of_mem_reports reported
    simp at operation
  have paused : (e.run (calls ++ [⟨e.body.id, .pauseAutoplay⟩])).2.playsAt id = false := by
    rw [run_concat, ← (prunes_run calls e).body_id]
    exact playsAt_pauseAutoplay id _
  rw [Bool.eq_false_iff]
  intro runs
  exact Bool.eq_false_iff.mp paused (playsAt_of_running_run nodup driven' timely' id runs)

variable [Analytic α]

theorem Loaded.playsAt_eq_false {root : Element α} (loaded : root.Loaded) (id : ElementId) :
    root.playsAt id = false := by
  rw [Bool.eq_false_iff, ne_eq, playsAt, marked, Option.any_eq_true]
  rintro ⟨video, here, playing⟩
  obtain ⟨b, hb, -, hvideo⟩ := exists_of_videoOf here
  simp [((loaded.fresh hb).video video hvideo).1] at playing

/-- While a host drives a loaded tree, every player that runs belongs to a video that is marked as
playing, if and only if no end of media is reported for a video that does not play and repeats. Then
no player runs after the whole tree was paused. Whatever is reported, a video that is marked as
playing has a player that runs. -/
theorem Loaded.players_follow_flags_iff {root : Element α} (loaded : root.Loaded)
    (calls : List (Call α)) (driven : ∀ c ∈ calls, c.operation.drives = true) :
    ((∀ done, done <+: calls → ∀ id, running id (root.history done) = true →
        (root.run done).2.playsAt id = true) ↔ root.Timely calls) ∧
      (root.Timely calls → ∀ id,
        running id (root.history (calls ++ [⟨root.body.id, .pauseAutoplay⟩])) = false) ∧
      ∀ done, done <+: calls → ∀ id, (root.run done).2.playsAt id = true →
        running id (root.history done) = true := by
  have nodup := loaded.nodup_ids
  refine ⟨⟨fun agreed done c before repeats => ?_, fun timely done before id => ?_⟩,
    running_pauseAutoplay nodup driven,
    fun done _ id => running_of_playsAt_run nodup loaded.playsAt_eq_false done id⟩
  · obtain ⟨id, -, repeated, rests⟩ := repeats
    have nodup' : (root.run done).2.ids.Nodup := (prunes_run done root).nodup nodup
    have moved := videoStep_make nodup' c id
    obtain ⟨runs, rests'⟩ :=
      moved.not_playing_of_repeats (ended_mem_entries.mpr repeated) rests
        (running id (root.history done))
    have plays := agreed (done ++ [c]) before id
      (by rw [history_concat, running_append]; exact runs)
    rw [run_concat] at plays
    exact Bool.eq_false_iff.mp rests' plays
  · exact playsAt_of_running_run nodup (fun c mem => driven c (before.subset mem))
      (timely.of_prefix before) id

def repeatedCalls : List (Call Float) :=
  [⟨0, .startAutoplay⟩, ⟨0, .videoReachedEnd (fun _ => true) 0⟩]

theorem Loaded.players_follow_flags_film : ∃ root : Element Float, root.Loaded ∧
    (∀ c ∈ repeatedCalls, c.operation.drives = true) ∧
    root.Timely repeatedCalls ∧ running 0 (root.history repeatedCalls) = true ∧
    (root.run repeatedCalls).2.playsAt 0 = true ∧
    ∀ id,
      running id (root.history (repeatedCalls ++ [⟨root.body.id, .pauseAutoplay⟩])) = false := by
  have seen : (screened (.film "a.mp4" [])).any fun root =>
      ¬root.RepeatsIdle repeatedCalls[0] ∧
        ¬(root.run [repeatedCalls[0]]).2.RepeatsIdle repeatedCalls[1] ∧
        running 0 (root.history repeatedCalls) = true := by
    decide +kernel
  obtain ⟨root, loaded, seen⟩ := exists_loaded_of_screened seen
  obtain ⟨first, second, runs⟩ := of_decide_eq_true seen
  have driven : ∀ c ∈ repeatedCalls, c.operation.drives = true := by
    simp [repeatedCalls, Operation.drives]
  have timely : root.Timely repeatedCalls := ((Timely.nil root).concat first).concat second
  obtain ⟨follows, paused, -⟩ := loaded.players_follow_flags_iff repeatedCalls driven
  exact ⟨root, loaded, driven, timely, runs,
    follows.mpr timely repeatedCalls List.prefix_rfl 0 runs, paused timely⟩

def lateEnd : List (Call Float) := [⟨0, .videoReachedEnd (fun _ => true) 0⟩]

/-- A player that was made to repeat runs without its video being marked, and a pause of the whole
tree leaves it running. -/
theorem Loaded.runs_unmarked : ∃ root : Element Float, root.Loaded ∧
    (∀ c ∈ lateEnd, c.operation.drives = true) ∧
    running 0 (root.history lateEnd) = true ∧ (root.run lateEnd).2.playsAt 0 = false ∧
    running 0 (root.history (lateEnd ++ [⟨root.body.id, .pauseAutoplay⟩])) = true := by
  have seen : (screened (.film "a.mp4" [])).any fun root =>
      running 0 (root.history lateEnd) = true ∧ (root.run lateEnd).2.playsAt 0 = false ∧
        running 0 (root.history (lateEnd ++ [⟨root.body.id, .pauseAutoplay⟩])) = true := by
    decide +kernel
  obtain ⟨root, loaded, seen⟩ := exists_loaded_of_screened seen
  exact ⟨root, loaded, by simp [lateEnd, Operation.drives], of_decide_eq_true seen⟩

end Element

end LayerTree
