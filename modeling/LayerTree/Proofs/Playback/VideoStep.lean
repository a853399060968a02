import LayerTree.Playback.History
import LayerTree.Proofs.Playback.PlayButtons

/-!
What a call means for the video of one element.

Of all elements of a tree each sees at most one of a few things happen to its video at a call: it
starts, stops, comes to an end, or is dropped. `VideoStep` lists them, each with what is entered
about the element.
-/

set_option autoImplicit false
set_option relaxedAutoImplicit false

namespace LayerTree

variable {α : Type}

def concerning (id : ElementId) (history : List (Entry α)) : List (Entry α) :=
  history.filter fun entry => entry.element == id

theorem concerning_append (id : ElementId) (history more : List (Entry α)) :
    concerning id (history ++ more) = concerning id history ++ concerning id more :=
  List.filter_append ..

theorem concerning_noted (id : ElementId) (log : List (Occurrence α)) :
    concerning id (log.map .noted) = (about id log).map .noted := by
  rw [concerning, List.filter_map]
  rfl

namespace Element

def videoOf (id : ElementId) (e : Element α) : Option (VideoSurface α) :=
  (e.find? id).bind Body.video

theorem videoOf_of_mem {e : Element α} (nodup : e.ids.Nodup) {b : Body α} (hb : b ∈ e.toList) :
    e.videoOf b.id = b.video := by
  rw [videoOf, find?_of_mem nodup hb, Option.bind_some]

theorem videoOf_of_not_mem {e : Element α} {id : ElementId} (absent : id ∉ e.ids) :
    e.videoOf id = none := by
  have missing : e.find? id = none := by
    refine List.find?_eq_none.mpr fun b hb named => absent ?_
    have same : b.id = id := by simpa using named
    exact same ▸ List.mem_map_of_mem hb
  rw [videoOf, missing, Option.bind_none]

theorem exists_of_videoOf {e : Element α} {id : ElementId} {video : VideoSurface α}
    (h : e.videoOf id = some video) : ∃ b ∈ e.toList, b.id = id ∧ b.video = some video := by
  obtain ⟨b, found, hvideo⟩ := Option.bind_eq_some_iff.mp h
  have named : b.id = id := by simpa using List.find?_some found
  exact ⟨b, List.mem_of_find?_eq_some found, named, hvideo⟩

end Element

def Entry.isIdle : Entry α → Bool
  | noted (.landed _) => true
  | caused (.seek _ _) => true
  | caused (.action _ _) => true
  | _ => false

theorem foldl_eq_of_idle {next : Bool → Entry α → Bool}
    (stays : ∀ before entry, entry.isIdle = true → next before entry = before)
    {entries : List (Entry α)} (idle : ∀ entry ∈ entries, entry.isIdle = true) (before : Bool) :
    entries.foldl next before = before := by
  induction entries with
  | nil => rfl
  | cons entry entries ih =>
    rw [List.foldl_cons, stays before entry (idle entry List.mem_cons_self)]
    exact ih fun entry mem => idle entry (List.mem_cons_of_mem _ mem)

/-- What may become of the video of an element at one call, with what is entered about the element
at that call. -/
inductive VideoStep (id : ElementId) :
    Option (VideoSurface α) → List (Entry α) → Option (VideoSurface α) → Prop
  | idle {video : Option (VideoSurface α)} {entries : List (Entry α)} :
      (∀ entry ∈ entries, entry.isIdle = true) → VideoStep id video entries video
  /-- A video that does not play starts, rewound if it was over. -/
  | start {video : VideoSurface α} : video.playing = false →
      VideoStep id (some video)
        ((if video.needsRewind then [.caused (.rewind ⟨id, video.url⟩)] else []) ++
          [.caused (.play ⟨id, video.url⟩), .caused (.started id)])
        (some { video with playing := true, needsRewind := false })
  | pause {video : VideoSurface α} : video.playing = true →
      VideoStep id (some video) [.caused (.pause ⟨id, video.url⟩), .caused (.finished id false)]
        (some { video with playing := false })
  /-- A video is over and repeats, whether it was playing or not. -/
  | again {video : VideoSurface α} :
      VideoStep id (some video)
        [.ended id true, .caused (.rewind ⟨id, video.url⟩), .caused (.play ⟨id, video.url⟩)]
        (some video)
  /-- A video that plays is over. -/
  | finish {video : VideoSurface α} : video.playing = true →
      VideoStep id (some video) [.ended id false, .caused (.finished id true)]
        (some { video with playing := false, needsRewind := true })
  /-- A video that does not play is over. -/
  | lapse {video : VideoSurface α} : video.playing = false →
      VideoStep id (some video) [.ended id false]
        (some { video with playing := false, needsRewind := true })
  | drop {video : Option (VideoSurface α)} : VideoStep id video [] none

namespace Body

def Steps (reports : List (Entry α)) (b : Body α) (log : List (Occurrence α)) (b' : Body α) :
    Prop :=
  VideoStep b.id b.video (concerning b.id reports ++ log.map .noted) b'.video

structure Calm (b : Body α) (log : List (Occurrence α)) (b' : Body α) : Prop where
  video : b'.video = b.video
  idle : ∀ o ∈ log, (Entry.noted o).isIdle = true

theorem Calm.stay (b : Body α) : Calm b [] b := ⟨rfl, by simp⟩

theorem Calm.steps {b b' : Body α} {log : List (Occurrence α)} (calm : Calm b log b') :
    Steps [] b log b' := by
  have idle : ∀ entry ∈ log.map Entry.noted, entry.isIdle = true := by
    intro entry mem
    obtain ⟨o, ho, rfl⟩ := List.mem_map.mp mem
    exact calm.idle o ho
  unfold Steps
  rw [calm.video]
  exact .idle idle

theorem calm_applyOffset [Scalar α] (ready : Player → Bool) (t : α) (autoplay : Bool)
    (b : Body α) :
    Calm b ((b.applyOffset ready t autoplay).1.map .caused) (b.applyOffset ready t autoplay).2 := by
  refine ⟨applyOffset_video ready t autoplay b, ?_⟩
  cases autoplay with
  | true => simp [applyOffset]
  | false =>
    rw [applyOffset_false]
    rcases (b.stepSprite t).seekVideo_cases ready t with
      ⟨eq, -⟩ | ⟨video, ticket, -, -, eq⟩ | ⟨video, -, -, -, eq⟩ <;> simp [eq, Entry.isIdle]

theorem steps_fade {reports : List (Entry α)} (b : Body α) (log : List (Occurrence α))
    (b' : Body α) (opacity : α) (steps : Steps reports b log b') :
    Steps reports b log (b'.withOpacity opacity) := steps

theorem steps_startVideo (b : Body α) :
    Steps [] b (b.startVideo.1.map .caused) b.startVideo.2 := by
  rcases b.startVideo_cases with ⟨eq, -⟩ | ⟨video, hvideo, rests, eq⟩
  · rw [eq]
    exact (Calm.stay b).steps
  · have step : VideoStep b.id _ _ _ := .start rests
    rw [Steps, eq, hvideo]
    cases spent : video.needsRewind <;> simpa [spent, concerning, player] using step

theorem steps_pauseVideo (b : Body α) :
    Steps [] b (b.pauseVideo.1.map .caused) b.pauseVideo.2 := by
  rcases b.pauseVideo_cases with ⟨eq, -⟩ | ⟨video, hvideo, plays, eq⟩
  · rw [eq]
    exact (Calm.stay b).steps
  · rw [Steps, eq, hvideo]
    exact .pause plays

theorem steps_endVideo {b : Body α} {video : VideoSurface α} (hvideo : b.video = some video)
    (repeats : Bool) :
    Steps [.ended b.id repeats] b ((b.endVideo repeats video).1.1.map .caused)
      (b.endVideo repeats video).2 := by
  have reported : concerning b.id [Entry.ended (α := α) b.id repeats] = [.ended b.id repeats] := by
    simp [concerning, Entry.element]
  rw [Steps, reported, hvideo]
  cases repeats with
  | true =>
    rw [show (b.endVideo true video).2.video = some video from hvideo]
    exact .again
  | false =>
    cases playing : video.playing with
    | true =>
      simp only [endVideo, playing, Bool.false_eq_true, if_false, if_true]
      exact .finish playing
    | false =>
      simp only [endVideo, playing, Bool.false_eq_true, if_false]
      exact .lapse playing

end Body

namespace Element

variable [Scalar α] {e : Element α}

theorem steps_completeSeek (nodup : e.ids.Nodup) (ready : Player → Bool) (ticket : SeekTicket) :
    Bodywise (Body.Steps []) e ((e.completeSeek ready ticket).1.1.record ticket ++
      (e.completeSeek ready ticket).1.2.map .caused) (e.completeSeek ready ticket).2 := by
  have land : ∀ b : Body α, Body.Calm b [.landed ticket] b.landed :=
    fun b => ⟨rfl, by simp [Entry.isIdle]⟩
  have stay : ∀ b : Body α, Body.Steps [] b [] b := fun b => (Body.Calm.stay b).steps
  refine Bodywise.completeSeek stay nodup (fun b _ _ _ _ => (land b).steps) ?_
  intro part t distinct _ _ names _
  have landed := Bodywise.landed Body.Calm.stay distinct names (land _)
  have applied : Bodywise Body.Calm part.landed
      ((part.landed.setTimeOffset ready t false).1.map .caused)
      (part.landed.setTimeOffset ready t false).2 :=
    Bodywise.setTimeOffset Body.Calm.stay (landed.nodup distinct)
      fun _ _ b _ => Body.calm_applyOffset ready t false b
  refine landed.trans applied (ids_setTimeOffset ready t false part.landed) ?_
  intro b log b' log' b'' first second
  refine Body.Calm.steps ⟨second.video.trans first.video, fun o ho => ?_⟩
  exact (List.mem_append.mp ho).elim (first.idle o) (second.idle o)

theorem steps_videoReachedEnd (nodup : e.ids.Nodup) (repeats : Body α → Bool) (id : ElementId) :
    Bodywise (Body.Steps ((Operation.videoReachedEnd repeats id).reports e)) e
      (((e.videoReachedEnd repeats id).1.getD []).map .caused)
      (e.videoReachedEnd repeats id).2 := by
  refine Bodywise.videoReachedEnd Body.steps_fade nodup (fun b unheard => ?_) ?_
  · have nothing : concerning b.id ((Operation.videoReachedEnd repeats id).reports e) = [] := by
      simp only [Operation.reports]
      split
      · next part found =>
        split
        · next shown =>
          obtain ⟨named, -⟩ := subtree?_eq_some found
          have other : b.id ≠ id := by
            rcases unheard with other | ⟨hb, mute⟩
            · exact other
            · intro same
              have here := (subtree?_sublist found).subset (body_mem_toList part)
              have eq : part.body = b :=
                List.inj_on_of_nodup_map nodup here hb (named.trans same.symm)
              simp [eq, mute] at shown
          simp [concerning, Entry.element, other.symm]
        · rfl
      · rfl
    unfold Body.Steps
    rw [nothing]
    exact .idle (by simp)
  · intro b hb named video hvideo
    subst named
    obtain ⟨part, found, rfl⟩ := exists_subtree?_of_mem nodup hb
    have reported : (Operation.videoReachedEnd repeats part.body.id).reports e =
        [.ended part.body.id (repeats part.body)] := by
      simp [Operation.reports, found, hvideo]
    rw [reported]
    exact Body.steps_endVideo hvideo _

theorem steps_perform (nodup : e.ids.Nodup) (operation : Operation α) :
    Bodywise (Body.Steps (operation.reports e)) e (operation.perform e).1
      (operation.perform e).2 := by
  have stay : ∀ b : Body α, Body.Steps [] b [] b := fun b => (Body.Calm.stay b).steps
  cases operation with
  | setTimeOffset ready t autoplay =>
    exact Bodywise.setTimeOffset stay nodup
      fun _ _ b _ => (Body.calm_applyOffset ready t autoplay b).steps
  | completeSeek ready ticket => exact steps_completeSeek nodup ready ticket
  | startAutoplay =>
    exact Bodywise.startAutoplay Body.steps_fade nodup fun b _ => Body.steps_startVideo b
  | pauseAutoplay =>
    exact Bodywise.pauseAutoplay Body.steps_fade nodup fun b _ => Body.steps_pauseVideo b
  | videoReachedEnd repeats id => exact steps_videoReachedEnd nodup repeats id
  | touchDown => exact Bodywise.setActionOpacity stay (fun b _ => stay b) pressedOpacity nodup
  | touchCancel => exact Bodywise.setActionOpacity stay (fun b _ => stay b) 1 nodup
  | press =>
    refine Bodywise.press stay (fun b name _ => Body.Calm.steps ⟨rfl, ?_⟩) nodup
    simp [Entry.isIdle]
  | clear => exact Bodywise.clear (fun b => .drop) e

omit [Scalar α] in
theorem element_mem_of_reports {operation : Operation α} {entry : Entry α}
    (h : entry ∈ operation.reports e) : entry.element ∈ e.ids := by
  cases operation with
  | videoReachedEnd repeats id =>
    simp only [Operation.reports] at h
    split at h
    · next part found =>
      split at h
      · obtain rfl := List.mem_singleton.mp h
        obtain ⟨named, -⟩ := subtree?_eq_some found
        have here := (subtree?_sublist found).subset (body_mem_toList part)
        exact named ▸ List.mem_map_of_mem here
      · simp at h
    · simp at h
  | _ => simp [Operation.reports] at h

omit [Scalar α] in
theorem ended_of_mem_reports {e : Element α} {c : Call α} {entry : Entry α}
    (mem : entry ∈ c.reports e) :
    (∃ repeats id, c.operation = .videoReachedEnd repeats id) ∧
      ∃ id repeats, entry = .ended id repeats := by
  unfold Call.reports at mem
  split at mem
  · next part _ =>
    cases operation : c.operation with
    | videoReachedEnd repeats id =>
      refine ⟨⟨repeats, id, rfl⟩, ?_⟩
      simp only [operation, Operation.reports] at mem
      split at mem
      · split at mem
        · exact ⟨id, _, List.mem_singleton.mp mem⟩
        · simp at mem
      · simp at mem
    | _ => simp [operation, Operation.reports] at mem
  · simp at mem

omit [Scalar α] in
theorem mem_ids_of_mem_reports {c : Call α} {entry : Entry α} (mem : entry ∈ c.reports e) :
    entry.element ∈ e.ids := by
  unfold Call.reports at mem
  split at mem
  · next part found =>
    exact ((subtree?_sublist found).map Body.id).subset (element_mem_of_reports mem)
  · simp at mem

theorem steps_make (nodup : e.ids.Nodup) (c : Call α) :
    Bodywise (Body.Steps (c.reports e)) e (e.make c).1 (e.make c).2 := by
  unfold make Call.reports
  cases found : subtree? c.element e with
  | none =>
    rw [update?_of_none _ found]
    exact Bodywise.refl (fun b => (Body.Calm.stay b).steps) e
  | some part =>
    obtain ⟨before, after, e', eq, old, new, -⟩ := update?_of_some c.operation.perform found
    have distinct : part.ids.Nodup := ((subtree?_sublist found).map Body.id).nodup nodup
    rw [eq]
    refine Bodywise.splice (fun b outside => ?_) nodup old new (steps_perform distinct c.operation)
    have nothing : concerning b.id (c.operation.reports part) = [] := by
      refine List.filter_eq_nil_iff.mpr fun entry mem named => outside ?_
      have same : entry.element = b.id := by simpa using named
      exact same ▸ element_mem_of_reports mem
    simp only [Body.Steps, nothing]
    exact .idle (by simp)

/-! An element keeps its place and its video as long as nothing is cleared. -/

end Element

def Body.stage (b : Body α) : ElementId × Bool := (b.id, b.video.isSome)

namespace Element

variable [Scalar α] {e : Element α}

omit [Scalar α] in
theorem ids_eq_of_stage {e' : Element α}
    (same : e'.toList.map Body.stage = e.toList.map Body.stage) : e'.ids = e.ids := by
  have first : ∀ e : Element α, e.ids = (e.toList.map Body.stage).map Prod.fst := by
    intro e
    simp only [ids, List.map_map]
    rfl
  rw [first, first, same]

omit [Scalar α] in
theorem isSome_videoOf_iff (nodup : e.ids.Nodup) {id : ElementId} :
    (e.videoOf id).isSome = true ↔ (id, true) ∈ e.toList.map Body.stage := by
  constructor
  · intro shown
    obtain ⟨video, eq⟩ := Option.isSome_iff_exists.mp shown
    obtain ⟨b, hb, named, hvideo⟩ := exists_of_videoOf eq
    exact List.mem_map.mpr ⟨b, hb, by simp [Body.stage, named, hvideo]⟩
  · intro mem
    obtain ⟨b, hb, same⟩ := List.mem_map.mp mem
    obtain ⟨rfl, shown⟩ := Prod.mk.inj same
    rw [videoOf_of_mem nodup hb, shown]

omit [Scalar α] in
private theorem stage_setPlayOpacity (opacity : α) (e : Element α) :
    (e.setPlayOpacity opacity).toList.map Body.stage = e.toList.map Body.stage := by
  rw [setPlayOpacity, toList_map, List.map_map]
  exact List.map_congr_left fun b _ => by simp [Body.stage]

omit [Scalar α] in
private theorem stage_sweep {f : Body α → List (Event α) × Body α}
    (same : ∀ b, (f b).2.stage = b.stage) (e : Element α) :
    (e.sweep f).2.toList.map Body.stage = e.toList.map Body.stage := by
  rw [toList_sweep, List.map_map]
  exact List.map_congr_left fun b _ => same b

theorem stage_perform {operation : Operation α} (driven : operation.drives = true)
    (e : Element α) :
    (operation.perform e).2.toList.map Body.stage = e.toList.map Body.stage := by
  have applied : ∀ ready t autoplay (b : Body α),
      (b.applyOffset ready t autoplay).2.stage = b.stage := by
    intro ready t autoplay b
    simp [Body.stage, (Body.applyOffset_own ready t autoplay).id b]
  cases operation with
  | setTimeOffset ready t autoplay => exact map_toList_setTimeOffset applied ready t autoplay e
  | completeSeek ready ticket =>
    exact map_toList_completeSeek applied (fun _ => rfl) ready ticket e
  | startAutoplay =>
    have started : ∀ b : Body α, b.startVideo.2.stage = b.stage := by
      intro b
      rcases b.startVideo_cases with ⟨eq, -⟩ | ⟨video, hvideo, -, eq⟩
      · rw [eq]
      · simp [eq, Body.stage, hvideo]
    simp only [Operation.perform, startAutoplay]
    split
    · exact stage_sweep started e
    · exact (stage_setPlayOpacity 0 _).trans (stage_sweep started e)
  | pauseAutoplay =>
    have paused : ∀ b : Body α, b.pauseVideo.2.stage = b.stage := by
      intro b
      rcases b.pauseVideo_cases with ⟨eq, -⟩ | ⟨video, hvideo, -, eq⟩
      · rw [eq]
      · simp [eq, Body.stage, hvideo]
    simp only [Operation.perform, pauseAutoplay]
    split
    · exact stage_sweep paused e
    · exact (stage_setPlayOpacity 1 _).trans (stage_sweep paused e)
  | videoReachedEnd repeats id =>
    simp only [Operation.perform]
    rcases e.videoReachedEnd_cases repeats id with
      eq | ⟨part, video, before, after, e', -, hvideo, old, new, eq⟩
    · rw [eq]
    · have ended : (part.body.endVideo (repeats part.body) video).2.stage = part.body.stage := by
        unfold Body.endVideo
        repeat' split
        all_goals simp [Body.stage, hvideo]
      have same : e'.toList.map Body.stage = e.toList.map Body.stage := by
        simp only [old, new, toList_eq part, List.map_append, List.map_cons, ended]
      rw [eq]
      dsimp only
      split
      · exact (stage_setPlayOpacity 1 e').trans same
      · exact same
  | _ => simp [Operation.drives] at driven

theorem stage_make {c : Call α} (driven : c.operation.drives = true) (e : Element α) :
    (e.make c).2.toList.map Body.stage = e.toList.map Body.stage := by
  unfold make
  cases found : subtree? c.element e with
  | none => rw [update?_of_none _ found, Option.getD_none]
  | some part =>
    obtain ⟨before, after, e', eq, old, new, -⟩ := update?_of_some c.operation.perform found
    rw [eq, Option.getD_some, old, new]
    simp only [List.map_append, stage_perform driven]

theorem videoStep_make (nodup : e.ids.Nodup) (c : Call α) (id : ElementId) :
    VideoStep id (e.videoOf id) (concerning id (e.entries c)) ((e.make c).2.videoOf id) := by
  have moved := steps_make nodup c
  have split : concerning id (e.entries c) =
      concerning id (c.reports e) ++ (about id (e.make c).1).map .noted := by
    rw [entries, concerning_append, concerning_noted]
  by_cases left : id ∈ (e.make c).2.ids
  · obtain ⟨b', hb', rfl⟩ := List.mem_map.mp left
    obtain ⟨b, hb, same, steps⟩ := moved.moved b' hb'
    rw [split, videoOf_of_mem (moved.nodup nodup) hb', same, videoOf_of_mem nodup hb]
    exact steps
  · have unrecorded : about id (e.make c).1 = [] :=
      about_eq_nil fun o ho named => left (named ▸ moved.own o ho)
    have unreported : concerning id (c.reports e) = [] := by
      refine List.filter_eq_nil_iff.mpr fun entry mem named => left ?_
      have same : entry.element = id := by simpa using named
      -- only the end of media is reported, and that drops nothing
      have driven : c.operation.drives = true := by
        obtain ⟨⟨repeats, target, operation⟩, -⟩ := ended_of_mem_reports mem
        rw [operation]
        rfl
      rw [← same, ids_eq_of_stage (stage_make driven e)]
      exact mem_ids_of_mem_reports mem
    rw [split, unrecorded, unreported, videoOf_of_not_mem left]
    exact .drop

theorem isSome_videoOf_make (nodup : e.ids.Nodup) {c : Call α}
    (driven : c.operation.drives = true) (id : ElementId) :
    ((e.make c).2.videoOf id).isSome = (e.videoOf id).isSome := by
  have stages := stage_make driven e
  rw [Bool.eq_iff_iff, isSome_videoOf_iff nodup,
    isSome_videoOf_iff ((ids_eq_of_stage stages).symm ▸ nodup), stages]

theorem history_append : ∀ (first others : List (Call α)) (e : Element α),
    e.history (first ++ others) = e.history first ++ (e.run first).2.history others
  | [], others, e => rfl
  | c :: first, others, e => by
    simp only [List.cons_append, history, run, history_append first others, List.append_assoc]

theorem history_concat (calls : List (Call α)) (c : Call α) (e : Element α) :
    e.history (calls ++ [c]) = e.history calls ++ (e.run calls).2.entries c := by
  rw [history_append, history, history, List.append_nil]

theorem run_concat (calls : List (Call α)) (c : Call α) (e : Element α) :
    (e.run (calls ++ [c])).2 = ((e.run calls).2.make c).2 := by
  rw [run_append]
  rfl

/-- What every step of the video of an element keeps, any run of calls keeps. -/
theorem run_keeps_video {id : ElementId} {P : List (Entry α) → Option (VideoSurface α) → Prop}
    (nodup : e.ids.Nodup) (start : P [] (e.videoOf id))
    (step : ∀ {log video entries video'}, VideoStep id video entries video' → P log video →
      P (log ++ entries) video') (calls : List (Call α)) :
    P (concerning id (e.history calls)) ((e.run calls).2.videoOf id) := by
  induction calls using List.reverseRecOn with
  | nil => exact start
  | append_singleton calls c ih =>
    have nodup' : (e.run calls).2.ids.Nodup := (prunes_run calls e).nodup nodup
    have made := videoStep_make nodup' c id
    rw [history_concat, concerning_append, run_concat]
    exact step made ih

end Element

end LayerTree
