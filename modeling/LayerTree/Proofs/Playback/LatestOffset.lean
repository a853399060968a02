import LayerTree.Proofs.Element.Loaded
import LayerTree.Proofs.Playback.Remains

/-!
While all players are ready, the latest offset wins.

A host that scrubs moves the timeline of a whole tree and reports the seeks that have landed, in any
order. Every video has then been sent to the latest offset or still keeps it pending; no offset
before it is ever gone back to.
-/

set_option autoImplicit false
set_option relaxedAutoImplicit false

namespace LayerTree

variable {α : Type}

inductive Scrub (α : Type) where
  | offset (t : α) (autoplay : Bool)
  | complete (ticket : SeekTicket)

namespace Scrub

def operation : Scrub α → Operation α
  | offset t autoplay => .setTimeOffset (fun _ => true) t autoplay
  | complete ticket => .completeSeek (fun _ => true) ticket

def call (id : ElementId) (s : Scrub α) : Call α := ⟨id, s.operation⟩

variable [Scalar α]

def next (latest : Option α) : Scrub α → Option α
  | offset t false => if 0 ≤ t ∧ t ≤ 1 then some t else latest
  | offset _ true => latest
  | complete _ => latest

/-- The latest offset on the timeline that videos were to follow. -/
def latest (steps : List (Scrub α)) : Option α := steps.foldl next none

end Scrub

namespace Element

def videos (e : Element α) : List (ElementId × Option (VideoSurface α)) :=
  e.toList.map fun b => (b.id, b.video)

@[simp] theorem videos_landed (e : Element α) : e.landed.videos = e.videos := by
  cases e with
  | node b es => rfl

theorem ids_eq_of_videos {e e' : Element α} (h : e'.videos = e.videos) : e'.ids = e.ids := by
  simpa [videos, ids, Function.comp_def] using congrArg (List.map Prod.fst) h

theorem body_id_of_videos {e e' : Element α} (h : e'.videos = e.videos) :
    e'.body.id = e.body.id := by
  rw [videos, videos, toList_eq, toList_eq e] at h
  exact congrArg Prod.fst (List.cons.inj h).1

variable [Scalar α]

theorem videos_setTimeOffset (ready : Player → Bool) (t : α) (autoplay : Bool) (e : Element α) :
    (e.setTimeOffset ready t autoplay).2.videos = e.videos :=
  map_toList_setTimeOffset (fun ready t autoplay b => by
    simp [(Body.applyOffset_own ready t autoplay).id b]) ready t autoplay e

theorem videos_completeSeek (ready : Player → Bool) (ticket : SeekTicket) (e : Element α) :
    (e.completeSeek ready ticket).2.videos = e.videos :=
  map_toList_completeSeek (fun ready t autoplay b => by
    simp [(Body.applyOffset_own ready t autoplay).id b]) (fun _ => rfl) ready ticket e

theorem videos_scrub (s : Scrub α) (e : Element α) :
    (s.operation.perform e).2.videos = e.videos := by
  cases s with
  | offset t autoplay => exact videos_setTimeOffset _ t autoplay e
  | complete ticket => exact videos_completeSeek _ ticket e

def scrub (steps : List (Scrub α)) (e : Element α) : List (Occurrence α) × Element α :=
  e.run (steps.map (Scrub.call e.body.id))

end Element

namespace Body

/-- The last seek that a video's player was asked for has the media time of an offset as its
target. -/
def SentTo [Scalar α] (log : List (Occurrence α)) (b : Body α) (video : VideoSurface α) (t : α) :
    Prop :=
  ∃ request, (requestsTo b.id log).getLast? = some request ∧ request.target = video.mediaTime t

def Idles (_log : List (Occurrence α)) (b : Body α) : Prop :=
  b.seek.inFlight = none → b.seek.pending = none

/-- A body is where the latest offset wants it, or will be. -/
structure Follows [Scalar α] (latest : Option α) (log : List (Occurrence α)) (b : Body α) :
    Prop where
  idles : b.Idles log
  quiet : latest = none → requestsTo b.id log = [] ∧ b.seek.pending = none
  range : ∀ t, latest = some t → 0 ≤ t ∧ t ≤ 1
  sent : ∀ t, latest = some t → ∀ video, b.video = some video →
    b.seek.pending = some t ∨ b.seek.pending = none ∧ b.SentTo log video t

namespace Follows

variable [Scalar α] {latest : Option α} {log : List (Occurrence α)} {b b' : Body α}

theorem start (h : b.seek = SeekState.initial) : Follows none [] b where
  idles _ := by simp [h, SeekState.initial]
  quiet _ := by simp [h, SeekState.initial]
  range := nofun
  sent := nofun

theorem stepSprite (h : Follows latest log b) (t : α) : Follows latest log (b.stepSprite t) := by
  obtain ⟨idles, quiet, range, sent⟩ := h
  refine ⟨?_, ?_, range, ?_⟩
  · simpa [Idles] using idles
  · simpa using quiet
  · simpa [SentTo] using sent

theorem of_applyOffset {t : α} (h : b.Idles log) (low : 0 ≤ t) (high : t ≤ 1) :
    Follows (some t) (log ++ (b.applyOffset (fun _ => true) t false).1.map .caused)
      (b.applyOffset (fun _ => true) t false).2 := by
  have range : ∀ t', some t = some t' → 0 ≤ t' ∧ t' ≤ 1 := by
    intro t' same
    obtain rfl := Option.some.inj same
    exact ⟨low, high⟩
  have idles : (b.stepSprite t).Idles log := by simpa [Idles] using h
  rw [applyOffset_false]
  generalize b.stepSprite t = c at idles
  rcases c.seekVideo_cases (fun _ => true) t with
    ⟨eq, still⟩ | ⟨video, ticket, hvideo, hflying, eq⟩ | ⟨video, hvideo, hflying, -, eq⟩
  · rw [eq]
    exact ⟨idles, nofun, range, fun _ _ video hvideo => nomatch (still video hvideo).2⟩
  · rw [eq]
    refine ⟨fun landed => ?_, nofun, range, fun t' same _ _ => .inl same⟩
    exact absurd (hflying.symm.trans landed) (by simp)
  · rw [eq]
    refine ⟨nofun, nofun, range, fun t' same video' hvideo' => .inr ⟨idles hflying, ?_⟩⟩
    obtain rfl := Option.some.inj same
    obtain rfl := Option.some.inj (hvideo.symm.trans hvideo')
    refine ⟨⟨video.mediaTime t, seekTolerance, seekTolerance, (c.seek.issue c.id).1⟩, ?_, rfl⟩
    simp [requestsTo_append, requestsTo_cons_seek, player]

theorem settle {ticket : SeekTicket} (h : Follows latest log b) (pending : b.seek.pending = none) :
    Follows latest (log ++ [.landed ticket]) b.landed := by
  have requests : requestsTo b.id (log ++ [.landed ticket]) = requestsTo b.id log := by
    simp [requestsTo_append]
  obtain ⟨-, quiet, range, sent⟩ := h
  refine ⟨fun _ => rfl, fun unasked => ⟨requests.trans (quiet unasked).1, rfl⟩, range, ?_⟩
  intro t asked video hvideo
  rcases sent t asked video hvideo with kept | ⟨-, request, last, target⟩
  · simp [pending] at kept
  · exact .inr ⟨rfl, request, requests.symm ▸ last, target⟩

theorem latest_eq {t : α} (h : Follows latest log b) {video : VideoSurface α}
    (hvideo : b.video = some video) (pending : b.seek.pending = some t) : latest = some t := by
  cases hlatest : latest with
  | none => simp [(h.quiet hlatest).2] at pending
  | some t' =>
    rcases h.sent t' hlatest video hvideo with kept | ⟨nothing, -⟩
    · exact kept.symm.trans pending
    · simp [nothing] at pending

end Follows

end Body

namespace Element

variable [Scalar α]

/-- One step of a scrub takes every body from following the latest offset before to following the
latest offset after it. -/
theorem follows_scrub {latest : Option α} {log : List (Occurrence α)} {e : Element α}
    (nodup : e.ids.Nodup) (all : ∀ b ∈ e.toList, b.Follows latest (about b.id log)) (s : Scrub α) :
    ∀ b ∈ (s.operation.perform e).2.toList,
      b.Follows (s.next latest) (about b.id (log ++ (s.operation.perform e).1)) := by
  have apply : ∀ t, 0 ≤ t → t ≤ 1 → ∀ b : Body α,
      Carries Body.Idles (Body.Follows (some t)) b
        ((b.applyOffset (fun _ => true) t false).1.map .caused)
        (b.applyOffset (fun _ => true) t false).2 :=
    fun t low high b log idles => .of_applyOffset idles low high
  cases s with
  | offset t autoplay =>
    cases autoplay with
    | true =>
      have moved : Bodywise (Carries (Body.Follows latest) (Body.Follows latest)) e
          ((e.setTimeOffset (fun _ => true) t true).1.map .caused)
          (e.setTimeOffset (fun _ => true) t true).2 := by
        refine Bodywise.setTimeOffset (Carries.stay fun _ _ h => h) nodup fun _ _ b _ log h => ?_
        simpa [Body.applyOffset] using h.stepSprite t
      exact moved.carries all
    | false =>
      by_cases range : 0 ≤ t ∧ t ≤ 1
      · have moved := Bodywise.sweep (Body.applyOffset_own (fun _ => true) t false) nodup
          fun b _ => apply t range.1 range.2 b
        simp only [Scrub.operation, Operation.perform, setTimeOffset, Scrub.next, range, and_self,
          if_true]
        exact moved.carries fun b hb => (all b hb).idles
      · simpa [Scrub.operation, Operation.perform, setTimeOffset, Scrub.next, range] using all
  | complete ticket =>
    have moved : Bodywise (Carries (Body.Follows latest) (Body.Follows latest)) e
        ((e.completeSeek (fun _ => true) ticket).1.1.record ticket ++
          (e.completeSeek (fun _ => true) ticket).1.2.map .caused)
        (e.completeSeek (fun _ => true) ticket).2 := by
      refine Bodywise.completeSeek (Carries.stay fun _ _ h => h) nodup
        (fun b _ _ _ pending log h => h.settle pending)
        fun sub t distinct root awaits names pending => ?_
      have follows := all _ root
      obtain ⟨video, hvideo⟩ := Option.isSome_iff_exists.mp awaits.1
      obtain rfl := follows.latest_eq hvideo pending
      obtain ⟨low, high⟩ := follows.range t rfl
      -- the landing body follows nothing until the offset has been applied to it once more
      have landed := Bodywise.landed (R := Carries (Body.Follows (some t)) Body.Idles)
        (Carries.stay fun _ _ h => h.idles) distinct names fun _ _ _ => rfl
      have swept := Bodywise.sweep (Body.applyOffset_own (fun _ => true) t false)
        (landed.nodup distinct) fun b _ => apply t low high b
      rw [setTimeOffset, if_pos ⟨low, high⟩]
      exact landed.trans swept (ids_sweep (Body.applyOffset_own _ t false) _) Carries.follow
    exact moved.carries all

theorem follows_run : ∀ (steps : List (Scrub α)) {latest : Option α} {log : List (Occurrence α)}
    {e : Element α} {id : ElementId}, e.body.id = id → e.ids.Nodup →
    (∀ b ∈ e.toList, b.Follows latest (about b.id log)) →
    (e.run (steps.map (Scrub.call id))).2.videos = e.videos ∧
      ∀ b ∈ (e.run (steps.map (Scrub.call id))).2.toList,
        b.Follows (steps.foldl Scrub.next latest)
          (about b.id (log ++ (e.run (steps.map (Scrub.call id))).1))
  | [], latest, log, e, id, _, _, all => by simpa [run] using all
  | s :: steps, latest, log, e, id, root, nodup, all => by
    have made : e.make (Scrub.call id s) = s.operation.perform e := by
      rw [Scrub.call, ← root, make_root]
    have videos := videos_scrub s e
    obtain ⟨videos', all'⟩ := follows_run steps ((body_id_of_videos videos).trans root)
      (ids_eq_of_videos videos ▸ nodup) (follows_scrub nodup all s)
    simp only [List.map_cons, run, made]
    refine ⟨videos'.trans videos, ?_⟩
    rw [← List.append_assoc]
    exact all'

variable [Analytic α]

/-- While all players are ready, offsets for the whole tree and completions of seeks lead each
video, however deep it is nested, to the latest offset that videos were to follow: its player was
sent there last, or the offset is pending and a seek is in flight. Before there is such an offset
no player is asked for a seek, and a completion never makes one seek anywhere else. -/
theorem Loaded.latest_offset_wins {root : Element α} (loaded : root.Loaded)
    (steps : List (Scrub α)) :
    (root.scrub steps).2.videos = root.videos ∧
      (∀ b ∈ (root.scrub steps).2.toList, ∀ video, b.video = some video →
        (Scrub.latest steps = none → requestsTo b.id (root.scrub steps).1 = []) ∧
        ∀ t, Scrub.latest steps = some t →
          (b.seek.pending = some t ∨
            b.seek.pending = none ∧ b.SentTo (root.scrub steps).1 video t) ∧
          (b.seek.inFlight = none → b.SentTo (root.scrub steps).1 video t)) ∧
      ∀ ticket player request,
        .seek player request ∈ ((root.scrub steps).2.completeSeek (fun _ => true) ticket).1.2 →
          ∃ video t, (player.element, some video) ∈ root.videos ∧
            Scrub.latest steps = some t ∧ request.target = video.mediaTime t := by
  have fresh : ∀ b ∈ root.toList, b.Follows none (about b.id []) :=
    fun b hb => .start (loaded.seek_eq hb)
  obtain ⟨videos, all⟩ := follows_run steps rfl loaded.nodup_ids fresh
  change (root.scrub steps).2.videos = root.videos at videos
  change ∀ b ∈ (root.scrub steps).2.toList,
    b.Follows (Scrub.latest steps) (about b.id (root.scrub steps).1) at all
  refine ⟨videos, fun b hb video hvideo => ⟨fun unasked => ?_, fun t asked => ?_⟩, ?_⟩
  · rw [← requestsTo_about]
    exact ((all b hb).quiet unasked).1
  · have sent := (all b hb).sent t asked video hvideo
    rw [Body.SentTo, requestsTo_about] at sent
    refine ⟨sent, fun landed => ?_⟩
    rcases sent with kept | ⟨-, last⟩
    · simp [(all b hb).idles landed] at kept
    · exact last
  · intro ticket player request asked
    cases found : subtree? ticket.element (root.scrub steps).2 with
    | none => simp [completeSeek_of_none _ found] at asked
    | some sub =>
      obtain ⟨-, -, -, answer, -, -⟩ := completeSeek_of_some (fun _ => true) found
      have part := subtree?_sublist found
      rw [answer] at asked
      rcases landSeek_cases (fun _ => true) ticket sub with
        ⟨-, eq⟩ | ⟨-, -, eq⟩ | ⟨t, awaits, pending, eq⟩
      · simp [eq] at asked
      · simp [eq] at asked
      · rw [eq] at asked
        obtain ⟨b, hb, video, hvideo, -, -, same⟩ := mem_setTimeOffset asked
        obtain ⟨rfl, rfl⟩ := Event.seek.inj same
        obtain ⟨_, hroot⟩ := Option.isSome_iff_exists.mp awaits.1
        have root := part.subset (body_mem_toList sub)
        refine ⟨video, t, ?_, (all _ root).latest_eq hroot pending, rfl⟩
        have here : (b.id, some video) ∈ sub.landed.videos := by
          rw [← hvideo]
          exact List.mem_map_of_mem hb
        rw [videos_landed] at here
        rw [← videos]
        exact (part.map _).subset here

def filmScrub : List (Scrub Float) :=
  [.offset 0.25 false, .offset 0.375 false, .offset 0.5 false, .offset 2 false, .complete ⟨0, 0⟩,
    .complete ⟨1, 9⟩, .offset 0.75 true]

theorem Loaded.latest_offset_wins_film : ∃ root : Element Float, root.Loaded ∧
    ((requestsTo 0 (root.scrub filmScrub).1).map SeekRequest.target = [0.25, 0.5] ∧
      (requestsTo 1 (root.scrub filmScrub).1).map SeekRequest.target = [0.25]) ∧
    ∀ b ∈ (root.scrub filmScrub).2.toList, ∀ video, b.video = some video →
      b.seek.pending = some 0.5 ∨
        b.seek.pending = none ∧ b.SentTo (root.scrub filmScrub).1 video 0.5 := by
  have seen : (screened (.film "a.mp4" [.film "b.mp4" []])).any fun root =>
      (requestsTo 0 (root.scrub filmScrub).1).map SeekRequest.target = [0.25, 0.5] ∧
        (requestsTo 1 (root.scrub filmScrub).1).map SeekRequest.target = [0.25] := by
    decide +kernel
  obtain ⟨root, loaded, seen⟩ := exists_loaded_of_screened seen
  have latest : Scrub.latest filmScrub = some 0.5 := by decide +kernel
  refine ⟨root, loaded, of_decide_eq_true seen, fun b hb video hvideo => ?_⟩
  obtain ⟨-, follows, -⟩ := loaded.latest_offset_wins filmScrub
  exact ((follows b hb video hvideo).2 0.5 latest).1

end Element

end LayerTree
