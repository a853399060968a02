import LayerTree.Proofs.Element.Loaded
import LayerTree.Proofs.Playback.Operations
import LayerTree.Proofs.Playback.SeekRun

/-!
Seeks are asked for one at a time, whatever a host does with a loaded tree.

The invariant ties what an element knows of its seeks to what the record says of them. It is kept by
every move of a body, so it holds after every run, and the laws of a record of seeks hold with it.
-/

set_option autoImplicit false
set_option relaxedAutoImplicit false

namespace LayerTree

variable {α : Type}

structure SeekFrame (b : Body α) (log : List (Occurrence α)) (b' : Body α) : Prop where
  id : b'.id = b.id
  seek : b'.seek = b.seek
  video : b'.video.isSome = b.video.isSome
  quiet : ∀ o ∈ log, o.issued? = none ∧ o.landed? = none

namespace SeekFrame

theorem withOpacity (b : Body α) (opacity : α) : SeekFrame b [] (b.withOpacity opacity) :=
  ⟨rfl, rfl, rfl, by simp⟩

theorem stepSprite [Scalar α] (b : Body α) (t : α) : SeekFrame b [] (b.stepSprite t) :=
  ⟨by simp, by simp, by simp, by simp⟩

theorem startVideo (b : Body α) : SeekFrame b (b.startVideo.1.map .caused) b.startVideo.2 := by
  unfold Body.startVideo
  cases video : b.video with
  | none => exact ⟨rfl, rfl, by simp, by simp⟩
  | some v =>
    dsimp only
    split
    · exact ⟨rfl, rfl, by simp, by simp⟩
    · refine ⟨rfl, rfl, by simp [video], ?_⟩
      split <;> simp [Occurrence.issued?, Occurrence.landed?]

theorem pauseVideo (b : Body α) : SeekFrame b (b.pauseVideo.1.map .caused) b.pauseVideo.2 := by
  unfold Body.pauseVideo
  cases video : b.video with
  | none => exact ⟨rfl, rfl, by simp, by simp⟩
  | some v =>
    dsimp only
    split
    · exact ⟨rfl, rfl, by simp [video], by simp [Occurrence.issued?, Occurrence.landed?]⟩
    · exact ⟨rfl, rfl, by simp, by simp⟩

theorem endVideo (repeats : Bool) {b : Body α} {video : VideoSurface α}
    (h : b.video = some video) :
    SeekFrame b ((b.endVideo repeats video).1.1.map .caused) (b.endVideo repeats video).2 := by
  unfold Body.endVideo
  split
  · exact ⟨rfl, rfl, rfl, by simp [Occurrence.issued?, Occurrence.landed?]⟩
  · dsimp only
    split
    · exact ⟨rfl, rfl, by simp [h], by simp [Occurrence.issued?, Occurrence.landed?]⟩
    · exact ⟨rfl, rfl, by simp [h], by simp⟩

theorem tap (b : Body α) (name : String) : SeekFrame b [.caused (.action b.id name)] b :=
  ⟨rfl, rfl, rfl, by simp [Occurrence.issued?, Occurrence.landed?]⟩

end SeekFrame

theorem SeekState.nextAfter_mod (n : Nat) :
    nextAfter (n % UInt64.size) = (n + 1) % UInt64.size :=
  Nat.mod_add_mod n UInt64.size 1

namespace Body

/-- What holds of the seeks of an element at all times. -/
structure SeekSound [Scalar α] (b : Body α) : Prop where
  pending : ∀ t, b.seek.pending = some t → b.seek.inFlight.isSome = true ∧ 0 ≤ t ∧ t ≤ 1
  inFlight : ∀ ticket, b.seek.inFlight = some ticket →
    ticket.element = b.id ∧ ticket.generation < UInt64.size ∧
      SeekState.nextAfter ticket.generation = b.seek.nextGeneration ∧ b.video.isSome = true

/-- What an element knows of its seeks is what a record says of them, as long as it has a video;
without one it knows of none. -/
structure SeekInvariant [Scalar α] (log : List (Occurrence α)) (b : Body α) : Prop where
  phase : ∃ s, SeekRun b.id .start log s ∧ b.seek.nextGeneration = s.asked % UInt64.size ∧
    (b.video.isSome = true → b.seek.inFlight = s.inFlight)
  idle : b.video.isSome = false → b.seek.inFlight = none
  pending : ∀ t, b.seek.pending = some t → b.seek.inFlight.isSome = true ∧ 0 ≤ t ∧ t ≤ 1

namespace SeekInvariant

variable [Scalar α] {log : List (Occurrence α)} {b b' : Body α}

theorem start (h : b.seek = SeekState.initial) : SeekInvariant [] b where
  phase := ⟨.start, .nil, by simp [h, SeekState.initial, SeekPhase.start],
    fun _ => by simp [h, SeekState.initial, SeekPhase.start]⟩
  idle _ := by simp [h, SeekState.initial]
  pending := by simp [h, SeekState.initial]

theorem of_frame {more : List (Occurrence α)} (h : SeekInvariant log b)
    (frame : SeekFrame b more b') : SeekInvariant (log ++ more) b' := by
  obtain ⟨⟨s, run, next, flying⟩, idle, pending⟩ := h
  refine ⟨⟨s, ?_, ?_, ?_⟩, ?_, ?_⟩
  · rw [frame.id]
    exact run.append (.of_forall_quiet frame.quiet)
  · rwa [frame.seek]
  · rwa [frame.seek, frame.video]
  · rwa [frame.seek, frame.video]
  · rwa [frame.seek]

theorem land {ticket : SeekTicket} (h : SeekInvariant log b) (awaits : b.Awaits ticket)
    (names : ticket.element = b.id) :
    SeekInvariant (log ++ [.landed ticket]) b.landed := by
  obtain ⟨⟨s, run, next, flying⟩, -, -⟩ := h
  obtain ⟨asked, inFlight⟩ := s
  obtain rfl : inFlight = some ticket := (flying awaits.1).symm.trans awaits.2
  exact
    { phase := ⟨⟨asked, none⟩, run.append (.cons (.landing names) .nil), next, fun _ => rfl⟩
      idle := fun _ => rfl
      pending := nofun }

theorem drop (h : SeekInvariant log b) : SeekInvariant log b.tearDown := by
  obtain ⟨⟨s, run, next, -⟩, -, -⟩ := h
  exact ⟨⟨s, run, next, nofun⟩, fun _ => rfl, nofun⟩

theorem stepSprite (h : SeekInvariant log b) (t : α) : SeekInvariant log (b.stepSprite t) := by
  simpa using h.of_frame (.stepSprite b t)

theorem seekVideo {t : α} (h : SeekInvariant log b) (ready : Player → Bool) (low : 0 ≤ t)
    (high : t ≤ 1) :
    SeekInvariant (log ++ (b.seekVideo ready t).1.map .caused) (b.seekVideo ready t).2 := by
  rcases b.seekVideo_cases ready t with
    ⟨eq, -⟩ | ⟨video, ticket, hvideo, hflying, eq⟩ | ⟨video, hvideo, hflying, -, eq⟩
  · rw [eq]
    simpa using h
  · rw [eq]
    obtain ⟨phase, idle, -⟩ := h
    refine ⟨by simpa [SeekState.postpone] using phase, idle, fun other same => ?_⟩
    obtain rfl := Option.some.inj same
    exact ⟨by simp [SeekState.postpone, hflying], low, high⟩
  · rw [eq]
    obtain ⟨⟨s, run, next, flying⟩, -, pending⟩ := h
    obtain ⟨asked, inFlight⟩ := s
    obtain rfl : inFlight = none := (flying (by simp [hvideo])).symm.trans hflying
    refine ⟨⟨⟨asked + 1, some (b.seek.issue b.id).1⟩, run.append (.cons (.request rfl ?_) .nil),
      ?_, fun _ => rfl⟩, ?_, ?_⟩
    · simp [SeekState.issue, SeekTicket.nth, next]
    · simp [SeekState.issue, next, SeekState.nextAfter_mod]
    · simp [hvideo]
    · intro t' kept
      exact ⟨rfl, (pending t' kept).2⟩

theorem applyOffset {t : α} (h : SeekInvariant log b) (ready : Player → Bool) (autoplay : Bool)
    (low : 0 ≤ t) (high : t ≤ 1) :
    SeekInvariant (log ++ (b.applyOffset ready t autoplay).1.map .caused)
      (b.applyOffset ready t autoplay).2 := by
  cases autoplay with
  | true => simpa [Body.applyOffset] using h.stepSprite t
  | false => exact (h.stepSprite t).seekVideo ready low high

theorem sound (h : SeekInvariant log b) : b.SeekSound := by
  obtain ⟨⟨s, run, next, flying⟩, idle, pending⟩ := h
  refine ⟨pending, fun ticket hticket => ?_⟩
  have video : b.video.isSome = true := by
    by_contra absent
    simp [idle (by simpa using absent)] at hticket
  obtain ⟨n, asked, rfl⟩ := run.inFlight_eq ((flying video).symm.trans hticket)
  refine ⟨rfl, Nat.mod_lt _ (by decide), ?_, video⟩
  rw [next, asked, SeekTicket.nth, SeekState.nextAfter_mod]

theorem generation_add_one (h : SeekInvariant log b)
    (few : (issuedTo b.id log).length < UInt64.size) {ticket : SeekTicket}
    (hticket : b.seek.inFlight = some ticket) :
    ticket.generation + 1 = b.seek.nextGeneration := by
  have video := (h.sound.inFlight ticket hticket).2.2.2
  obtain ⟨⟨s, run, next, flying⟩, -, -⟩ := h
  obtain ⟨n, asked, rfl⟩ := run.inFlight_eq ((flying video).symm.trans hticket)
  rw [run.issuedTo_eq, List.length_map, List.length_range, asked] at few
  rw [next, asked, SeekTicket.nth, Nat.mod_eq_of_lt few,
    Nat.mod_eq_of_lt (Nat.lt_of_succ_lt few)]

theorem moves : Moves (Carries (SeekInvariant (α := α)) SeekInvariant) where
  stay := Carries.stay fun _ _ h => h
  follow := Carries.follow
  fade b opacity _ h := h.of_frame (.withOpacity b opacity)
  apply ready _ autoplay _ low high _ h := h.applyOffset ready autoplay low high
  land _ _ awaits names _ h := h.land awaits names
  start b _ h := h.of_frame (.startVideo b)
  pause b _ h := h.of_frame (.pauseVideo b)
  finish repeats _ _ video _ h := h.of_frame (.endVideo repeats video)
  tap b name _ _ h := h.of_frame (.tap b name)
  drop _ log h := by simpa using h.drop

end SeekInvariant

end Body

namespace Element

variable [Scalar α]

/-- The invariant holds after every run, of every element that is left; the record is one of seeks
that run as they should, also for elements that are gone. -/
theorem run_seekInvariant {e : Element α} (nodup : e.ids.Nodup)
    (fresh : ∀ b ∈ e.toList, b.seek = SeekState.initial) (calls : List (Call α)) :
    (e.run calls).2.ids.Nodup ∧
      (∀ b ∈ (e.run calls).2.toList, b.SeekInvariant (about b.id (e.run calls).1)) ∧
      ∀ id, ∃ s, SeekRun id .start (e.run calls).1 s := by
  obtain ⟨ids, kept⟩ := run_keeps (G := fun id log => ∃ s, SeekRun id .start log s)
    Body.SeekInvariant.moves (fun log b h => ⟨h.phase.choose, h.phase.choose_spec.1⟩) calls e []
    nodup (fun b hb => .start (fresh b hb)) fun id => ⟨.start, .nil⟩
  rw [List.nil_append] at kept
  refine ⟨ids.nodup nodup, kept.1, fun id => ?_⟩
  obtain ⟨s, run⟩ := kept.2 id
  exact ⟨s, run.of_about⟩

variable [Analytic α]

/-- The tree is what a loaded tree has become after some calls. -/
def Reachable (e : Element α) : Prop :=
  ∃ (root : Element α) (calls : List (Call α)), root.Loaded ∧ (root.run calls).2 = e

namespace Reachable

variable {e : Element α}

theorem nodup_ids (h : e.Reachable) : e.ids.Nodup := by
  obtain ⟨root, calls, loaded, rfl⟩ := h
  exact (run_seekInvariant loaded.nodup_ids (fun b hb => loaded.seek_eq hb) calls).1

theorem sound (h : e.Reachable) : ∀ b ∈ e.toList, b.SeekSound := by
  obtain ⟨root, calls, loaded, rfl⟩ := h
  obtain ⟨-, all, -⟩ := run_seekInvariant loaded.nodup_ids (fun b hb => loaded.seek_eq hb) calls
  exact fun b hb => (all b hb).sound

theorem make (h : e.Reachable) (c : Call α) : (e.make c).2.Reachable := by
  obtain ⟨root, calls, loaded, rfl⟩ := h
  exact ⟨root, calls ++ [c], loaded, by rw [run_append]; rfl⟩

end Reachable

/-- Whatever a host does with a loaded tree, in any order and on any elements: offsets are pending
only while a seek is in flight and lie on the timeline, a seek in flight is the last one that was
asked for and is one of a video, and the record is one of seeks that are asked for one at a time.
Until 2^64 seeks were asked for, generations do not come round. A completion that is stale changes
nothing and causes nothing. -/
theorem Loaded.seek_protocol {root : Element α} (loaded : root.Loaded) (calls : List (Call α)) :
    (∀ b ∈ (root.run calls).2.toList, b.SeekSound) ∧
      SeekRecord (root.run calls).1 ∧
      ((issued (root.run calls).1).length < UInt64.size →
        ∀ b ∈ (root.run calls).2.toList, ∀ ticket, b.seek.inFlight = some ticket →
          ticket.generation + 1 = b.seek.nextGeneration) ∧
      ∀ id sub ready ticket, subtree? id (root.run calls).2 = some sub →
        (sub.completeSeek ready ticket).1.1 = .stale →
          (root.run calls).2.make ⟨id, .completeSeek ready ticket⟩ =
            ([], (root.run calls).2) := by
  obtain ⟨-, all, runs⟩ := run_seekInvariant loaded.nodup_ids (fun b hb => loaded.seek_eq hb) calls
  have record := SeekRecord.of_runs runs
  refine ⟨fun b hb => (all b hb).sound, record, fun few b hb ticket hticket => ?_, ?_⟩
  · refine (all b hb).generation_add_one ?_ hticket
    exact Nat.lt_of_le_of_lt (issuedTo_about_sublist b.id _).length_le few
  · intro id sub ready ticket found stale
    obtain ⟨before, after, e', eq, -, -, same⟩ :=
      update?_of_some (Operation.completeSeek ready ticket).perform found
    have nothing : (Operation.completeSeek ready ticket).perform sub = ([], sub) := by
      simp only [Operation.perform, completeSeek_of_stale stale]
      rfl
    rw [nothing] at eq same
    rw [make, eq, same rfl, Option.getD_some]

def scrubbedCalls : List (Call Float) :=
  let ready : Player → Bool := fun _ => true
  [⟨0, .setTimeOffset ready 0.25 false⟩, ⟨0, .setTimeOffset ready 0.5 false⟩,
    ⟨0, .completeSeek ready ⟨1, 7⟩⟩, ⟨0, .completeSeek ready ⟨0, 0⟩⟩,
    ⟨0, .completeSeek ready ⟨0, 0⟩⟩, ⟨1, .clear⟩, ⟨0, .completeSeek ready ⟨1, 0⟩⟩]

theorem Loaded.seek_protocol_film : ∃ root : Element Float, root.Loaded ∧
    issued (root.run scrubbedCalls).1 = [⟨1, 0⟩, ⟨0, 0⟩, ⟨0, 1⟩] ∧
    accepted (root.run scrubbedCalls).1 = [⟨0, 0⟩] ∧
    (∀ b ∈ (root.run scrubbedCalls).2.toList, b.SeekSound) ∧
    SeekRecord (root.run scrubbedCalls).1 := by
  have seen : (screened (.film "a.mp4" [.film "b.mp4" []])).any fun root =>
      issued (root.run scrubbedCalls).1 = [⟨1, 0⟩, ⟨0, 0⟩, ⟨0, 1⟩] ∧
        accepted (root.run scrubbedCalls).1 = [⟨0, 0⟩] := by
    decide +kernel
  obtain ⟨root, loaded, seen⟩ := exists_loaded_of_screened seen
  obtain ⟨asked, landed⟩ := of_decide_eq_true seen
  obtain ⟨sound, record, -⟩ := loaded.seek_protocol scrubbedCalls
  exact ⟨root, loaded, asked, landed, sound, record⟩

end Element

end LayerTree
