import LayerTree.Proofs.Playback.Drained
import LayerTree.Proofs.Playback.PlayButtons

/-!
Playing that is not disturbed by a seek.

Offsets that are passed as hints of a timeline which plays by itself ask no player for a seek. But
an offset that was pending when playing started is still applied when its seek lands. So playing
goes on undisturbed exactly when nothing was pending at its start.
-/

set_option autoImplicit false
set_option relaxedAutoImplicit false

namespace LayerTree

variable {α : Type}

/-- Whether an operation passes offsets only as hints of a timeline that plays by itself. -/
def Operation.hintsAutoplay : Operation α → Bool
  | setTimeOffset _ _ autoplay => autoplay
  | _ => true

namespace Body

def StaysSettled (b : Body α) (log : List (Occurrence α)) (b' : Body α) : Prop :=
  b.seek.pending = none → b'.seek.pending = none ∧ ∀ o ∈ log, o.issued? = none

namespace StaysSettled

theorem of_frame {b b' : Body α} {log : List (Occurrence α)} (frame : SeekFrame b log b') :
    StaysSettled b log b' :=
  fun settled => ⟨by rw [frame.seek, settled], fun o ho => (frame.quiet o ho).1⟩

theorem moves : SeeklessMoves (StaysSettled (α := α)) where
  stay _ settled := ⟨settled, by simp⟩
  follow b l b' l' b'' first second settled := by
    obtain ⟨settled', quiet⟩ := first settled
    obtain ⟨settled'', quiet'⟩ := second settled'
    exact ⟨settled'', fun o ho => (List.mem_append.mp ho).elim (quiet o) (quiet' o)⟩
  fade b opacity := of_frame (.withOpacity b opacity)
  start b := of_frame (.startVideo b)
  pause b := of_frame (.pauseVideo b)
  finish repeats _ _ video := of_frame (.endVideo repeats video)
  tap b name _ := of_frame (.tap b name)
  drop _ _ := ⟨rfl, by simp⟩

end StaysSettled

end Body

namespace Element

def Settled (e : Element α) : Prop := ∀ b ∈ e.toList, b.seek.pending = none

variable [Scalar α] {e : Element α}

theorem Settled.moved (settled : e.Settled) (nodup : e.ids.Nodup) {operation : Operation α}
    (hint : operation.hintsAutoplay = true) :
    Bodywise Body.StaysSettled e (operation.perform e).1 (operation.perform e).2 := by
  have stay := Body.StaysSettled.moves (α := α) |>.stay
  cases operation with
  | setTimeOffset ready t autoplay =>
    obtain rfl : autoplay = true := hint
    exact Bodywise.setTimeOffset stay nodup fun _ _ b _ => .of_frame (.stepSprite b t)
  | completeSeek ready ticket =>
    refine Bodywise.completeSeek stay nodup
      (fun b _ _ _ _ _ => ⟨rfl, by simp [Occurrence.issued?]⟩) fun sub t _ mem _ _ pending => ?_
    -- nothing is pending that a completion could bring back
    simp [settled _ mem] at pending
  | _ => exact Body.StaysSettled.moves.perform rfl nodup

theorem Settled.perform (settled : e.Settled) (nodup : e.ids.Nodup) {operation : Operation α}
    (hint : operation.hintsAutoplay = true) :
    (operation.perform e).2.Settled ∧ ∀ o ∈ (operation.perform e).1, o.issued? = none := by
  have moved := settled.moved nodup hint
  refine ⟨fun b' hb' => ?_, fun o ho => ?_⟩
  · obtain ⟨b, hb, -, move⟩ := moved.moved b' hb'
    exact (move (settled b hb)).1
  · obtain ⟨b', hb', named⟩ := List.mem_map.mp (moved.own o ho)
    obtain ⟨b, hb, same, move⟩ := moved.moved b' hb'
    exact (move (settled b hb)).2 o (List.mem_filter.mpr ⟨ho, by simp [← named, same]⟩)

/-- Whatever a host does with the root from now on, when it passes offsets as hints only, the player
of a video that plays is asked for no seek. -/
def Undisturbed (e : Element α) : Prop :=
  ∀ operations : List (Operation α), (∀ o ∈ operations, o.hintsAutoplay = true) →
    ∀ o : Operation α, o.hintsAutoplay = true →
      ∀ player request, .caused (.seek player request) ∈ (o.perform (e.drive operations).2).1 →
        ∀ b ∈ (e.drive operations).2.toList, b.id = player.element → b.playing = false

theorem Settled.undisturbed (settled : e.Settled) (nodup : e.ids.Nodup) : e.Undisturbed := by
  intro operations hints o hint player request sent
  have nodup' : (e.drive operations).2.ids.Nodup :=
    (prunes_run (operations.map (Call.mk e.body.id)) e).nodup nodup
  have settled' : (e.drive operations).2.Settled :=
    drive_keeps (P := fun _ e => e.Settled)
      (fun nodup hint settled => (settled.perform nodup hint).1) operations [] nodup hints settled
  have quiet := (settled'.perform nodup' hint).2 _ sent
  simp [Occurrence.issued?] at quiet

theorem exists_mem_startAutoplay {b : Body α} (hb : b ∈ e.toList) :
    ∃ b' ∈ e.startAutoplay.2.toList, b'.seek = b.seek ∧
      (b.video.isSome = true → b'.playing = true) := by
  have swept : ∃ c ∈ (e.sweep Body.startVideo).2.toList, c.seek = b.seek ∧
      (b.video.isSome = true → c.playing = true) := by
    refine ⟨b.startVideo.2, ?_, (SeekFrame.startVideo b).seek, fun shown => ?_⟩
    · rw [toList_sweep]
      exact List.mem_map_of_mem hb
    · obtain ⟨video, hvideo⟩ := Option.isSome_iff_exists.mp shown
      rcases b.startVideo_cases with ⟨eq, plays⟩ | ⟨_, -, -, eq⟩
      · simp [eq, Body.playing, hvideo, plays video hvideo]
      · simp [eq, Body.playing]
  unfold startAutoplay
  dsimp only
  split
  · exact swept
  · obtain ⟨c, hc, seek, plays⟩ := swept
    refine ⟨c.withPlayOpacity 0, ?_, ?_, fun shown => ?_⟩
    · rw [setPlayOpacity, toList_map]
      exact List.mem_map_of_mem hc
    · rw [Body.withPlayOpacity_seek, seek]
    · rw [Body.playing, Body.withPlayOpacity_video, ← Body.playing, plays shown]

theorem not_undisturbed (nodup : e.ids.Nodup) {b : Body α} (hb : b ∈ e.toList) (sound : b.SeekSound)
    (playing : b.playing = true) {t : α} (pending : b.seek.pending = some t) :
    ¬e.Undisturbed := by
  intro undisturbed
  obtain ⟨flying, low, high⟩ := sound.pending t pending
  obtain ⟨ticket, hticket⟩ := Option.isSome_iff_exists.mp flying
  obtain ⟨names, -, -, shown⟩ := sound.inFlight ticket hticket
  obtain ⟨video, hvideo⟩ := Option.isSome_iff_exists.mp shown
  obtain ⟨sub, found, rfl⟩ := exists_subtree?_of_mem nodup hb
  rw [← names] at found
  let ready : Player → Bool := fun _ => true
  have drains : e.Drains ready ticket sub t := .of_awaits found ⟨shown, hticket⟩ pending
  have sent := drains.requestsTo_root nodup low high hvideo rfl
  obtain ⟨player, named, asked⟩ := mem_requestsTo (sent ▸ List.mem_cons_self)
  have still := undisturbed [] (by simp) (.completeSeek ready ticket) rfl player _
    (List.mem_append_right _ asked) sub.body hb (names.symm.trans named.symm)
  simp [playing] at still

variable [Analytic α]

/-- When playing starts in whatever state a loaded tree got into, no video that plays is asked for a
seek from then on, if and only if no offset was pending. -/
theorem Loaded.undisturbed_iff {root : Element α} (loaded : root.Loaded)
    (calls : List (Call α)) :
    (root.run calls).2.startAutoplay.2.Undisturbed ↔ (root.run calls).2.Settled := by
  have before : (root.run calls).2.Reachable := ⟨root, calls, loaded, rfl⟩
  generalize (root.run calls).2 = e at before
  have after : e.startAutoplay.2.Reachable := by
    simpa [make_root, Operation.perform] using before.make ⟨e.body.id, .startAutoplay⟩
  constructor
  · intro undisturbed b hb
    rw [Option.eq_none_iff_forall_ne_some]
    intro t pending
    have sound := before.sound b hb
    obtain ⟨flying, -, -⟩ := sound.pending t pending
    obtain ⟨ticket, hticket⟩ := Option.isSome_iff_exists.mp flying
    obtain ⟨b', hb', seek, plays⟩ := exists_mem_startAutoplay hb
    have plays' := plays (sound.inFlight ticket hticket).2.2.2
    exact not_undisturbed after.nodup_ids hb' (after.sound b' hb')
      plays' (seek ▸ pending) undisturbed
  · intro settled
    have started : (Operation.startAutoplay.perform e).2.Settled :=
      (settled.perform before.nodup_ids rfl).1
    exact started.undisturbed after.nodup_ids

def unpostponedCalls : List (Call Float) := [⟨0, .setTimeOffset (fun _ => true) 0.25 false⟩]

theorem Loaded.undisturbed_iff_film : ∃ root : Element Float, root.Loaded ∧
    issued (root.run unpostponedCalls).1 = [⟨1, 0⟩, ⟨0, 0⟩] ∧
    (root.run unpostponedCalls).2.startAutoplay.2.isPlaying = true ∧
    (root.run unpostponedCalls).2.startAutoplay.2.Undisturbed := by
  have seen : (screened (.film "a.mp4" [.film "b.mp4" []])).any fun root =>
      issued (root.run unpostponedCalls).1 = [⟨1, 0⟩, ⟨0, 0⟩] ∧
        (root.run unpostponedCalls).2.startAutoplay.2.isPlaying = true ∧
        ∀ b ∈ (root.run unpostponedCalls).2.toList, b.seek.pending = none := by
    decide +kernel
  obtain ⟨root, loaded, seen⟩ := exists_loaded_of_screened seen
  obtain ⟨flying, playing, settled⟩ := of_decide_eq_true seen
  exact ⟨root, loaded, flying, playing, (loaded.undisturbed_iff unpostponedCalls).mpr settled⟩

/-- A video that plays is sent to an offset that was pending when playing started. -/
theorem Loaded.disturbed_by_pending : ¬∀ root : Element Float, root.Loaded →
    ∀ calls : List (Call Float), (root.run calls).2.startAutoplay.2.Undisturbed := by
  intro claim
  have seen : (screened (.film "a.mp4" [])).any fun root =>
      let e := (root.run coalescedCalls).2.startAutoplay.2
      requestsTo 0 ((e.completeSeek (fun _ => true) ⟨0, 0⟩).1.2.map .caused) ≠ [] ∧
        ∃ b ∈ e.toList, b.id = 0 ∧ b.playing = true := by
    decide +kernel
  obtain ⟨root, loaded, seen⟩ := exists_loaded_of_screened seen
  obtain ⟨asked, b, hb, named, playing⟩ := of_decide_eq_true seen
  obtain ⟨request, mem⟩ := List.exists_mem_of_ne_nil _ asked
  obtain ⟨player, owner, sent⟩ := mem_requestsTo mem
  have still := claim root loaded coalescedCalls [] (by simp)
    (.completeSeek (fun _ => true) ⟨0, 0⟩) rfl player request (List.mem_append_right _ sent)
    b hb (named.trans owner.symm)
  simp [playing] at still

end Element

end LayerTree
