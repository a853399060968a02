import LayerTree.Proofs.Playback.Remains
import LayerTree.Proofs.Playback.SeekProtocol

/-!
An element that was cleared is heard of no more, and neither is any element that was below it.

A body without a video never gets one and has nothing to do with players, and an element that is
dropped never comes back. So what a late completion or a late end of media finds is either no
element or one without a video.
-/

set_option autoImplicit false
set_option relaxedAutoImplicit false

namespace LayerTree

variable {α : Type}

def Occurrence.IsTap (o : Occurrence α) : Prop := ∃ element name, o = .caused (.action element name)

namespace Body

def StaysMute (b : Body α) (log : List (Occurrence α)) (b' : Body α) : Prop :=
  b.video = none → b'.video = none ∧ ∀ o ∈ log, o.IsTap

namespace StaysMute

theorem of_silent {b b' : Body α} (video : b'.video = b.video) : StaysMute b [] b' :=
  fun mute => ⟨video.trans mute, by simp⟩

variable [Scalar α]

theorem moves : Moves (StaysMute (α := α)) where
  stay _ := .of_silent rfl
  follow b l b' l' b'' first second mute := by
    obtain ⟨mute', taps⟩ := first mute
    obtain ⟨mute'', taps'⟩ := second mute'
    exact ⟨mute'', fun o ho => (List.mem_append.mp ho).elim (taps o) (taps' o)⟩
  fade _ _ := .of_silent rfl
  apply ready t autoplay b _ _ mute := by
    have still : (b.applyOffset ready t autoplay).1 = [] := by
      simp [applyOffset, seekVideo, mute]
    rw [still]
    exact ⟨(applyOffset_video ready t autoplay b).trans mute, by simp⟩
  land _ _ awaits _ mute := by simp [Awaits, mute] at awaits
  start b mute := by simp [startVideo, mute]
  pause b mute := by simp [pauseVideo, mute]
  finish _ _ _ video mute := by simp [mute] at video
  tap b name _ mute := ⟨mute, by simp [Occurrence.IsTap]⟩
  drop _ _ := ⟨rfl, by simp⟩

end StaysMute

end Body

namespace Element

/-- No element with the id has a video. -/
def Mute (id : ElementId) (e : Element α) : Prop := ∀ b ∈ e.toList, b.id = id → b.video = none

namespace Mute

variable [Scalar α] {e : Element α} {id : ElementId}

theorem make (mute : e.Mute id) (nodup : e.ids.Nodup) (c : Call α) :
    (e.make c).2.Mute id ∧ ∀ o ∈ (e.make c).1, o.element = id → o.IsTap := by
  have moved := Body.StaysMute.moves.make c nodup
  refine ⟨fun b' hb' named => ?_, fun o ho named => ?_⟩
  · obtain ⟨b, hb, same, move⟩ := moved.moved b' hb'
    exact (move (mute b hb (same.symm.trans named))).1
  · obtain ⟨b', hb', there⟩ := List.mem_map.mp (moved.own o ho)
    obtain ⟨b, hb, same, move⟩ := moved.moved b' hb'
    have here : o.element = b.id := there.symm.trans same
    have taps := (move (mute b hb (here.symm.trans named))).2
    exact taps o (List.mem_filter.mpr ⟨ho, by simpa using here⟩)

theorem run : ∀ (calls : List (Call α)) {e : Element α}, e.Mute id → e.ids.Nodup →
    (e.run calls).2.Mute id ∧ ∀ o ∈ (e.run calls).1, o.element = id → o.IsTap
  | [], _, mute, _ => ⟨mute, by simp [Element.run]⟩
  | c :: calls, e, mute, nodup => by
    obtain ⟨mute', first⟩ := mute.make nodup c
    obtain ⟨mute'', others⟩ :=
      run calls mute' ((prunes_make c e).nodup nodup)
    refine ⟨mute'', fun o ho => ?_⟩
    simp only [Element.run, List.mem_append] at ho
    exact ho.elim (first o) (others o)

omit [Scalar α] in
theorem of_subtree {part : Element α} {y : ElementId} (mute : e.Mute id)
    (found : subtree? y e = some part) : part.Mute id :=
  fun b hb => mute b ((subtree?_sublist found).subset hb)

theorem completeSeek {ticket : SeekTicket} (mute : e.Mute ticket.element)
    (ready : Player → Bool) : e.completeSeek ready ticket = ((.stale, []), e) := by
  refine completeSeek_of_stale ?_
  cases found : subtree? ticket.element e with
  | none => rw [completeSeek_of_none ready found]
  | some sub =>
    obtain ⟨-, -, -, answer, -, -⟩ := completeSeek_of_some ready found
    have here := (subtree?_sublist found).subset (body_mem_toList sub)
    have silent := mute _ here (subtree?_eq_some found).1
    rw [answer]
    -- an element without a video waits for no seek
    rcases landSeek_cases ready ticket sub with ⟨-, eq⟩ | ⟨awaits, -⟩ | ⟨t, awaits, -⟩
    · rw [eq]
    · simp [Body.Awaits, silent] at awaits
    · simp [Body.Awaits, silent] at awaits

theorem videoReachedEnd (mute : e.Mute id) (repeats : Body α → Bool) :
    e.videoReachedEnd repeats id = (none, e) := by
  unfold Element.videoReachedEnd
  cases found : subtree? id e with
  | none => rw [update?_of_none _ found]
  | some sub =>
    obtain ⟨before, after, e', eq, -, -, -⟩ := update?_of_some (endHere repeats) found
    have here := (subtree?_sublist found).subset (body_mem_toList sub)
    have silent := mute _ here (subtree?_eq_some found).1
    rw [eq]
    simp [endHere, silent]

end Mute

section

variable [Scalar α]

theorem make_eq_of_perform_eq {e part : Element α} {y : ElementId} {operation : Operation α}
    (found : subtree? y e = some part) (same : operation.perform part = ([], part)) :
    e.make ⟨y, operation⟩ = ([], e) := by
  obtain ⟨before, after, e', eq, -, -, kept⟩ := update?_of_some operation.perform found
  rw [same] at eq kept
  rw [make, eq, kept rfl, Option.getD_some]

/-- Clearing an element takes the videos from it and from whatever was ever below it. -/
theorem Prunes.mute_clear {root e sub : Element α} {x id : ElementId} (left : Prunes e root)
    (nodup : root.ids.Nodup) (found : subtree? x root = some sub) (below : id ∈ sub.ids) :
    (e.make ⟨x, .clear⟩).2.Mute id := by
  intro b hb named
  cases here : subtree? x e with
  | none =>
    rw [make, update?_of_none _ here] at hb
    obtain ⟨sub', found', -⟩ :=
      left.exists_subtree? nodup found below (List.mem_map.mpr ⟨b, hb, named⟩)
    simp [here] at found'
  | some part =>
    obtain ⟨before, after, e', eq, old, new, -⟩ := update?_of_some (Operation.clear).perform here
    have kept : b ∈ before ++ after ∨ b = part.body.tearDown := by
      rw [make, eq, Option.getD_some, new] at hb
      simpa [Operation.perform, clear, or_assoc, or_comm, or_left_comm] using hb
    rcases kept with outside | rfl
    · -- what was below the cleared element is nowhere else
      have there : b ∈ e.toList := by
        rw [old]
        simp only [List.mem_append] at outside ⊢
        exact outside.elim (fun h => .inl (.inl h)) .inr
      obtain ⟨part', found', inside⟩ :=
        left.exists_subtree? nodup found below (List.mem_map.mpr ⟨b, there, named⟩)
      obtain rfl := Option.some.inj (here.symm.trans found')
      have distinct : e.ids.Nodup := left.nodup nodup
      exact absurd (named ▸ inside) (not_mem_ids_of_outside distinct old outside)
    · rfl

variable [Analytic α]

theorem Loaded.element_of_issuedTo {root : Element α} (loaded : root.Loaded)
    (calls : List (Call α)) {id : ElementId} {ticket : SeekTicket}
    (issued : ticket ∈ issuedTo id (root.run calls).1) : ticket.element = id := by
  obtain ⟨-, -, runs⟩ := run_seekInvariant loaded.nodup_ids (fun b hb => loaded.seek_eq hb) calls
  obtain ⟨s, run⟩ := runs id
  rw [run.issuedTo_eq] at issued
  obtain ⟨n, -, rfl⟩ := List.mem_map.mp issued
  rfl

/-- When an element has been cleared, whatever a host did before and does from then on: completions
of seeks of its player, and of the players of all elements that were ever below it, are stale, the
ends of their media are not taken, neither changes anything, and nothing is recorded of these
elements any more except taps. -/
theorem Loaded.cleared_mute {root sub : Element α} (loaded : root.Loaded) {x : ElementId}
    (found : subtree? x root = some sub) (before after : List (Call α)) :
    let cleared := ((root.run before).2.make ⟨x, .clear⟩).2
    let e := (cleared.run after).2
    ∀ id ∈ sub.ids,
      (∀ ready ticket, ticket.element = id ∨ ticket ∈ issuedTo id (root.run before).1 →
        ∀ y part, subtree? y e = some part →
          (part.completeSeek ready ticket).1 = (.stale, []) ∧
            e.make ⟨y, .completeSeek ready ticket⟩ = ([], e)) ∧
      (∀ repeats y part, subtree? y e = some part →
        (part.videoReachedEnd repeats id).1 = none ∧
          e.make ⟨y, .videoReachedEnd repeats id⟩ = ([], e)) ∧
      ∀ o ∈ (cleared.run after).1, o.element = id → ∃ name, o = .caused (.action id name) := by
  intro cleared e id below
  have nodup := loaded.nodup_ids
  have left := prunes_run before root
  have silenced : cleared.Mute id := left.mute_clear nodup found below
  have distinct : cleared.ids.Nodup :=
    ((prunes_make _ _).trans left).nodup nodup
  obtain ⟨mute, taps⟩ := silenced.run after distinct
  refine ⟨fun ready ticket names y part there => ?_, fun repeats y part there => ?_,
    fun o ho named => ?_⟩
  · have named : ticket.element = id := names.elim (fun h => h) (loaded.element_of_issuedTo before)
    subst named
    have stale := (mute.of_subtree there).completeSeek ready
    refine ⟨by rw [stale], make_eq_of_perform_eq there ?_⟩
    simp only [Operation.perform, stale]
    rfl
  · have unheard := (mute.of_subtree there).videoReachedEnd repeats
    refine ⟨by rw [unheard], make_eq_of_perform_eq there ?_⟩
    simp only [Operation.perform, unheard]
    rfl
  · obtain ⟨element, name, rfl⟩ := taps o ho named
    obtain rfl : element = id := named
    exact ⟨name, rfl⟩

def scrubbedThenCleared : List (Call Float) :=
  [⟨0, .setTimeOffset (fun _ => true) 0.25 false⟩, ⟨2, .clear⟩]

def goingOn : List (Call Float) :=
  [⟨0, .setTimeOffset (fun _ => true) 0.5 false⟩, ⟨0, .startAutoplay⟩]

theorem Loaded.cleared_mute_film : ∃ root sub : Element Float, root.Loaded ∧
    subtree? 1 root = some sub ∧ sub.ids = [1, 2] ∧
    ⟨2, 0⟩ ∈ issuedTo 2 (root.run scrubbedThenCleared).1 ∧
    let cleared := ((root.run scrubbedThenCleared).2.make ⟨1, .clear⟩).2
    let e := (cleared.run goingOn).2
    e.ids = [0, 1] ∧ e.isPlaying = true ∧
      (∀ ready y part, subtree? y e = some part →
        (part.completeSeek ready ⟨2, 0⟩).1 = (.stale, []) ∧
          e.make ⟨y, .completeSeek ready ⟨2, 0⟩⟩ = ([], e)) ∧
      ∀ o ∈ (cleared.run goingOn).1, o.element = 2 → ∃ name, o = .caused (.action 2 name) := by
  have seen : (screened (.film "a.mp4" [.film "b.mp4" [.film "c.mp4" []]])).any fun root =>
      (subtree? 1 root).any fun sub =>
        let cleared := ((root.run scrubbedThenCleared).2.make ⟨1, .clear⟩).2
        sub.ids = [1, 2] ∧ ⟨2, 0⟩ ∈ issuedTo 2 (root.run scrubbedThenCleared).1 ∧
          (cleared.run goingOn).2.ids = [0, 1] ∧ (cleared.run goingOn).2.isPlaying = true := by
    decide +kernel
  obtain ⟨root, loaded, seen⟩ := exists_loaded_of_screened seen
  obtain ⟨sub, found, seen⟩ := (Option.any_eq_true _ _).mp seen
  obtain ⟨ids, issued, left, playing⟩ := of_decide_eq_true seen
  obtain ⟨stale, -, taps⟩ :=
    loaded.cleared_mute found scrubbedThenCleared goingOn 2 (by simp [ids])
  exact ⟨root, sub, loaded, found, ids, issued, left, playing,
    fun ready => stale ready ⟨2, 0⟩ (.inr issued), taps⟩

end

end Element

end LayerTree
