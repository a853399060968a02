import LayerTree.Proofs.Playback.SeekProtocol

/-!
What becomes of an offset that was pending when its seek lands.

The offset is applied to the element and everything below it. So each video of that subtree is asked
for at most one seek, at its own media time, and no other player is asked for anything.
-/

set_option autoImplicit false
set_option relaxedAutoImplicit false

namespace LayerTree

variable {α : Type} [Scalar α]

namespace Body

/-- The seek that an offset makes of a body's video: none without a video, while one is in flight
and while the player is not ready. -/
def request? (ready : Player → Bool) (t : α) (b : Body α) : Option (SeekRequest α) :=
  match b.video with
  | none => none
  | some video =>
    if b.seek.inFlight.isNone && ready (b.player video) then
      some ⟨video.mediaTime t, seekTolerance, seekTolerance, (b.seek.issue b.id).1⟩
    else none

theorem requestsTo_applyOffset (ready : Player → Bool) (t : α) (b : Body α) :
    requestsTo b.id ((b.applyOffset ready t false).1.map .caused) =
      (b.request? ready t).toList := by
  have same : (b.stepSprite t).request? ready t = b.request? ready t := by
    unfold request?
    rw [stepSprite_video]
    cases b.video with
    | none => rfl
    | some video => simp [player]
  rw [applyOffset_false, ← stepSprite_id t b, ← same]
  generalize b.stepSprite t = c
  unfold request?
  rcases c.seekVideo_cases ready t with
    ⟨eq, still⟩ | ⟨video, ticket, hvideo, flying, eq⟩ | ⟨video, hvideo, flying, answer, eq⟩
  · rw [eq]
    cases hvideo : c.video with
    | none => rfl
    | some video => simp [(still video hvideo).2]
  · simp [eq, hvideo, flying]
  · simp [eq, hvideo, flying, answer, requestsTo_cons_seek]

theorem applyOffset_seek {ready : Player → Bool} (t : α) {b : Body α} {video : VideoSurface α}
    (hvideo : b.video = some video) (flying : b.seek.inFlight = none)
    (answer : ready (b.player video) = true) :
    (b.applyOffset ready t false).2.seek = (b.seek.issue b.id).2 := by
  rw [applyOffset_false]
  rcases (b.stepSprite t).seekVideo_cases ready t with
    ⟨-, still⟩ | ⟨_, ticket, -, flying', -⟩ | ⟨_, -, -, -, eq⟩
  · have refused := (still video ((stepSprite_video t b).trans hvideo)).2
    simp only [player, stepSprite_id] at refused answer
    simp [answer] at refused
  · simp [flying] at flying'
  · simp [eq]

end Body

namespace Element

variable {e sub : Element α} {ready : Player → Bool} {ticket : SeekTicket} {t : α}

theorem requestsTo_setTimeOffset (nodup : e.ids.Nodup) (low : 0 ≤ t) (high : t ≤ 1) {b : Body α}
    (hb : b ∈ e.toList) :
    requestsTo b.id ((e.setTimeOffset ready t false).1.map .caused) =
      (b.request? ready t).toList := by
  rw [setTimeOffset, if_pos ⟨low, high⟩, ← requestsTo_about,
    about_sweep (Body.applyOffset_own ready t false) nodup hb, Body.requestsTo_applyOffset]

theorem requestsTo_setTimeOffset_outside {id : ElementId} (outside : id ∉ e.ids) :
    requestsTo id ((e.setTimeOffset ready t false).1.map .caused) = [] := by
  rw [← requestsTo_about, about_eq_nil]
  · rfl
  · intro o ho same
    obtain ⟨v, hv, rfl⟩ := List.mem_map.mp ho
    unfold setTimeOffset at hv
    split at hv
    · exact outside (same ▸ element_mem_sweep (Body.applyOffset_own ready t false) hv)
    · simp at hv

/-- The completion of a ticket is accepted while an offset is pending at the root of a subtree. -/
structure Drains (e : Element α) (ready : Player → Bool) (ticket : SeekTicket) (sub : Element α)
    (t : α) : Prop where
  found : subtree? ticket.element e = some sub
  pending : sub.body.seek.pending = some t
  accepted : (e.completeSeek ready ticket).1.1 ≠ .stale

namespace Drains

theorem of_awaits (found : subtree? ticket.element e = some sub) (awaits : sub.body.Awaits ticket)
    (pending : sub.body.seek.pending = some t) : e.Drains ready ticket sub t := by
  refine ⟨found, pending, ?_⟩
  obtain ⟨-, -, -, answer, -, -⟩ := completeSeek_of_some ready found
  rw [answer]
  rcases landSeek_cases ready ticket sub with ⟨stale, -⟩ | ⟨-, -, eq⟩ | ⟨_, -, -, eq⟩
  · exact absurd awaits stale
  · simp [eq]
  · simp [eq]

theorem awaits (h : e.Drains ready ticket sub t) : sub.body.Awaits ticket := by
  obtain ⟨-, -, -, answer, -, -⟩ := completeSeek_of_some ready h.found
  have accepted := h.accepted
  rw [answer] at accepted
  rcases landSeek_cases ready ticket sub with ⟨-, eq⟩ | ⟨awaits, -, -⟩ | ⟨-, awaits, -, -⟩
  · simp [eq] at accepted
  · exact awaits
  · exact awaits

theorem mem_of_mem (h : e.Drains ready ticket sub t) {b : Body α} (hb : b ∈ sub.toList) :
    b ∈ e.toList :=
  (subtree?_sublist h.found).subset hb

theorem range (h : e.Drains ready ticket sub t) (sound : ∀ b ∈ e.toList, b.SeekSound) :
    0 ≤ t ∧ t ≤ 1 :=
  ((sound _ (h.mem_of_mem (body_mem_toList sub))).pending t h.pending).2

theorem answer (h : e.Drains ready ticket sub t) :
    (e.completeSeek ready ticket).1 =
      (.drained, (sub.landed.setTimeOffset ready t false).1) ∧
    ∀ b ∈ (sub.landed.setTimeOffset ready t false).2.toList,
      b ∈ (e.completeSeek ready ticket).2.toList := by
  obtain ⟨before, after, -, answer, new, -⟩ := completeSeek_of_some ready h.found
  rcases landSeek_cases ready ticket sub with ⟨stale, -⟩ | ⟨-, nothing, -⟩ | ⟨t', -, pending, eq⟩
  · exact absurd h.awaits stale
  · simp [h.pending] at nothing
  · obtain rfl := Option.some.inj (h.pending.symm.trans pending)
    rw [eq] at answer new
    exact ⟨answer, fun b hb => by simp [new, hb]⟩

variable (h : e.Drains ready ticket sub t) (nodup : e.ids.Nodup) (low : 0 ≤ t) (high : t ≤ 1)

include h

theorem requestsTo_outside {id : ElementId} (outside : id ∉ sub.ids) :
    requestsTo id ((e.completeSeek ready ticket).1.2.map .caused) = [] := by
  rw [h.answer.1]
  exact requestsTo_setTimeOffset_outside (by rwa [ids_landed])

include nodup low high

theorem requestsTo_landed {b : Body α} (hb : b ∈ sub.landed.toList) :
    requestsTo b.id ((e.completeSeek ready ticket).1.2.map .caused) =
      (b.request? ready t).toList := by
  have distinct : sub.landed.ids.Nodup := by
    rw [ids_landed]
    exact ((subtree?_sublist h.found).map Body.id).nodup nodup
  rw [h.answer.1]
  exact requestsTo_setTimeOffset distinct low high hb

theorem requestsTo_below {b : Body α} (hb : b ∈ sub.toList) (below : b.id ≠ ticket.element) :
    requestsTo b.id ((e.completeSeek ready ticket).1.2.map .caused) =
      (b.request? ready t).toList := by
  refine h.requestsTo_landed nodup low high ?_
  rw [toList_eq, List.mem_cons] at hb
  rcases hb with rfl | below'
  · exact absurd (subtree?_eq_some h.found).1 below
  · exact List.mem_cons_of_mem _ below'

variable {video : VideoSurface α} (hvideo : sub.body.video = some video)
  (answers : ready (sub.body.player video) = true)

include hvideo answers

theorem requestsTo_root :
    requestsTo ticket.element ((e.completeSeek ready ticket).1.2.map .caused) =
      [⟨video.mediaTime t, seekTolerance, seekTolerance,
        ⟨ticket.element, sub.body.seek.nextGeneration⟩⟩] := by
  rw [← (subtree?_eq_some h.found).1]
  refine (h.requestsTo_landed nodup low high List.mem_cons_self).trans ?_
  simp [Body.request?, hvideo, answers, SeekState.reset, SeekState.issue]

omit nodup in
theorem exists_awaits : ∃ b ∈ (e.completeSeek ready ticket).2.toList, b.id = ticket.element ∧
    b.seek.pending = none ∧ b.Awaits ⟨ticket.element, sub.body.seek.nextGeneration⟩ := by
  have names := (subtree?_eq_some h.found).1
  have sent := Body.applyOffset_seek t (b := sub.body.landed) hvideo rfl answers
  refine ⟨(sub.body.landed.applyOffset ready t false).2, h.answer.2 _ ?_, ?_, ?_, ?_, ?_⟩
  · rw [setTimeOffset, if_pos ⟨low, high⟩, toList_sweep]
    exact List.mem_cons_self
  · exact ((Body.applyOffset_own ready t false).id _).trans names
  · rw [sent]
    rfl
  · simp [hvideo]
  · rw [sent, ← names]
    rfl

end Drains

theorem drains_of_drained (drained : (e.completeSeek ready ticket).1.1 = .drained) :
    ∃ sub t, e.Drains ready ticket sub t := by
  cases found : subtree? ticket.element e with
  | none => simp [completeSeek_of_none ready found] at drained
  | some sub =>
    have accepted : (e.completeSeek ready ticket).1.1 ≠ .stale := by simp [drained]
    obtain ⟨-, -, -, answer, -, -⟩ := completeSeek_of_some ready found
    rw [answer] at drained
    rcases landSeek_cases ready ticket sub with ⟨-, eq⟩ | ⟨-, -, eq⟩ | ⟨t, -, pending, -⟩
    · simp [eq] at drained
    · simp [eq] at drained
    · exact ⟨sub, t, found, pending, accepted⟩

/-- A body after a completion: it is as before, or its seek has landed, or an offset that was
pending has reached it. -/
theorem mem_completeSeek {b' : Body α} (h : b' ∈ (e.completeSeek ready ticket).2.toList) :
    b' ∈ e.toList ∨ (∃ b ∈ e.toList, b' = b.landed) ∨
      ∃ sub t, e.Drains ready ticket sub t ∧
        b' ∈ (sub.landed.setTimeOffset ready t false).2.toList := by
  cases found : subtree? ticket.element e with
  | none =>
    rw [completeSeek_of_none ready found] at h
    exact .inl h
  | some sub =>
    obtain ⟨before, after, old, -, new, -⟩ := completeSeek_of_some ready found
    have part : ∀ b ∈ sub.toList, b ∈ e.toList := fun b hb => by simp [old, hb]
    rw [new, List.mem_append, List.mem_append] at h
    rcases h with (first | here) | last
    · exact .inl (by simp [old, first])
    · rcases landSeek_cases ready ticket sub with ⟨-, eq⟩ | ⟨-, -, eq⟩ | ⟨t, awaits, pending, eq⟩
      · rw [eq] at here
        exact .inl (part b' here)
      · rw [eq] at here
        obtain ⟨b, hb, rfl | rfl⟩ := exists_of_mem_landed here
        · exact .inl (part _ hb)
        · exact .inr (.inl ⟨b, part b hb, rfl⟩)
      · rw [eq] at here
        exact .inr (.inr ⟨sub, t, .of_awaits found awaits pending, here⟩)
    · exact .inl (by simp [old, last])

variable [Analytic α]

/-- In every state that a loaded tree can get into: when a completion is accepted while an offset is
pending, a ready player is sent to that offset by exactly one seek, which is in flight from then
on, and the offset is pending no more. The same offset reaches the videos below, each at its own
media time; players outside of the subtree are asked for nothing. Only a pending offset can be
drained. -/
theorem Reachable.drained_seeks (reachable : e.Reachable) (ready : Player → Bool)
    (ticket : SeekTicket) :
    (∀ sub t, e.Drains ready ticket sub t →
      (∃ video, sub.body.video = some video ∧
        (ready (sub.body.player video) = true →
          (e.completeSeek ready ticket).1.1 = .drained ∧
          requestsTo ticket.element ((e.completeSeek ready ticket).1.2.map .caused) =
            [⟨video.mediaTime t, seekTolerance, seekTolerance,
              ⟨ticket.element, sub.body.seek.nextGeneration⟩⟩] ∧
          ∃ b ∈ (e.completeSeek ready ticket).2.toList, b.id = ticket.element ∧
            b.seek.pending = none ∧
            b.Awaits ⟨ticket.element, sub.body.seek.nextGeneration⟩)) ∧
      (∀ b ∈ sub.toList, b.id ≠ ticket.element →
        requestsTo b.id ((e.completeSeek ready ticket).1.2.map .caused) =
          (b.request? ready t).toList) ∧
      ∀ id, id ∉ sub.ids →
        requestsTo id ((e.completeSeek ready ticket).1.2.map .caused) = []) ∧
    ((e.completeSeek ready ticket).1.1 = .drained → ∃ sub t, e.Drains ready ticket sub t) := by
  have nodup := reachable.nodup_ids
  refine ⟨fun sub t drains => ?_, drains_of_drained⟩
  have here := (subtree?_sublist drains.found).subset (body_mem_toList sub)
  obtain ⟨-, low, high⟩ := (reachable.sound _ here).pending t drains.pending
  obtain ⟨video, hvideo⟩ := Option.isSome_iff_exists.mp drains.awaits.1
  refine ⟨⟨video, hvideo, fun answers => ?_⟩, fun b hb below => ?_, fun id outside => ?_⟩
  · exact ⟨by rw [drains.answer.1], drains.requestsTo_root nodup low high hvideo answers,
      drains.exists_awaits low high hvideo answers⟩
  · exact drains.requestsTo_below nodup low high hb below
  · exact drains.requestsTo_outside outside

def coalescedCalls : List (Call Float) :=
  [⟨0, .setTimeOffset (fun _ => true) 0.25 false⟩, ⟨0, .setTimeOffset (fun _ => true) 0.5 false⟩]

def innerFirstCalls : List (Call Float) :=
  coalescedCalls ++
    [⟨0, .completeSeek (fun _ => true) ⟨1, 0⟩⟩, ⟨0, .completeSeek (fun _ => true) ⟨1, 1⟩⟩]

omit [Scalar α] [Analytic α] in
private theorem exists_drains (desc : Record) (calls : List (Call Float))
    (ready : Player → Bool) (p : Element Float → Bool)
    (h : (screened desc).any (fun root =>
      (subtree? 0 (root.run calls).2).any (fun sub => sub.body.seek.pending = some 0.5) &&
        (decide (((root.run calls).2.completeSeek ready ⟨0, 0⟩).1.1 ≠ .stale) &&
          p (root.run calls).2)) = true) :
    ∃ e sub, Reachable e ∧ e.Drains ready ⟨0, 0⟩ sub 0.5 ∧ p e = true := by
  obtain ⟨root, loaded, holds⟩ := exists_loaded_of_screened h
  rw [Bool.and_eq_true, Bool.and_eq_true] at holds
  obtain ⟨pending, accepted, holds⟩ := holds
  obtain ⟨sub, found, pending⟩ := (Option.any_eq_true _ _).mp pending
  exact ⟨_, sub, ⟨root, calls, loaded, rfl⟩,
    ⟨found, of_decide_eq_true pending, of_decide_eq_true accepted⟩, holds⟩

theorem Reachable.drained_seeks_film : ∃ (e sub : Element Float) (video : VideoSurface Float),
    e.Reachable ∧ e.Drains (fun _ => true) ⟨0, 0⟩ sub 0.5 ∧ sub.body.video = some video ∧
      requestsTo 0 ((e.completeSeek (fun _ => true) ⟨0, 0⟩).1.2.map .caused) =
        [⟨video.mediaTime 0.5, seekTolerance, seekTolerance,
          ⟨0, sub.body.seek.nextGeneration⟩⟩] := by
  obtain ⟨e, sub, reachable, drains, -⟩ :=
    exists_drains (.film "a.mp4" [.film "b.mp4" []]) innerFirstCalls (fun _ => true)
      (fun _ => true) (by decide +kernel)
  obtain ⟨⟨video, hvideo, sent⟩, -⟩ :=
    (reachable.drained_seeks (fun _ => true) ⟨0, 0⟩).1 sub 0.5 drains
  exact ⟨e, sub, video, reachable, drains, hvideo, (sent rfl).2.1⟩

/-- A player that is not ready is not sent to the offset, which is pending no more either; and a
video below is sent to it too. -/
theorem Reachable.drained_unsent :
    (¬∀ e : Element Float, e.Reachable → ∀ ready ticket sub t, e.Drains ready ticket sub t →
      ((e.completeSeek ready ticket).1.1 = .drained ∧
        ∃ video request, sub.body.video = some video ∧
          requestsTo ticket.element ((e.completeSeek ready ticket).1.2.map .caused) = [request] ∧
          request.target = video.mediaTime t) ∨
      ((e.completeSeek ready ticket).1.1 ≠ .drained ∧
        ∃ b ∈ (e.completeSeek ready ticket).2.toList, b.id = ticket.element ∧
          b.seek.pending = some t)) ∧
    ¬∀ e : Element Float, e.Reachable → ∀ ready ticket sub t, e.Drains ready ticket sub t →
      ∀ id, id ≠ ticket.element →
        requestsTo id ((e.completeSeek ready ticket).1.2.map .caused) = [] := by
  constructor
  · intro claim
    obtain ⟨e, sub, reachable, drains, lost⟩ :=
      exists_drains (.film "a.mp4" []) coalescedCalls (fun _ => false)
        (fun e => decide ((e.completeSeek (fun _ => false) ⟨0, 0⟩).1.1 = .drained ∧
          requestsTo 0 ((e.completeSeek (fun _ => false) ⟨0, 0⟩).1.2.map .caused) = []))
        (by decide +kernel)
    obtain ⟨drained, unsent⟩ := of_decide_eq_true lost
    rcases claim e reachable _ _ sub 0.5 drains with ⟨-, video, request, -, sent, -⟩ | ⟨other, -⟩
    · simp [unsent] at sent
    · exact other drained
  · intro claim
    obtain ⟨e, sub, reachable, drains, sent⟩ :=
      exists_drains (.film "a.mp4" [.film "b.mp4" []]) innerFirstCalls (fun _ => true)
        (fun e => decide
          (requestsTo 1 ((e.completeSeek (fun _ => true) ⟨0, 0⟩).1.2.map .caused) ≠ []))
        (by decide +kernel)
    exact of_decide_eq_true sent (claim e reachable _ _ sub 0.5 drains 1 (by decide))

end Element

end LayerTree
