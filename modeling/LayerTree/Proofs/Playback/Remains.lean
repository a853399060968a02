import LayerTree.Proofs.Element.Pruned
import LayerTree.Proofs.Playback.Operations

/-!
What is left of a tree after calls.

An operation drops elements at most, so the root stays the root, and a host that calls the root of a
tree calls one and the same element all the time.
-/

set_option autoImplicit false
set_option relaxedAutoImplicit false

namespace LayerTree

variable {α : Type} [Scalar α]

namespace Element

omit [Scalar α] in
theorem prunes_landed (e : Element α) : Prunes e.landed e := by
  cases e with
  | node b es => exact .root (Body.landed_id b) es

omit [Scalar α] in
theorem prunes_setPlayOpacity (opacity : α) (e : Element α) :
    Prunes (e.setPlayOpacity opacity) e :=
  .map (Body.withPlayOpacity_id opacity) e

theorem prunes_setTimeOffset (ready : Player → Bool) (t : α) (autoplay : Bool) (e : Element α) :
    Prunes (e.setTimeOffset ready t autoplay).2 e := by
  unfold setTimeOffset
  split
  · exact .sweep (Body.applyOffset_own ready t autoplay).id e
  · exact .refl e

theorem prunes_landSeek (ready : Player → Bool) (ticket : SeekTicket) (e : Element α) :
    Prunes (landSeek ready ticket e).2 e := by
  rcases landSeek_cases ready ticket e with ⟨-, eq⟩ | ⟨-, -, eq⟩ | ⟨t, -, -, eq⟩
  · rw [eq]
    exact .refl e
  · rw [eq]
    exact prunes_landed e
  · rw [eq]
    exact (prunes_setTimeOffset ready t false e.landed).trans (prunes_landed e)

theorem prunes_completeSeek (ready : Player → Bool) (ticket : SeekTicket) (e : Element α) :
    Prunes (e.completeSeek ready ticket).2 e := by
  unfold completeSeek
  cases found : update? ticket.element (landSeek ready ticket) e with
  | none => exact .refl e
  | some answer => exact .update? (prunes_landSeek ready ticket) found

theorem prunes_startAutoplay (e : Element α) : Prunes e.startAutoplay.2 e := by
  have swept : Prunes (e.sweep Body.startVideo).2 e := .sweep Body.startVideo_own.id e
  unfold startAutoplay
  dsimp only
  split
  · exact swept
  · exact (prunes_setPlayOpacity 0 _).trans swept

theorem prunes_pauseAutoplay (e : Element α) : Prunes e.pauseAutoplay.2 e := by
  have swept : Prunes (e.sweep Body.pauseVideo).2 e := .sweep Body.pauseVideo_own.id e
  unfold pauseAutoplay
  dsimp only
  split
  · exact swept
  · exact (prunes_setPlayOpacity 1 _).trans swept

omit [Scalar α] in
theorem prunes_endHere (repeats : Body α → Bool) (e : Element α) :
    Prunes (e.endHere repeats).2 e := by
  unfold endHere
  split
  · exact .refl e
  · next video _ =>
    cases e with
    | node b es => exact .root ((Body.endVideo_own (repeats b) video).id b) es

theorem prunes_videoReachedEnd (repeats : Body α → Bool) (id : ElementId) (e : Element α) :
    Prunes (e.videoReachedEnd repeats id).2 e := by
  unfold videoReachedEnd
  split
  · next events stopped next found =>
    have ended : Prunes next e := .update? (prunes_endHere repeats) found
    dsimp only
    split
    · exact (prunes_setPlayOpacity 1 _).trans ended
    · exact ended
  · exact .refl e

omit [Scalar α] in
theorem prunes_setActionOpacity (opacity : α) (e : Element α) :
    Prunes (e.setActionOpacity opacity).2 e := by
  unfold setActionOpacity
  split
  · cases e with
    | node b es => exact .root (show (b.withOpacity opacity).id = b.id from rfl) es
  · exact .refl e

theorem prunes_perform (operation : Operation α) (e : Element α) :
    Prunes (operation.perform e).2 e := by
  cases operation with
  | setTimeOffset ready t autoplay => exact prunes_setTimeOffset ready t autoplay e
  | completeSeek ready ticket => exact prunes_completeSeek ready ticket e
  | startAutoplay => exact prunes_startAutoplay e
  | pauseAutoplay => exact prunes_pauseAutoplay e
  | videoReachedEnd repeats id => exact prunes_videoReachedEnd repeats id e
  | touchDown => exact prunes_setActionOpacity pressedOpacity e
  | touchCancel => exact prunes_setActionOpacity 1 e
  | press =>
    simp only [Operation.perform, press]
    split
    · exact prunes_setActionOpacity 1 e
    · exact .refl e
  | clear =>
    cases e with
    | node b es => exact .node rfl .dropped

theorem prunes_make (c : Call α) (e : Element α) : Prunes (e.make c).2 e := by
  unfold make
  cases found : update? c.element c.operation.perform e with
  | none => exact .refl e
  | some answer => exact .update? (prunes_perform c.operation) found

theorem prunes_run : ∀ (calls : List (Call α)) (e : Element α), Prunes (e.run calls).2 e
  | [], e => .refl e
  | c :: calls, e => (prunes_run calls (e.make c).2).trans (prunes_make c e)

/-! What offsets and completions leave of each body. -/

section

variable {γ : Type} {view : Body α → γ}

theorem map_toList_setTimeOffset
    (apply : ∀ ready t autoplay b, view (b.applyOffset ready t autoplay).2 = view b)
    (ready : Player → Bool) (t : α) (autoplay : Bool) (e : Element α) :
    (e.setTimeOffset ready t autoplay).2.toList.map view = e.toList.map view := by
  unfold setTimeOffset
  split
  · rw [toList_sweep, List.map_map]
    exact List.map_congr_left fun b _ => apply ready t autoplay b
  · rfl

theorem map_toList_completeSeek
    (apply : ∀ ready t autoplay b, view (b.applyOffset ready t autoplay).2 = view b)
    (land : ∀ b, view b.landed = view b) (ready : Player → Bool) (ticket : SeekTicket)
    (e : Element α) : (e.completeSeek ready ticket).2.toList.map view = e.toList.map view := by
  have landed : ∀ part : Element α, part.landed.toList.map view = part.toList.map view := by
    intro part
    simp only [Element.landed, toList_node, toList_eq part, List.map_cons, land]
  cases found : subtree? ticket.element e with
  | none => rw [completeSeek_of_none ready found]
  | some part =>
    obtain ⟨before, after, old, -, new, -⟩ := completeSeek_of_some ready found
    have same : (landSeek ready ticket part).2.toList.map view = part.toList.map view := by
      rcases landSeek_cases ready ticket part with ⟨-, eq⟩ | ⟨-, -, eq⟩ | ⟨t, -, -, eq⟩
      · rw [eq]
      · rw [eq, landed]
      · rw [eq, map_toList_setTimeOffset apply, landed]
    simp only [old, new, List.map_append, same]

end

/-! What offsets and completions cause. -/

theorem seek_of_mem_setTimeOffset {ready : Player → Bool} {t : α} {autoplay : Bool}
    {e : Element α} {v : Event α} (h : v ∈ (e.setTimeOffset ready t autoplay).1) :
    ∃ player request, v = .seek player request := by
  cases autoplay with
  | true =>
    unfold setTimeOffset at h
    split at h
    · simp [sweep_told, Body.applyOffset] at h
    · simp at h
  | false =>
    obtain ⟨b, -, video, -, -, -, rfl⟩ := mem_setTimeOffset h
    exact ⟨_, _, rfl⟩

theorem seek_of_mem_completeSeek {ready : Player → Bool} {ticket : SeekTicket} {e : Element α}
    {v : Event α} (h : v ∈ (e.completeSeek ready ticket).1.2) :
    ∃ player request, v = .seek player request := by
  cases found : subtree? ticket.element e with
  | none => simp [completeSeek_of_none ready found] at h
  | some part =>
    obtain ⟨-, -, -, answer, -, -⟩ := completeSeek_of_some ready found
    rw [answer] at h
    rcases landSeek_cases ready ticket part with ⟨-, eq⟩ | ⟨-, -, eq⟩ | ⟨t, -, -, eq⟩
    · simp [eq] at h
    · simp [eq] at h
    · rw [eq] at h
      exact seek_of_mem_setTimeOffset h

/-! Runs on the root. -/

def drive (operations : List (Operation α)) (e : Element α) : List (Occurrence α) × Element α :=
  e.run (operations.map (Call.mk e.body.id))

@[simp] theorem drive_nil (e : Element α) : e.drive [] = ([], e) := rfl

theorem make_root (operation : Operation α) (e : Element α) :
    e.make ⟨e.body.id, operation⟩ = operation.perform e := by
  cases e with
  | node b es => simp [make, update?]

theorem drive_cons (operation : Operation α) (operations : List (Operation α)) (e : Element α) :
    e.drive (operation :: operations) =
      ((operation.perform e).1 ++ ((operation.perform e).2.drive operations).1,
        ((operation.perform e).2.drive operations).2) := by
  have same := (prunes_perform operation e).body_id
  simp only [drive, List.map_cons, run, make_root, same]

/-- What every step keeps that is allowed, a whole run keeps. -/
theorem drive_keeps {P : List (Occurrence α) → Element α → Prop} {allowed : Operation α → Bool}
    (step : ∀ {log e operation}, e.ids.Nodup → allowed operation = true → P log e →
      P (log ++ (operation.perform e).1) (operation.perform e).2) :
    ∀ (operations : List (Operation α)) (log : List (Occurrence α)) {e : Element α},
      e.ids.Nodup → (∀ o ∈ operations, allowed o = true) → P log e →
      P (log ++ (e.drive operations).1) (e.drive operations).2
  | [], log, e, _, _, holds => by simpa using holds
  | operation :: operations, log, e, nodup, all, holds => by
    obtain ⟨first, others⟩ := List.forall_mem_cons.mp all
    have nodup' := (prunes_perform operation e).nodup nodup
    rw [drive_cons, ← List.append_assoc]
    exact drive_keeps step operations _ nodup' others (step nodup first holds)

theorem drive_append (first others : List (Operation α)) (e : Element α) :
    e.drive (first ++ others) =
      ((e.drive first).1 ++ ((e.drive first).2.drive others).1,
        ((e.drive first).2.drive others).2) := by
  have same := (prunes_run (first.map (Call.mk e.body.id)) e).body_id
  simp only [drive, List.map_append, run_append, same]

theorem drive_concat (operations : List (Operation α)) (operation : Operation α) (e : Element α) :
    e.drive (operations ++ [operation]) =
      ((e.drive operations).1 ++ (operation.perform (e.drive operations).2).1,
        (operation.perform (e.drive operations).2).2) := by
  simp only [drive_append, drive_cons, drive_nil, List.append_nil]

end Element

end LayerTree
