import LayerTree.Proofs.Playback.Bodywise

/-!
Every operation is a bodywise change, made of few kinds of moves of single bodies.

Which moves there are is said once, in `Moves`; a property of bodies that the moves keep is kept by
every call and every run.
-/

set_option autoImplicit false
set_option relaxedAutoImplicit false

namespace LayerTree

variable {α : Type}

/-! What the operations do to a single body. -/

namespace Body

@[simp] theorem player_element (b : Body α) (video : VideoSurface α) :
    (b.player video).element = b.id := rfl

def landed (b : Body α) : Body α := { b with seek := b.seek.reset }

@[simp] theorem landed_id (b : Body α) : b.landed.id = b.id := rfl

@[simp] theorem landed_video (b : Body α) : b.landed.video = b.video := rfl

@[simp] theorem landed_player (b : Body α) (video : VideoSurface α) :
    b.landed.player video = b.player video := rfl

@[simp] theorem landed_seek (b : Body α) : b.landed.seek = b.seek.reset := rfl

section

variable [Scalar α]

@[simp] theorem stepSprite_id (t : α) (b : Body α) : (b.stepSprite t).id = b.id := by
  unfold stepSprite
  split <;> rfl

@[simp] theorem stepSprite_seek (t : α) (b : Body α) : (b.stepSprite t).seek = b.seek := by
  unfold stepSprite
  split <;> rfl

@[simp] theorem stepSprite_video (t : α) (b : Body α) : (b.stepSprite t).video = b.video := by
  unfold stepSprite
  split <;> rfl

/-- What an offset means for the video of a body: nothing without one or while its player is not
ready, and otherwise either the offset is kept or the player is asked for a seek. -/
theorem seekVideo_cases (ready : Player → Bool) (t : α) (b : Body α) :
    (b.seekVideo ready t = ([], b) ∧ ∀ video, b.video = some video →
        b.seek.inFlight = none ∧ ready (b.player video) = false) ∨
      (∃ video ticket, b.video = some video ∧ b.seek.inFlight = some ticket ∧
        b.seekVideo ready t = ([], { b with seek := b.seek.postpone t })) ∨
      ∃ video, b.video = some video ∧ b.seek.inFlight = none ∧ ready (b.player video) = true ∧
        b.seekVideo ready t =
          ([.seek (b.player video) ⟨video.mediaTime t, seekTolerance, seekTolerance,
              (b.seek.issue b.id).1⟩],
            { b with seek := (b.seek.issue b.id).2 }) := by
  unfold seekVideo
  cases hvideo : b.video with
  | none => exact .inl ⟨rfl, nofun⟩
  | some video =>
    cases flying : b.seek.inFlight with
    | some ticket => exact .inr (.inl ⟨video, ticket, rfl, rfl, rfl⟩)
    | none =>
      cases answer : ready (b.player video) with
      | false =>
        refine .inl ⟨by simp [answer], fun other same => ?_⟩
        obtain rfl := Option.some.inj same
        exact ⟨rfl, answer⟩
      | true => exact .inr (.inr ⟨video, rfl, rfl, answer, by simp [answer]⟩)

theorem applyOffset_own (ready : Player → Bool) (t : α) (autoplay : Bool) :
    OwnChange fun b : Body α => b.applyOffset ready t autoplay where
  id b := by
    unfold applyOffset seekVideo
    repeat' split
    all_goals simp
  own b := by
    unfold applyOffset seekVideo
    repeat' split
    all_goals simp [Event.element, player]

theorem applyOffset_false (ready : Player → Bool) (t : α) (b : Body α) :
    b.applyOffset ready t false = (b.stepSprite t).seekVideo ready t := rfl

@[simp] theorem applyOffset_video (ready : Player → Bool) (t : α) (autoplay : Bool) (b : Body α) :
    (b.applyOffset ready t autoplay).2.video = b.video := by
  unfold applyOffset seekVideo
  repeat' split
  all_goals simp_all

end

@[simp] theorem withPlayOpacity_id (opacity : α) (b : Body α) :
    (b.withPlayOpacity opacity).id = b.id := by
  unfold withPlayOpacity
  split <;> rfl

@[simp] theorem withPlayOpacity_seek (opacity : α) (b : Body α) :
    (b.withPlayOpacity opacity).seek = b.seek := by
  unfold withPlayOpacity
  split <;> rfl

@[simp] theorem withPlayOpacity_video (opacity : α) (b : Body α) :
    (b.withPlayOpacity opacity).video = b.video := by
  unfold withPlayOpacity
  split <;> rfl

theorem startVideo_cases (b : Body α) :
    (b.startVideo = ([], b) ∧ ∀ video, b.video = some video → video.playing = true) ∨
      ∃ video, b.video = some video ∧ video.playing = false ∧
        b.startVideo =
          ((if video.needsRewind then [.rewind (b.player video)] else []) ++
              [.play (b.player video), .started b.id],
            { b with video := some { video with playing := true, needsRewind := false } }) := by
  unfold startVideo
  cases hvideo : b.video with
  | none => exact .inl ⟨rfl, nofun⟩
  | some video =>
    cases playing : video.playing with
    | true =>
      refine .inl ⟨by simp [playing], fun other same => ?_⟩
      obtain rfl := Option.some.inj same
      exact playing
    | false => exact .inr ⟨video, rfl, playing, by simp [playing]⟩

theorem pauseVideo_cases (b : Body α) :
    (b.pauseVideo = ([], b) ∧ ∀ video, b.video = some video → video.playing = false) ∨
      ∃ video, b.video = some video ∧ video.playing = true ∧
        b.pauseVideo =
          ([.pause (b.player video), .finished b.id false],
            { b with video := some { video with playing := false } }) := by
  unfold pauseVideo
  cases hvideo : b.video with
  | none => exact .inl ⟨rfl, nofun⟩
  | some video =>
    cases playing : video.playing with
    | true => exact .inr ⟨video, rfl, playing, by simp [playing]⟩
    | false =>
      refine .inl ⟨by simp [playing], fun other same => ?_⟩
      obtain rfl := Option.some.inj same
      exact playing

theorem startVideo_own : OwnChange fun b : Body α => b.startVideo where
  id b := by
    unfold startVideo
    repeat' split
    all_goals rfl
  own b := by
    unfold startVideo
    repeat' split
    all_goals simp [Event.element, player]

theorem pauseVideo_own : OwnChange fun b : Body α => b.pauseVideo where
  id b := by
    unfold pauseVideo
    repeat' split
    all_goals rfl
  own b := by
    unfold pauseVideo
    repeat' split
    all_goals simp [Event.element, player]

theorem endVideo_own (repeats : Bool) (video : VideoSurface α) :
    OwnChange fun b : Body α => ((b.endVideo repeats video).1.1, (b.endVideo repeats video).2) where
  id b := by
    unfold endVideo
    repeat' split
    all_goals rfl
  own b := by
    unfold endVideo
    repeat' split
    all_goals simp [Event.element, player]

end Body

variable [Scalar α] {R : Body α → List (Occurrence α) → Body α → Prop}

def Body.Awaits (b : Body α) (ticket : SeekTicket) : Prop :=
  b.video.isSome = true ∧ b.seek.inFlight = some ticket

namespace Element

def landed (e : Element α) : Element α := node e.body.landed e.children

omit [Scalar α] in
@[simp] theorem ids_landed (e : Element α) : e.landed.ids = e.ids := by
  cases e with
  | node b es => rfl

omit [Scalar α] in
theorem exists_of_mem_landed {e : Element α} {c : Body α} (h : c ∈ e.landed.toList) :
    ∃ b ∈ e.toList, c = b ∨ c = b.landed := by
  rcases List.mem_cons.mp h with rfl | below
  · exact ⟨e.body, body_mem_toList e, .inr rfl⟩
  · exact ⟨c, toList_eq e ▸ List.mem_cons_of_mem e.body below, .inl rfl⟩

omit [Scalar α] in
theorem exists_mem_landed {e : Element α} {b : Body α} (h : b ∈ e.toList) :
    ∃ c ∈ e.landed.toList, c = b ∨ c = b.landed := by
  rw [toList_eq] at h
  rcases List.mem_cons.mp h with rfl | below
  · exact ⟨e.body.landed, List.mem_cons_self, .inr rfl⟩
  · exact ⟨b, List.mem_cons_of_mem _ below, .inl rfl⟩

theorem toList_setTimeOffset {t : α} (low : 0 ≤ t) (high : t ≤ 1) (ready : Player → Bool)
    (autoplay : Bool) (e : Element α) :
    (e.setTimeOffset ready t autoplay).2.toList =
      e.toList.map fun b => (b.applyOffset ready t autoplay).2 := by
  rw [setTimeOffset, if_pos ⟨low, high⟩, toList_sweep]

theorem ids_setTimeOffset (ready : Player → Bool) (t : α) (autoplay : Bool) (e : Element α) :
    (e.setTimeOffset ready t autoplay).2.ids = e.ids := by
  unfold setTimeOffset
  split
  · exact ids_sweep (Body.applyOffset_own ready t autoplay) e
  · rfl

theorem mem_setTimeOffset {ready : Player → Bool} {t : α} {e : Element α} {v : Event α}
    (h : v ∈ (e.setTimeOffset ready t false).1) :
    ∃ b ∈ e.toList, ∃ video, b.video = some video ∧ b.seek.inFlight = none ∧
      ready (b.player video) = true ∧
      v = .seek (b.player video) ⟨video.mediaTime t, seekTolerance, seekTolerance,
        (b.seek.issue b.id).1⟩ := by
  unfold setTimeOffset at h
  split at h
  · rw [sweep_told] at h
    obtain ⟨b, hb, hv⟩ := List.mem_flatMap.mp h
    rw [Body.applyOffset_false] at hv
    rcases (b.stepSprite t).seekVideo_cases ready t with
      ⟨eq, -⟩ | ⟨video, ticket, -, -, eq⟩ | ⟨video, hvideo, flying, answer, eq⟩
    · simp [eq] at hv
    · simp [eq] at hv
    · rw [eq, List.mem_singleton] at hv
      refine ⟨b, mem_upward.mp hb, video, by simpa using hvideo, by simpa using flying, ?_, ?_⟩
      · simpa [Body.player] using answer
      · simpa [Body.player] using hv
  · simp at h

theorem landSeek_cases (ready : Player → Bool) (ticket : SeekTicket) (e : Element α) :
    (¬e.body.Awaits ticket ∧ landSeek ready ticket e = ((.stale, []), e)) ∨
      (e.body.Awaits ticket ∧ e.body.seek.pending = none ∧
        landSeek ready ticket e = ((.settled, []), e.landed)) ∨
      ∃ t, e.body.Awaits ticket ∧ e.body.seek.pending = some t ∧
        landSeek ready ticket e =
          ((.drained, (e.landed.setTimeOffset ready t false).1),
            (e.landed.setTimeOffset ready t false).2) := by
  by_cases awaits : e.body.Awaits ticket
  · have test : (e.body.video.isSome && e.body.seek.inFlight == some ticket) = true := by
      simp [awaits.1, awaits.2]
    unfold landSeek
    simp only [test, if_true]
    cases pending : e.body.seek.pending with
    | none => exact .inr (.inl ⟨awaits, rfl, rfl⟩)
    | some t => exact .inr (.inr ⟨t, awaits, rfl, rfl⟩)
  · have test : (e.body.video.isSome && e.body.seek.inFlight == some ticket) = false := by
      rw [Bool.eq_false_iff]
      exact fun both => awaits (by simpa [Body.Awaits] using both)
    unfold landSeek
    exact .inl ⟨awaits, by simp only [test]; rfl⟩

theorem completeSeek_of_none (ready : Player → Bool) {ticket : SeekTicket} {e : Element α}
    (absent : subtree? ticket.element e = none) :
    e.completeSeek ready ticket = ((.stale, []), e) := by
  rw [completeSeek, update?_of_none _ absent, Option.getD_none]

theorem completeSeek_of_some (ready : Player → Bool) {ticket : SeekTicket} {e sub : Element α}
    (found : subtree? ticket.element e = some sub) :
    ∃ before after, e.toList = before ++ sub.toList ++ after ∧
      (e.completeSeek ready ticket).1 = (landSeek ready ticket sub).1 ∧
      (e.completeSeek ready ticket).2.toList =
        before ++ (landSeek ready ticket sub).2.toList ++ after ∧
      ((landSeek ready ticket sub).2 = sub → (e.completeSeek ready ticket).2 = e) := by
  obtain ⟨before, after, e', eq, old, new, same⟩ := update?_of_some (landSeek ready ticket) found
  rw [completeSeek, eq, Option.getD_some]
  exact ⟨before, after, old, rfl, new, same⟩

theorem completeSeek_of_stale {ready : Player → Bool} {ticket : SeekTicket} {e : Element α}
    (stale : (e.completeSeek ready ticket).1.1 = .stale) :
    e.completeSeek ready ticket = ((.stale, []), e) := by
  cases found : subtree? ticket.element e with
  | none => exact completeSeek_of_none ready found
  | some sub =>
    obtain ⟨-, -, -, answer, -, same⟩ := completeSeek_of_some ready found
    rw [answer] at stale
    rcases landSeek_cases ready ticket sub with ⟨-, eq⟩ | ⟨-, -, eq⟩ | ⟨t, -, -, eq⟩
    · rw [eq] at answer same
      exact Prod.ext answer (same rfl)
    · simp [eq] at stale
    · simp [eq] at stale

theorem videoReachedEnd_cases (repeats : Body α → Bool) (id : ElementId) (e : Element α) :
    e.videoReachedEnd repeats id = (none, e) ∨
      ∃ part video before after e', subtree? id e = some part ∧ part.body.video = some video ∧
        e.toList = before ++ part.toList ++ after ∧
        e'.toList = before ++
          (part.body.endVideo (repeats part.body) video).2 :: listAll part.children ++ after ∧
        e.videoReachedEnd repeats id =
          (some (part.body.endVideo (repeats part.body) video).1.1,
            if (part.body.endVideo (repeats part.body) video).1.2 then e'.setPlayOpacity 1
            else e') := by
  unfold videoReachedEnd
  cases found : subtree? id e with
  | none => exact .inl (by rw [update?_of_none _ found])
  | some part =>
    obtain ⟨before, after, e', eq, old, new, -⟩ := update?_of_some (endHere repeats) found
    rw [eq]
    cases hvideo : part.body.video with
    | none => exact .inl (by simp only [endHere, hvideo])
    | some video =>
      simp only [endHere, hvideo, toList_node] at new
      exact .inr ⟨part, video, before, after, e', rfl, hvideo, old, new, by
        simp only [endHere, hvideo]⟩

end Element

namespace Bodywise

omit [Scalar α] in
private theorem root {b b' : Body α} {es : List (Element α)} {log : List (Occurrence α)}
    (stay : ∀ c, c.id ≠ b.id → R c [] c) (nodup : (Element.node b es).ids.Nodup)
    (id : b'.id = b.id) (own : ∀ o ∈ log, o.element = b.id) (move : R b log b') :
    Bodywise R (.node b es) log (.node b' es) := by
  have ids : (Element.node b' es).ids = (Element.node b es).ids := by simp [Element.ids, id]
  refine ⟨ids ▸ List.Sublist.refl _, fun o ho => ?_, fun c hc => ?_⟩
  · rw [ids, own o ho]
    exact List.mem_cons_self
  · rcases List.mem_cons.mp hc with rfl | below
    · exact ⟨b, List.mem_cons_self, id, by rwa [about_eq_self own]⟩
    · refine ⟨c, List.mem_cons_of_mem b below, rfl, ?_⟩
      have other : b.id ≠ c.id := fun same =>
        (List.nodup_cons.mp nodup).1 (same ▸ List.mem_map_of_mem below)
      rw [about_eq_nil fun o ho same => other ((own o ho).symm.trans same)]
      exact stay c other.symm

theorem setTimeOffset {e : Element α} {ready : Player → Bool} {t : α} {autoplay : Bool}
    (stay : ∀ b, R b [] b) (nodup : e.ids.Nodup)
    (apply : 0 ≤ t → t ≤ 1 → ∀ b ∈ e.toList,
      R b ((b.applyOffset ready t autoplay).1.map .caused) (b.applyOffset ready t autoplay).2) :
    Bodywise R e ((e.setTimeOffset ready t autoplay).1.map .caused)
      (e.setTimeOffset ready t autoplay).2 := by
  unfold Element.setTimeOffset
  split
  · next range =>
    exact Bodywise.sweep (Body.applyOffset_own ready t autoplay) nodup (apply range.1 range.2)
  · exact Bodywise.refl stay e

omit [Scalar α] in
theorem landed {e : Element α} {ticket : SeekTicket} (stay : ∀ b, R b [] b)
    (nodup : e.ids.Nodup) (names : ticket.element = e.body.id)
    (land : R e.body [.landed ticket] e.body.landed) :
    Bodywise R e [.landed ticket] e.landed := by
  cases e with
  | node b es =>
    exact root (fun c _ => stay c) nodup rfl (by simpa [Occurrence.element] using names) land

theorem completeSeek {e : Element α} {ready : Player → Bool} {ticket : SeekTicket}
    (stay : ∀ b, R b [] b) (nodup : e.ids.Nodup)
    (settle : ∀ b ∈ e.toList, b.Awaits ticket → ticket.element = b.id →
      b.seek.pending = none → R b [.landed ticket] b.landed)
    (drain : ∀ sub t, sub.ids.Nodup → sub.body ∈ e.toList → sub.body.Awaits ticket →
      ticket.element = sub.body.id → sub.body.seek.pending = some t →
      Bodywise R sub
        ([.landed ticket] ++ (sub.landed.setTimeOffset ready t false).1.map .caused)
        (sub.landed.setTimeOffset ready t false).2) :
    Bodywise R e ((e.completeSeek ready ticket).1.1.record ticket ++
      (e.completeSeek ready ticket).1.2.map .caused) (e.completeSeek ready ticket).2 := by
  cases found : Element.subtree? ticket.element e with
  | none =>
    rw [Element.completeSeek_of_none ready found]
    exact Bodywise.refl stay e
  | some sub =>
    obtain ⟨before, after, old, answer, new, -⟩ := Element.completeSeek_of_some ready found
    obtain ⟨names, -⟩ := Element.subtree?_eq_some found
    have part := Element.subtree?_sublist found
    have root := part.subset (Element.body_mem_toList sub)
    have distinct : sub.ids.Nodup := (part.map Body.id).nodup nodup
    refine splice (fun b _ => stay b) nodup old new ?_
    rw [answer]
    rcases Element.landSeek_cases ready ticket sub with
      ⟨-, eq⟩ | ⟨awaits, pending, eq⟩ | ⟨t, awaits, pending, eq⟩
    · rw [eq]
      exact Bodywise.refl stay sub
    · rw [eq]
      exact landed stay distinct names.symm (settle _ root awaits names.symm pending)
    · rw [eq]
      exact drain sub t distinct root awaits names.symm pending

/-! The operations that have nothing to do with seeks, with what each of them needs of `R`. -/

omit [Scalar α] in
private theorem playOpacity {e e' : Element α} {log : List (Occurrence α)}
    (fade : ∀ b l b' opacity, R b l b' → R b l (b'.withOpacity opacity))
    (h : Bodywise R e log e') (opacity : α) : Bodywise R e log (e'.setPlayOpacity opacity) := by
  refine h.map (Body.withPlayOpacity_id opacity) fun b l b' move => ?_
  unfold Body.withPlayOpacity
  split
  · exact fade b l b' opacity move
  · exact move

theorem startAutoplay {e : Element α}
    (fade : ∀ b l b' opacity, R b l b' → R b l (b'.withOpacity opacity)) (nodup : e.ids.Nodup)
    (start : ∀ b ∈ e.toList, R b (b.startVideo.1.map .caused) b.startVideo.2) :
    Bodywise R e (e.startAutoplay.1.map .caused) e.startAutoplay.2 := by
  have swept := Bodywise.sweep Body.startVideo_own nodup start
  unfold Element.startAutoplay
  dsimp only
  split
  · exact swept
  · exact playOpacity fade swept 0

theorem pauseAutoplay {e : Element α}
    (fade : ∀ b l b' opacity, R b l b' → R b l (b'.withOpacity opacity)) (nodup : e.ids.Nodup)
    (pause : ∀ b ∈ e.toList, R b (b.pauseVideo.1.map .caused) b.pauseVideo.2) :
    Bodywise R e (e.pauseAutoplay.1.map .caused) e.pauseAutoplay.2 := by
  have swept := Bodywise.sweep Body.pauseVideo_own nodup pause
  unfold Element.pauseAutoplay
  dsimp only
  split
  · exact swept
  · exact playOpacity fade swept 1

theorem videoReachedEnd {e : Element α} {repeats : Body α → Bool} {id : ElementId}
    (fade : ∀ b l b' opacity, R b l b' → R b l (b'.withOpacity opacity)) (nodup : e.ids.Nodup)
    (stay : ∀ b, b.id ≠ id ∨ b ∈ e.toList ∧ b.video = none → R b [] b)
    (finish : ∀ b ∈ e.toList, b.id = id → ∀ video, b.video = some video →
      R b ((b.endVideo (repeats b) video).1.1.map .caused) (b.endVideo (repeats b) video).2) :
    Bodywise R e (((e.videoReachedEnd repeats id).1.getD []).map .caused)
      (e.videoReachedEnd repeats id).2 := by
  have untaken : (∀ b ∈ e.toList, b.id = id → b.video = none) → Bodywise R e [] e := by
    intro mute
    refine ⟨List.Sublist.refl _, by simp, fun b hb => ⟨b, hb, rfl, ?_⟩⟩
    by_cases named : b.id = id
    · exact stay b (.inr ⟨hb, mute b hb named⟩)
    · exact stay b (.inl named)
  unfold Element.videoReachedEnd
  cases found : Element.subtree? id e with
  | none =>
    rw [Element.update?_of_none _ found]
    refine untaken fun b hb named => ?_
    exact absurd (named ▸ List.mem_map_of_mem hb) (Element.subtree?_eq_none.mp found)
  | some sub =>
    obtain ⟨before, after, e', eq, old, new, -⟩ :=
      Element.update?_of_some (Element.endHere repeats) found
    obtain ⟨named, -⟩ := Element.subtree?_eq_some found
    have part := Element.subtree?_sublist found
    have here := part.subset (Element.body_mem_toList sub)
    rw [eq]
    cases hvideo : sub.body.video with
    | none =>
      have answer : (Element.endHere repeats sub).1 = none := by
        simp only [Element.endHere, hvideo]
      simp only [answer]
      refine untaken fun b hb same => ?_
      obtain rfl : b = sub.body :=
        List.inj_on_of_nodup_map nodup hb here (same.trans named.symm)
      exact hvideo
    | some video =>
      cases sub with
      | node b es =>
        have own := Body.endVideo_own (repeats b) video
        have apart : ∀ c : Body α, c.id ∉ (Element.node b es).ids → c.id ≠ id :=
          fun c outside same => outside (same ▸ named ▸ List.mem_cons_self)
        have ended : Bodywise R e ((b.endVideo (repeats b) video).1.1.map .caused) e' := by
          refine splice (fun c outside => stay c (.inl (apart c outside))) nodup old new ?_
          simp only [Element.body_node] at hvideo
          simp only [Element.endHere, Element.body_node, hvideo]
          refine root (fun c other => stay c (.inl fun same => other (same.trans named.symm)))
            ((part.map Body.id).nodup nodup) (own.id b) (fun o ho => ?_)
            (finish b here named video hvideo)
          obtain ⟨v, hv, rfl⟩ := List.mem_map.mp ho
          exact own.own b v hv
        simp only [Element.body_node] at hvideo
        simp only [Element.endHere, Element.body_node, hvideo]
        split
        · exact playOpacity fade ended 1
        · exact ended

omit [Scalar α] in
theorem setActionOpacity {e : Element α} (stay : ∀ b, R b [] b)
    (fade : ∀ b opacity, R b [] (b.withOpacity opacity)) (opacity : α) (nodup : e.ids.Nodup) :
    Bodywise R e [] (e.setActionOpacity opacity).2 := by
  unfold Element.setActionOpacity
  split
  · cases e with
    | node b es =>
      exact root (fun c _ => stay c) nodup rfl (by simp) (fade b opacity)
  · exact Bodywise.refl stay e

theorem press {e : Element α} (stay : ∀ b, R b [] b)
    (tap : ∀ b name, b.action = some name → R b [.caused (.action b.id name)] (b.withOpacity 1))
    (nodup : e.ids.Nodup) : Bodywise R e ((e.press.1.getD []).map .caused) e.press.2 := by
  unfold Element.press
  split
  · next name hname =>
    cases e with
    | node b es =>
      have action : b.action.isSome = true := by simpa using Option.isSome_of_eq_some hname
      simp only [Element.setActionOpacity, Element.body_node, action, if_true]
      exact root (fun c _ => stay c) nodup rfl
        (by simp [Occurrence.element, Event.element]) (tap b name hname)
  · exact Bodywise.refl stay e

omit [Scalar α] in
theorem clear (drop : ∀ b, R b [] b.tearDown) (e : Element α) : Bodywise R e [] e.clear := by
  cases e with
  | node b es =>
    refine ⟨?_, by simp, fun b' hb' => ?_⟩
    · exact List.Sublist.cons_cons _ (List.nil_sublist _)
    · obtain rfl := List.mem_singleton.mp hb'
      exact ⟨b, List.mem_cons_self, rfl, drop b⟩

end Bodywise

/-- The moves of a body that are no answer to an offset and no landing of a seek, each with what is
recorded of it. -/
structure SeeklessMoves (R : Body α → List (Occurrence α) → Body α → Prop) : Prop where
  stay : ∀ b, R b [] b
  follow : ∀ b l b' l' b'', R b l b' → R b' l' b'' → R b (l ++ l') b''
  /-- The body is shown with another opacity. -/
  fade : ∀ b opacity, R b [] (b.withOpacity opacity)
  start : ∀ b, R b (b.startVideo.1.map .caused) b.startVideo.2
  pause : ∀ b, R b (b.pauseVideo.1.map .caused) b.pauseVideo.2
  /-- The media of the body's video are over. -/
  finish : ∀ repeats b video, b.video = some video →
    R b ((b.endVideo repeats video).1.1.map .caused) (b.endVideo repeats video).2
  /-- The body is tapped. -/
  tap : ∀ b name, b.action = some name → R b [.caused (.action b.id name)] b
  /-- The body is cleared. -/
  drop : ∀ b, R b [] b.tearDown

/-- The moves of a body that operations are made of. -/
structure Moves (R : Body α → List (Occurrence α) → Body α → Prop) : Prop
    extends SeeklessMoves R where
  /-- An offset of the timeline reaches the body. -/
  apply : ∀ ready t autoplay b, 0 ≤ t → t ≤ 1 →
    R b ((b.applyOffset ready t autoplay).1.map .caused) (b.applyOffset ready t autoplay).2
  /-- The seek that was in flight lands. -/
  land : ∀ ticket b, b.Awaits ticket → ticket.element = b.id →
    R b [.landed ticket] b.landed

def Operation.isSeekless : Operation α → Bool
  | setTimeOffset _ _ _ => false
  | completeSeek _ _ => false
  | _ => true

namespace SeeklessMoves

variable {e : Element α}

omit [Scalar α] in
private theorem faded (moves : SeeklessMoves R) (b : Body α) (l : List (Occurrence α))
    (b' : Body α) (opacity : α) (move : R b l b') : R b l (b'.withOpacity opacity) := by
  rw [← List.append_nil l]
  exact moves.follow _ _ _ _ _ move (moves.fade b' opacity)

theorem perform (moves : SeeklessMoves R) {operation : Operation α}
    (seekless : operation.isSeekless = true) (nodup : e.ids.Nodup) :
    Bodywise R e (operation.perform e).1 (operation.perform e).2 := by
  cases operation with
  | setTimeOffset ready t autoplay => simp [Operation.isSeekless] at seekless
  | completeSeek ready ticket => simp [Operation.isSeekless] at seekless
  | startAutoplay => exact Bodywise.startAutoplay moves.faded nodup fun b _ => moves.start b
  | pauseAutoplay => exact Bodywise.pauseAutoplay moves.faded nodup fun b _ => moves.pause b
  | videoReachedEnd repeats id =>
    exact Bodywise.videoReachedEnd moves.faded nodup (fun b _ => moves.stay b)
      fun b _ _ video hvideo => moves.finish (repeats b) b video hvideo
  | touchDown => exact Bodywise.setActionOpacity moves.stay moves.fade pressedOpacity nodup
  | touchCancel => exact Bodywise.setActionOpacity moves.stay moves.fade 1 nodup
  | press =>
    exact Bodywise.press moves.stay
      (fun b name action => moves.follow _ _ _ _ _ (moves.tap b name action) (moves.fade b 1)) nodup
  | clear => exact Bodywise.clear moves.drop e

end SeeklessMoves

namespace Moves

variable {e : Element α}

theorem perform (moves : Moves R) (operation : Operation α) (nodup : e.ids.Nodup) :
    Bodywise R e (operation.perform e).1 (operation.perform e).2 := by
  cases operation with
  | setTimeOffset ready t autoplay =>
    exact Bodywise.setTimeOffset moves.stay nodup fun low high b _ =>
      moves.apply ready t autoplay b low high
  | completeSeek ready ticket =>
    refine Bodywise.completeSeek moves.stay nodup
      (fun b _ awaits names _ => moves.land ticket b awaits names)
      fun sub t distinct _ awaits names _ => ?_
    have landed := Bodywise.landed moves.stay distinct names (moves.land ticket _ awaits names)
    exact landed.trans
      (Bodywise.setTimeOffset moves.stay (landed.nodup distinct) fun low high b _ =>
        moves.apply ready t false b low high)
      (Element.ids_setTimeOffset ready t false sub.landed) moves.follow
  | _ => exact moves.toSeeklessMoves.perform rfl nodup

theorem make (moves : Moves R) (c : Call α) (nodup : e.ids.Nodup) :
    Bodywise R e (e.make c).1 (e.make c).2 := by
  unfold Element.make
  cases found : Element.subtree? c.element e with
  | none =>
    rw [Element.update?_of_none _ found]
    exact Bodywise.refl moves.stay e
  | some sub =>
    obtain ⟨before, after, e', eq, old, new, -⟩ :=
      Element.update?_of_some c.operation.perform found
    have part := Element.subtree?_sublist found
    rw [eq]
    exact Bodywise.splice (fun b _ => moves.stay b) nodup old new
      (moves.perform c.operation ((part.map Body.id).nodup nodup))

end Moves

theorem Element.run_append : ∀ (first others : List (Call α)) (e : Element α),
    e.run (first ++ others) =
      ((e.run first).1 ++ ((e.run first).2.run others).1, ((e.run first).2.run others).2)
  | [], others, e => by simp [run]
  | c :: first, others, e => by
    simp only [List.cons_append, run, run_append first others, List.append_assoc]

/-- What the moves keep of every body holds after a run, for every element that is left. What it
implies of the record of an element keeps to hold when the element is gone. -/
theorem Element.run_keeps {I : List (Occurrence α) → Body α → Prop}
    {G : ElementId → List (Occurrence α) → Prop} (moves : Moves (Carries I I))
    (lasting : ∀ log b, I log b → G b.id log) :
    ∀ (calls : List (Call α)) (e : Element α) (log : List (Occurrence α)), e.ids.Nodup →
      (∀ b ∈ e.toList, I (about b.id log) b) → (∀ id, G id (about id log)) →
      (e.run calls).2.ids.Sublist e.ids ∧
        (∀ b ∈ (e.run calls).2.toList, I (about b.id (log ++ (e.run calls).1)) b) ∧
        ∀ id, G id (about id (log ++ (e.run calls).1))
  | [], e, log, _, all, always => by simpa [run] using ⟨all, always⟩
  | c :: calls, e, log, nodup, all, always => by
    have made := moves.make c nodup
    have all' := made.carries all
    have always' : ∀ id, G id (about id (log ++ (e.make c).1)) := by
      intro id
      -- nothing is recorded of an element that is gone, so what it left behind stands
      by_cases there : id ∈ (e.make c).2.ids
      · obtain ⟨b, hb, rfl⟩ := List.mem_map.mp there
        exact lasting _ b (all' b hb)
      · have nothing : about id (e.make c).1 = [] :=
          about_eq_nil fun o ho same => there (same ▸ made.own o ho)
        rw [about_append, nothing, List.append_nil]
        exact always id
    obtain ⟨ids, rest⟩ :=
      run_keeps moves lasting calls (e.make c).2 _ (made.nodup nodup) all' always'
    refine ⟨ids.trans made.ids, ?_⟩
    simpa only [run, List.append_assoc] using rest

end LayerTree
