import LayerTree.Playback.Run
import LayerTree.Proofs.Element.Bodies

/-!
Changes of a tree that change each body on its own.

Every operation is of this kind: a body that is there afterwards was there before under the same
id, and what became of it depends on it and on its own part of the record alone. A property of
bodies with their own records is therefore kept by a run as soon as each operation keeps it.
-/

set_option autoImplicit false
set_option relaxedAutoImplicit false

namespace LayerTree

variable {α : Type}

def about (id : ElementId) (log : List (Occurrence α)) : List (Occurrence α) :=
  log.filter fun o => o.element == id

theorem about_append (id : ElementId) (log more : List (Occurrence α)) :
    about id (log ++ more) = about id log ++ about id more :=
  List.filter_append ..

theorem about_eq_nil {id : ElementId} {log : List (Occurrence α)}
    (h : ∀ o ∈ log, o.element ≠ id) : about id log = [] := by
  simpa [about] using h

theorem about_eq_self {id : ElementId} {log : List (Occurrence α)}
    (h : ∀ o ∈ log, o.element = id) : about id log = log := by
  simpa [about] using h

def requestsTo (id : ElementId) (log : List (Occurrence α)) : List (SeekRequest α) :=
  log.filterMap (Occurrence.requestTo? id)

theorem requestsTo_append (id : ElementId) (log more : List (Occurrence α)) :
    requestsTo id (log ++ more) = requestsTo id log ++ requestsTo id more :=
  List.filterMap_append ..

@[simp] theorem requestsTo_nil (id : ElementId) :
    requestsTo id ([] : List (Occurrence α)) = [] := rfl

theorem requestsTo_cons_seek (id : ElementId) (player : Player) (request : SeekRequest α)
    (log : List (Occurrence α)) :
    requestsTo id (.caused (.seek player request) :: log) =
      if player.element = id then request :: requestsTo id log else requestsTo id log := by
  by_cases here : player.element = id <;> simp [requestsTo, Occurrence.requestTo?, here]

@[simp] theorem requestsTo_cons_landed (id : ElementId) (ticket : SeekTicket)
    (log : List (Occurrence α)) : requestsTo id (.landed ticket :: log) = requestsTo id log := rfl

theorem requestsTo_cons_none {id : ElementId} {o : Occurrence α} (h : o.requestTo? id = none)
    (log : List (Occurrence α)) : requestsTo id (o :: log) = requestsTo id log :=
  List.filterMap_cons_none h

theorem mem_requestsTo {id : ElementId} {request : SeekRequest α} {log : List (Occurrence α)}
    (h : request ∈ requestsTo id log) :
    ∃ player, player.element = id ∧ .caused (.seek player request) ∈ log := by
  obtain ⟨o, ho, sent⟩ := List.mem_filterMap.mp h
  cases o with
  | landed ticket => simp [Occurrence.requestTo?] at sent
  | caused event =>
    cases event with
    | seek player other =>
      obtain ⟨named, rfl⟩ : player.element = id ∧ other = request := by
        simpa [Occurrence.requestTo?] using sent
      exact ⟨player, named, ho⟩
    | _ => simp [Occurrence.requestTo?] at sent

theorem requestTo?_elsewhere {id : ElementId} {o : Occurrence α} (h : o.element ≠ id) :
    o.requestTo? id = none := by
  cases o with
  | landed ticket => rfl
  | caused event =>
    cases event with
    | seek player request =>
      have other : player.element ≠ id := h
      simp [Occurrence.requestTo?, other]
    | _ => rfl

theorem requestsTo_about (id : ElementId) (log : List (Occurrence α)) :
    requestsTo id (about id log) = requestsTo id log := by
  rw [requestsTo, about, List.filterMap_filter]
  refine List.filterMap_congr fun o _ => ?_
  by_cases here : o.element = id
  · simp [here]
  · simp [here, requestTo?_elsewhere here]

/-- A change of a body under the same id, which causes only what is about that body. -/
structure OwnChange (f : Body α → List (Event α) × Body α) : Prop where
  id : ∀ b, (f b).2.id = b.id
  own : ∀ b, ∀ v ∈ (f b).1, v.element = b.id

namespace Element

theorem ids_map {f : Body α → Body α} (id : ∀ b, (f b).id = b.id) (e : Element α) :
    (e.map f).ids = e.ids := by
  simp only [ids, toList_map, List.map_map]
  exact List.map_congr_left fun b _ => id b

theorem ids_sweep {f : Body α → List (Event α) × Body α} (own : OwnChange f) (e : Element α) :
    (e.sweep f).2.ids = e.ids := by
  simp only [ids, toList_sweep, List.map_map]
  exact List.map_congr_left fun b _ => own.id b

end Element

/-! The part of a sweep that is about one body. -/

private theorem about_flatMap {f : Body α → List (Event α) × Body α} (own : OwnChange f)
    {bs : List (Body α)} (nodup : (bs.map Body.id).Nodup) {b : Body α} (hb : b ∈ bs) :
    about b.id ((bs.flatMap fun c => (f c).1).map Occurrence.caused) = (f b).1.map .caused := by
  have others : ∀ {cs : List (Body α)}, b.id ∉ cs.map Body.id →
      about b.id ((cs.flatMap fun c => (f c).1).map Occurrence.caused) = [] := by
    intro cs absent
    refine about_eq_nil fun o ho => ?_
    obtain ⟨v, hv, rfl⟩ := List.mem_map.mp ho
    obtain ⟨c, hc, hv⟩ := List.mem_flatMap.mp hv
    exact fun same => absent (List.mem_map.mpr ⟨c, hc, (own.own c v hv).symm.trans same⟩)
  have self : about b.id ((f b).1.map Occurrence.caused) = (f b).1.map .caused := by
    refine about_eq_self fun o ho => ?_
    obtain ⟨v, hv, rfl⟩ := List.mem_map.mp ho
    exact own.own b v hv
  -- no other body has this id, so only one part of the sweep is about it
  obtain ⟨before, after, rfl⟩ := List.append_of_mem hb
  rw [List.map_append, List.map_cons, List.nodup_middle, List.nodup_cons, List.mem_append,
    not_or] at nodup
  obtain ⟨⟨first, last⟩, -⟩ := nodup
  simp only [List.flatMap_append, List.flatMap_cons, List.map_append, about_append, others first,
    others last, self, List.nil_append, List.append_nil]

theorem about_sweep {f : Body α → List (Event α) × Body α} (own : OwnChange f) {e : Element α}
    (nodup : e.ids.Nodup) {b : Body α} (hb : b ∈ e.toList) :
    about b.id ((e.sweep f).1.map Occurrence.caused) = (f b).1.map .caused := by
  rw [Element.sweep_told]
  exact about_flatMap own (Element.nodup_ids_upward nodup) (Element.mem_upward.mpr hb)

theorem element_mem_sweep {f : Body α → List (Event α) × Body α} (own : OwnChange f)
    {e : Element α} {v : Event α} (hv : v ∈ (e.sweep f).1) : v.element ∈ e.ids := by
  rw [Element.sweep_told] at hv
  obtain ⟨b, hb, hv⟩ := List.mem_flatMap.mp hv
  exact List.mem_map.mpr ⟨b, Element.mem_upward.mp hb, (own.own b v hv).symm⟩

/-- A change of a tree in which each body changes as `R` says, by its own part of what is
recorded. Bodies may be dropped, and nothing is recorded about those. -/
structure Bodywise (R : Body α → List (Occurrence α) → Body α → Prop) (e : Element α)
    (log : List (Occurrence α)) (e' : Element α) : Prop where
  ids : e'.ids.Sublist e.ids
  own : ∀ o ∈ log, o.element ∈ e'.ids
  moved : ∀ b' ∈ e'.toList, ∃ b ∈ e.toList, b'.id = b.id ∧ R b (about b.id log) b'

namespace Bodywise

variable {R : Body α → List (Occurrence α) → Body α → Prop} {e e' : Element α}
  {log : List (Occurrence α)}

theorem nodup (h : Bodywise R e log e') (nodup : e.ids.Nodup) : e'.ids.Nodup :=
  h.ids.nodup nodup

theorem refl (refl : ∀ b, R b [] b) (e : Element α) : Bodywise R e [] e where
  ids := List.Sublist.refl _
  own := by simp
  moved b hb := ⟨b, hb, rfl, refl b⟩

theorem map (h : Bodywise R e log e') {f : Body α → Body α} (id : ∀ b, (f b).id = b.id)
    (silent : ∀ b l b', R b l b' → R b l (f b')) : Bodywise R e log (e'.map f) := by
  have ids := Element.ids_map id e'
  refine ⟨ids ▸ h.ids, fun o ho => ids ▸ h.own o ho, fun b' hb' => ?_⟩
  rw [Element.toList_map] at hb'
  obtain ⟨c, hc, rfl⟩ := List.mem_map.mp hb'
  obtain ⟨b, hb, same, move⟩ := h.moved c hc
  exact ⟨b, hb, (id c).trans same, silent _ _ _ move⟩

theorem trans {R' R'' : Body α → List (Occurrence α) → Body α → Prop} {e'' : Element α}
    {more : List (Occurrence α)} (h : Bodywise R e log e') (h' : Bodywise R' e' more e'')
    (kept : e''.ids = e'.ids)
    (trans : ∀ b l b' l' b'', R b l b' → R' b' l' b'' → R'' b (l ++ l') b'') :
    Bodywise R'' e (log ++ more) e'' where
  ids := h'.ids.trans h.ids
  own o ho := by
    rcases List.mem_append.mp ho with first | second
    · exact kept ▸ h.own o first
    · exact h'.own o second
  moved b'' hb'' := by
    obtain ⟨b', hb', same', move'⟩ := h'.moved b'' hb''
    obtain ⟨b, hb, same, move⟩ := h.moved b' hb'
    refine ⟨b, hb, same'.trans same, ?_⟩
    rw [about_append]
    exact trans _ _ _ _ _ move (same ▸ move')

theorem sweep {f : Body α → List (Event α) × Body α} (own : OwnChange f) (nodup : e.ids.Nodup)
    (move : ∀ b ∈ e.toList, R b ((f b).1.map .caused) (f b).2) :
    Bodywise R e ((e.sweep f).1.map .caused) (e.sweep f).2 := by
  have ids := Element.ids_sweep own e
  refine ⟨ids ▸ List.Sublist.refl _, fun o ho => ?_, fun b' hb' => ?_⟩
  · obtain ⟨v, hv, rfl⟩ := List.mem_map.mp ho
    exact ids ▸ element_mem_sweep own hv
  · rw [Element.toList_sweep] at hb'
    obtain ⟨b, hb, rfl⟩ := List.mem_map.mp hb'
    refine ⟨b, hb, own.id b, ?_⟩
    rw [about_sweep own nodup hb]
    exact move b hb

theorem splice {sub sub' : Element α} {before after : List (Body α)}
    (refl : ∀ b, b.id ∉ sub.ids → R b [] b)
    (nodup : e.ids.Nodup) (old : e.toList = before ++ sub.toList ++ after)
    (new : e'.toList = before ++ sub'.toList ++ after) (h : Bodywise R sub log sub') :
    Bodywise R e log e' := by
  have oldIds : e.ids = before.map Body.id ++ sub.ids ++ after.map Body.id := by
    simp [Element.ids, old]
  have newIds : e'.ids = before.map Body.id ++ sub'.ids ++ after.map Body.id := by
    simp [Element.ids, new]
  rw [oldIds] at nodup
  have untouched : ∀ b, b.id ∉ sub.ids → R b (about b.id log) b := by
    intro b absent
    have nothing : about b.id log = [] :=
      about_eq_nil fun o ho same => absent (same ▸ h.ids.subset (h.own o ho))
    rw [nothing]
    exact refl b absent
  refine ⟨?_, fun o ho => ?_, fun b' hb' => ?_⟩
  · rw [oldIds, newIds]
    exact ((List.Sublist.refl _).append h.ids).append (List.Sublist.refl _)
  · rw [newIds]
    exact List.mem_append_left _ (List.mem_append_right _ (h.own o ho))
  · simp only [List.nodup_append, List.mem_append] at nodup
    obtain ⟨⟨-, -, apart⟩, -, apart'⟩ := nodup
    rw [new, List.mem_append, List.mem_append] at hb'
    simp only [old, List.mem_append]
    rcases hb' with (first | here) | last
    · exact ⟨b', .inl (.inl first), rfl,
        untouched b' fun mem => apart _ (List.mem_map_of_mem first) _ mem rfl⟩
    · obtain ⟨b, hb, same, move⟩ := h.moved b' here
      exact ⟨b, .inl (.inr hb), same, move⟩
    · exact ⟨b', .inr last, rfl,
        untouched b' fun mem => apart' _ (.inr mem) _ (List.mem_map_of_mem last) rfl⟩

end Bodywise

/-- A move leads from one property of a body and what was recorded about it to another one. -/
def Carries (I J : List (Occurrence α) → Body α → Prop) (b : Body α)
    (more : List (Occurrence α)) (b' : Body α) : Prop :=
  ∀ log, I log b → J (log ++ more) b'

namespace Carries

variable {I J K : List (Occurrence α) → Body α → Prop}

theorem stay (le : ∀ log b, I log b → J log b) (b : Body α) : Carries I J b [] b :=
  fun log h => by
    rw [List.append_nil]
    exact le log b h

theorem follow (b : Body α) (l : List (Occurrence α)) (b' : Body α) (l' : List (Occurrence α))
    (b'' : Body α) (first : Carries I J b l b') (second : Carries J K b' l' b'') :
    Carries I K b (l ++ l') b'' := fun log h => by
  rw [← List.append_assoc]
  exact second _ (first log h)

end Carries

theorem Bodywise.carries {I J : List (Occurrence α) → Body α → Prop} {e e' : Element α}
    {log more : List (Occurrence α)} (h : Bodywise (Carries I J) e more e')
    (all : ∀ b ∈ e.toList, I (about b.id log) b) :
    ∀ b ∈ e'.toList, J (about b.id (log ++ more)) b := by
  intro b' hb'
  obtain ⟨b, hb, same, move⟩ := h.moved b' hb'
  rw [same, about_append]
  exact move _ (all b hb)

end LayerTree
