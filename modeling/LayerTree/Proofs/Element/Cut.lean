import LayerTree.Proofs.Element.Places

/-!
Trees without what is below some of their elements.

Cutting a tree looks at ids only, so it does not matter whether bodies are changed under their ids
before or after it. An update by id that changes no more of the bodies than a view of them leaves
out, and drops no more than the children of the element that it finds, is such a cut as far as the
view goes.
-/

set_option autoImplicit false
set_option relaxedAutoImplicit false

namespace LayerTree

namespace Element

variable {α β ε : Type}

mutual

/-- The tree without what is below the elements whose ids are picked. -/
def cut (picked : ElementId → Bool) : Element α → Element α
  | node body children => node body (if picked body.id then [] else cutAll picked children)

def cutAll (picked : ElementId → Bool) : List (Element α) → List (Element α)
  | [] => []
  | e :: es => cut picked e :: cutAll picked es

end

theorem mapAll_eq (f : Body α → Body α) (es : List (Element α)) :
    mapAll f es = es.map (Element.map f) := by
  induction es with
  | nil => rfl
  | cons e es ih => rw [mapAll, ih, List.map_cons]

theorem cutAll_eq (picked : ElementId → Bool) (es : List (Element α)) :
    cutAll picked es = es.map (cut picked) := by
  induction es with
  | nil => rfl
  | cons e es ih => rw [cutAll, ih, List.map_cons]

@[simp] theorem body_map (f : Body α → Body α) (e : Element α) : (e.map f).body = f e.body := by
  cases e with
  | node b es => rfl

@[simp] theorem body_cut (picked : ElementId → Bool) (e : Element α) :
    (e.cut picked).body = e.body := by
  cases e with
  | node b es => rfl

theorem children_map (f : Body α → Body α) (e : Element α) :
    (e.map f).children = e.children.map (Element.map f) := by
  cases e with
  | node b es => exact mapAll_eq f es

theorem children_cut (picked : ElementId → Bool) (e : Element α) :
    (e.cut picked).children =
      if picked e.body.id then [] else e.children.map (cut picked) := by
  cases e with
  | node b es =>
    rw [← cutAll_eq]
    rfl

/-! Changes of bodies that a view of them does not show. -/

section

variable {view : Body α → Body α}

mutual

theorem map_map_of_view {f : Body α → Body α} (unseen : ∀ b, view (f b) = view b) :
    ∀ e : Element α, (e.map f).map view = e.map view
  | node b es => by simp only [map, unseen, mapAll_map_of_view unseen es]

private theorem mapAll_map_of_view {f : Body α → Body α} (unseen : ∀ b, view (f b) = view b) :
    ∀ es : List (Element α), mapAll view (mapAll f es) = mapAll view es
  | [] => rfl
  | e :: es => by simp only [mapAll, map_map_of_view unseen e, mapAll_map_of_view unseen es]

end

mutual

theorem map_sweep_of_view {f : Body α → List ε × Body α} (unseen : ∀ b, view (f b).2 = view b) :
    ∀ e : Element α, (e.sweep f).2.map view = e.map view
  | node b es => by simp only [sweep, map, unseen, mapAll_sweep_of_view unseen es]

private theorem mapAll_sweep_of_view {f : Body α → List ε × Body α}
    (unseen : ∀ b, view (f b).2 = view b) :
    ∀ es : List (Element α), mapAll view (sweepAll f es).2 = mapAll view es
  | [] => rfl
  | e :: es => by
    simp only [sweepAll, mapAll, map_sweep_of_view unseen e, mapAll_sweep_of_view unseen es]

end

end

/-! Cutting. -/

mutual

theorem map_cut {f : Body α → Body α} (id : ∀ b, (f b).id = b.id) (picked : ElementId → Bool) :
    ∀ e : Element α, (e.cut picked).map f = (e.map f).cut picked
  | node b es => by
    rw [cut, map, map, cut, id]
    split
    · rfl
    · rw [mapAll_cutAll id picked es]

private theorem mapAll_cutAll {f : Body α → Body α} (id : ∀ b, (f b).id = b.id)
    (picked : ElementId → Bool) :
    ∀ es : List (Element α), mapAll f (cutAll picked es) = cutAll picked (mapAll f es)
  | [] => rfl
  | e :: es => by
    simp only [cutAll, mapAll, map_cut id picked e, mapAll_cutAll id picked es]

end

mutual

theorem cut_cut (picked picked' : ElementId → Bool) :
    ∀ e : Element α, (e.cut picked).cut picked' = e.cut fun id => picked id || picked' id
  | node b es => by
    rw [cut, cut, cut]
    by_cases first : picked b.id = true
    · simp [first, cutAll]
    · simp [first, cutAll_cutAll picked picked' es]

private theorem cutAll_cutAll (picked picked' : ElementId → Bool) :
    ∀ es : List (Element α),
      cutAll picked' (cutAll picked es) = cutAll (fun id => picked id || picked' id) es
  | [] => rfl
  | e :: es => by
    simp only [cutAll, cut_cut picked picked' e, cutAll_cutAll picked picked' es]

end

mutual

theorem cut_of_absent {picked : ElementId → Bool} :
    ∀ {e : Element α}, (∀ id ∈ e.ids, picked id = false) → e.cut picked = e
  | node b es, absent => by
    obtain ⟨root, below⟩ := List.forall_mem_cons.mp absent
    rw [cut, root, cutAll_of_absent below]
    rfl

private theorem cutAll_of_absent {picked : ElementId → Bool} :
    ∀ {es : List (Element α)}, (∀ id ∈ (listAll es).map Body.id, picked id = false) →
      cutAll picked es = es
  | [], _ => rfl
  | e :: es, absent => by
    rw [listAll_cons, List.map_append, List.forall_mem_append] at absent
    rw [cutAll, cut_of_absent absent.1, cutAll_of_absent absent.2]

end

theorem cut_false (e : Element α) : (e.cut fun _ => false) = e :=
  cut_of_absent fun _ _ => rfl

theorem unpicked_of_not_mem {id : ElementId} {picked : ElementId → Bool}
    (only : ∀ x, picked x = true → x = id) {ids : List ElementId} (absent : id ∉ ids) :
    ∀ x ∈ ids, picked x = false := by
  intro x there
  cases here : picked x with
  | false => rfl
  | true =>
    have same : x = id := only x here
    exact absurd (same ▸ there) absent

/-! Elements at places. -/

theorem at?_map (f : Body α → Body α) (place : List Nat) (e : Element α) :
    (e.map f).at? place = (e.at? place).map (Element.map f) := by
  induction place generalizing e with
  | nil => rfl
  | cons i place ih =>
    rw [at?, at?, children_map, List.getElem?_map]
    cases e.children[i]? with
    | none => rfl
    | some child => exact ih child

theorem at?_cut {picked : ElementId → Bool} {place : List Nat} {e sub : Element α}
    (there : (e.cut picked).at? place = some sub) :
    ∃ whole, e.at? place = some whole ∧ sub = whole.cut picked := by
  induction place generalizing e with
  | nil => exact ⟨e, rfl, (Option.some.inj there).symm⟩
  | cons i place ih =>
    obtain ⟨child, here, below⟩ := Option.bind_eq_some_iff.mp there
    rw [children_cut] at here
    split at here
    · simp at here
    · rw [List.getElem?_map] at here
      obtain ⟨child', old, rfl⟩ := Option.map_eq_some_iff.mp here
      obtain ⟨whole, found, same⟩ := ih below
      exact ⟨whole, Option.bind_eq_some_iff.mpr ⟨child', old, found⟩, same⟩

/-! Updates that are cuts. -/

theorem update?_eq_none {id : ElementId} {f : Element α → β × Element α} {e : Element α} :
    update? id f e = none ↔ id ∉ e.ids := by
  rw [← subtree?_eq_none]
  constructor
  · intro nothing
    cases found : subtree? id e with
    | none => rfl
    | some sub =>
      obtain ⟨-, -, e', changed, -⟩ := update?_of_some f found
      rw [nothing] at changed
      cases changed
  · exact update?_of_none f

section

variable {id : ElementId} {f : Element α → β × Element α} {view : Body α → Body α}
  {picked : ElementId → Bool}

mutual

/-- An update that cuts the element that it finds, as far as a view of the bodies goes, cuts the
tree at that element. -/
theorem map_update?_of_cut (only : ∀ x, picked x = true → x = id)
    (step : ∀ sub, sub.ids.Nodup → sub.body.id = id →
      (f sub).2.map view = (sub.cut picked).map view) :
    ∀ {e : Element α} {answer : β × Element α}, e.ids.Nodup → update? id f e = some answer →
      answer.2.map view = (e.cut picked).map view
  | node b es, answer, nodup, h => by
    unfold update? at h
    split at h
    · next here =>
      obtain rfl := Option.some.inj h
      exact step _ nodup (eq_of_beq here)
    · next elsewhere =>
      obtain ⟨below, found, rfl⟩ := Option.map_eq_some_iff.mp h
      have whole : ¬picked b.id = true := fun root => elsewhere (by simp [only b.id root])
      have kids := mapAll_updateAmong?_of_cut only step (List.nodup_cons.mp nodup).2 found
      rw [cut, if_neg whole, map, map, kids]

private theorem mapAll_updateAmong?_of_cut (only : ∀ x, picked x = true → x = id)
    (step : ∀ sub, sub.ids.Nodup → sub.body.id = id →
      (f sub).2.map view = (sub.cut picked).map view) :
    ∀ {es : List (Element α)} {answer : β × List (Element α)},
      ((listAll es).map Body.id).Nodup → updateAmong? id f es = some answer →
      mapAll view answer.2 = mapAll view (cutAll picked es)
  | [], _, _, h => nomatch h
  | e :: es, answer, nodup, h => by
    rw [listAll_cons, List.map_append, List.nodup_append] at nodup
    obtain ⟨first, others, apart⟩ := nodup
    unfold updateAmong? at h
    split at h
    · next a e' changed =>
      obtain rfl := Option.some.inj h
      have here : id ∈ e.ids := by
        by_contra absent
        rw [update?_eq_none.mpr absent] at changed
        cases changed
      -- the id is not there twice, so that the others stay whole
      have absent : id ∉ (listAll es).map Body.id := fun there => apart id here id there rfl
      have rest : cutAll picked es = es := cutAll_of_absent (unpicked_of_not_mem only absent)
      simp only [mapAll, cutAll, rest, map_update?_of_cut only step first changed]
    · next nothing =>
      obtain ⟨below, found, rfl⟩ := Option.map_eq_some_iff.mp h
      have absent : id ∉ e.ids := update?_eq_none.mp nothing
      have whole : e.cut picked = e := cut_of_absent (unpicked_of_not_mem only absent)
      simp only [mapAll, cutAll, whole, mapAll_updateAmong?_of_cut only step others found]

end

end

end Element

end LayerTree
