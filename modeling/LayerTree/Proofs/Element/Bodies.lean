import LayerTree.Element
import Mathlib.Data.List.Nodup

/-!
Trees as the lists of their bodies.

Every walk over a tree is seen on `Element.toList`: a map and a sweep change each body in place, a
sweep tells what it has to tell in the order of `Element.upward`, and an update changes one
contiguous part of the list, the bodies of the subtree that it finds.
-/

set_option autoImplicit false
set_option relaxedAutoImplicit false

namespace LayerTree

namespace Element

variable {α β ε : Type}

def ids (e : Element α) : List ElementId := e.toList.map Body.id

mutual

def upward : Element α → List (Body α)
  | node body children => upwardAll children ++ [body]

def upwardAll : List (Element α) → List (Body α)
  | [] => []
  | e :: es => e.upward ++ upwardAll es

end

@[simp] theorem toList_node (b : Body α) (es : List (Element α)) :
    (node b es).toList = b :: listAll es := rfl

@[simp] theorem listAll_nil : listAll ([] : List (Element α)) = [] := rfl

@[simp] theorem listAll_cons (e : Element α) (es : List (Element α)) :
    listAll (e :: es) = e.toList ++ listAll es := rfl

@[simp] theorem body_node (b : Body α) (es : List (Element α)) : (node b es).body = b := rfl

@[simp] theorem children_node (b : Body α) (es : List (Element α)) :
    (node b es).children = es := rfl

theorem toList_eq (e : Element α) : e.toList = e.body :: listAll e.children := by
  cases e with
  | node b es => rfl

theorem body_mem_toList (e : Element α) : e.body ∈ e.toList := by
  rw [toList_eq]
  exact List.mem_cons_self

mutual

theorem upward_perm : ∀ e : Element α, e.upward.Perm e.toList
  | node b es => by
    simp only [upward, toList_node]
    exact (List.perm_append_singleton b _).trans ((upwardAll_perm es).cons b)

private theorem upwardAll_perm : ∀ es : List (Element α), (upwardAll es).Perm (listAll es)
  | [] => List.Perm.nil
  | e :: es => (upward_perm e).append (upwardAll_perm es)

end

theorem mem_upward {e : Element α} {b : Body α} : b ∈ e.upward ↔ b ∈ e.toList :=
  (upward_perm e).mem_iff

theorem nodup_ids_upward {e : Element α} (h : e.ids.Nodup) : (e.upward.map Body.id).Nodup :=
  ((upward_perm e).map Body.id).nodup_iff.mpr h

/-! Maps and sweeps. -/

mutual

@[simp] theorem toList_map (f : Body α → Body α) :
    ∀ e : Element α, (e.map f).toList = e.toList.map f
  | node b es => by simp only [map, toList_node, List.map_cons, listAll_mapAll f es]

private theorem listAll_mapAll (f : Body α → Body α) :
    ∀ es : List (Element α), listAll (mapAll f es) = (listAll es).map f
  | [] => rfl
  | e :: es => by
    simp only [mapAll, listAll_cons, List.map_append, toList_map f e, listAll_mapAll f es]

end

mutual

@[simp] theorem toList_sweep (f : Body α → List ε × Body α) :
    ∀ e : Element α, (e.sweep f).2.toList = e.toList.map fun b => (f b).2
  | node b es => by simp only [sweep, toList_node, List.map_cons, listAll_sweepAll f es]

private theorem listAll_sweepAll (f : Body α → List ε × Body α) :
    ∀ es : List (Element α), listAll (sweepAll f es).2 = (listAll es).map fun b => (f b).2
  | [] => rfl
  | e :: es => by
    simp only [sweepAll, listAll_cons, List.map_append, toList_sweep f e, listAll_sweepAll f es]

end

mutual

theorem sweep_told (f : Body α → List ε × Body α) :
    ∀ e : Element α, (e.sweep f).1 = e.upward.flatMap fun b => (f b).1
  | node b es => by
    simp only [sweep, upward, List.flatMap_append, List.flatMap_singleton, sweepAll_told f es]

private theorem sweepAll_told (f : Body α → List ε × Body α) :
    ∀ es : List (Element α), (sweepAll f es).1 = (upwardAll es).flatMap fun b => (f b).1
  | [] => rfl
  | e :: es => by
    simp only [sweepAll, upwardAll, List.flatMap_append, sweep_told f e, sweepAll_told f es]

end

/-! Finding and updating a subtree. -/

mutual

theorem subtree?_eq_none {id : ElementId} :
    ∀ {e : Element α}, subtree? id e = none ↔ id ∉ e.ids
  | node b es => by
    have below : subtreeAmong? id es = none ↔ id ∉ (listAll es).map Body.id :=
      subtreeAmong?_eq_none
    unfold subtree?
    by_cases here : b.id = id
    · simp [here, ids]
    · simpa [here, Ne.symm here, ids] using below

private theorem subtreeAmong?_eq_none {id : ElementId} :
    ∀ {es : List (Element α)}, subtreeAmong? id es = none ↔ id ∉ (listAll es).map Body.id
  | [] => by simp [subtreeAmong?]
  | e :: es => by
    rw [subtreeAmong?, Option.or_eq_none_iff, subtree?_eq_none, subtreeAmong?_eq_none,
      listAll_cons, List.map_append, List.mem_append, not_or, ids]

end

mutual

theorem subtree?_eq_some {id : ElementId} {sub : Element α} :
    ∀ {e : Element α}, subtree? id e = some sub →
      sub.body.id = id ∧ ∃ before after, e.toList = before ++ sub.toList ++ after
  | node b es, h => by
    unfold subtree? at h
    split at h
    · next here =>
      obtain rfl := Option.some.inj h
      exact ⟨by simpa using here, [], [], by simp⟩
    · obtain ⟨hid, before, after, eq⟩ := subtreeAmong?_eq_some h
      exact ⟨hid, b :: before, after, by simp [eq]⟩

private theorem subtreeAmong?_eq_some {id : ElementId} {sub : Element α} :
    ∀ {es : List (Element α)}, subtreeAmong? id es = some sub →
      sub.body.id = id ∧ ∃ before after, listAll es = before ++ sub.toList ++ after
  | [], h => by simp [subtreeAmong?] at h
  | e :: es, h => by
    rw [subtreeAmong?, Option.or_eq_some_iff] at h
    rcases h with h | ⟨-, h⟩
    · obtain ⟨hid, before, after, eq⟩ := subtree?_eq_some h
      exact ⟨hid, before, after ++ listAll es, by simp [eq]⟩
    · obtain ⟨hid, before, after, eq⟩ := subtreeAmong?_eq_some h
      exact ⟨hid, e.toList ++ before, after, by simp [eq]⟩

end

theorem subtree?_sublist {id : ElementId} {e sub : Element α} (h : subtree? id e = some sub) :
    sub.toList.Sublist e.toList := by
  obtain ⟨-, before, after, eq⟩ := subtree?_eq_some h
  rw [eq]
  exact (List.sublist_append_right _ _).trans (List.sublist_append_left _ _)

theorem exists_subtree?_of_mem {e : Element α} (nodup : e.ids.Nodup) {b : Body α}
    (hb : b ∈ e.toList) : ∃ sub, subtree? b.id e = some sub ∧ sub.body = b := by
  cases found : subtree? b.id e with
  | none => exact absurd (List.mem_map_of_mem hb) (subtree?_eq_none.mp found)
  | some sub =>
    have here := (subtree?_sublist found).subset (body_mem_toList sub)
    exact ⟨sub, rfl, List.inj_on_of_nodup_map nodup here hb (subtree?_eq_some found).1⟩

theorem find?_of_mem {e : Element α} (nodup : e.ids.Nodup) {b : Body α} (hb : b ∈ e.toList) :
    e.find? b.id = some b := by
  cases found : e.find? b.id with
  | none => simpa using List.find?_eq_none.mp found b hb
  | some c =>
    have same : c.id = b.id := by simpa using List.find?_some found
    have there : c ∈ e.toList := List.mem_of_find?_eq_some found
    rw [List.inj_on_of_nodup_map nodup there hb same]

theorem not_mem_ids_of_outside {e part : Element α} {before after : List (Body α)}
    (nodup : e.ids.Nodup) (split : e.toList = before ++ part.toList ++ after) {b : Body α}
    (outside : b ∈ before ++ after) : b.id ∉ part.ids := by
  intro inside
  rw [ids, split, List.map_append, List.map_append, List.nodup_append, List.nodup_append] at nodup
  obtain ⟨⟨-, -, apart⟩, -, apart'⟩ := nodup
  rcases List.mem_append.mp outside with first | last
  · exact apart _ (List.mem_map_of_mem first) _ inside rfl
  · exact apart' _ (List.mem_append_right _ inside) _ (List.mem_map_of_mem last) rfl

theorem subtreeAmong?_sublist {id : ElementId} {es : List (Element α)} {sub : Element α}
    (h : subtreeAmong? id es = some sub) : sub.toList.Sublist (listAll es) := by
  obtain ⟨-, before, after, eq⟩ := subtreeAmong?_eq_some h
  rw [eq]
  exact (List.sublist_append_right _ _).trans (List.sublist_append_left _ _)

mutual

theorem update?_of_none {id : ElementId} (f : Element α → β × Element α) :
    ∀ {e : Element α}, subtree? id e = none → update? id f e = none
  | node b es, h => by
    unfold subtree? at h
    split at h
    · simp at h
    · next here => simp [update?, here, updateAmong?_of_none f h]

private theorem updateAmong?_of_none {id : ElementId} (f : Element α → β × Element α) :
    ∀ {es : List (Element α)}, subtreeAmong? id es = none → updateAmong? id f es = none
  | [], _ => rfl
  | e :: es, h => by
    obtain ⟨first, others⟩ := Option.or_eq_none_iff.mp h
    simp [updateAmong?, update?_of_none f first, updateAmong?_of_none f others]

end

mutual

theorem update?_of_some {id : ElementId} (f : Element α → β × Element α) {sub : Element α} :
    ∀ {e : Element α}, subtree? id e = some sub →
      ∃ before after e', update? id f e = some ((f sub).1, e') ∧
        e.toList = before ++ sub.toList ++ after ∧
        e'.toList = before ++ (f sub).2.toList ++ after ∧ ((f sub).2 = sub → e' = e)
  | node b es, h => by
    unfold subtree? at h
    split at h
    · next here =>
      obtain rfl := Option.some.inj h
      exact ⟨[], [], (f (node b es)).2, by simp [update?, here], by simp, by simp,
        fun hf => hf⟩
    · next here =>
      obtain ⟨before, after, es', eq, old, new, same⟩ := updateAmong?_of_some f h
      exact ⟨b :: before, after, node b es', by simp [update?, here, eq], by simp [old],
        by simp [new], fun hf => by rw [same hf]⟩

private theorem updateAmong?_of_some {id : ElementId} (f : Element α → β × Element α)
    {sub : Element α} :
    ∀ {es : List (Element α)}, subtreeAmong? id es = some sub →
      ∃ before after es', updateAmong? id f es = some ((f sub).1, es') ∧
        listAll es = before ++ sub.toList ++ after ∧
        listAll es' = before ++ (f sub).2.toList ++ after ∧ ((f sub).2 = sub → es' = es)
  | [], h => by simp [subtreeAmong?] at h
  | e :: es, h => by
    rw [subtreeAmong?, Option.or_eq_some_iff] at h
    rcases h with h | ⟨first, h⟩
    · obtain ⟨before, after, e', eq, old, new, same⟩ := update?_of_some f h
      exact ⟨before, after ++ listAll es, e' :: es, by simp [updateAmong?, eq], by simp [old],
        by simp [new], fun hf => by rw [same hf]⟩
    · obtain ⟨before, after, es', eq, old, new, same⟩ := updateAmong?_of_some f h
      exact ⟨e.toList ++ before, after, e :: es',
        by simp [updateAmong?, update?_of_none f first, eq], by simp [old], by simp [new],
        fun hf => by rw [same hf]⟩

end

end Element

end LayerTree
