import LayerTree.Proofs.Element.Bodies

/-!
What is left of a tree when elements are dropped from it.

Bodies may change under their ids and children may be dropped, but no element moves: an element that
is left is below the same elements as before, as far as these are left too.
-/

set_option autoImplicit false
set_option relaxedAutoImplicit false

namespace LayerTree

namespace Element

variable {α β ε : Type}

mutual

/-- A tree is what is left of another one. -/
inductive Prunes : Element α → Element α → Prop
  | node {b b' : Body α} {es es' : List (Element α)} :
      b'.id = b.id → PrunesAll es' es → Prunes (node b' es') (node b es)

inductive PrunesAll : List (Element α) → List (Element α) → Prop
  | dropped {es : List (Element α)} : PrunesAll [] es
  | cons {e e' : Element α} {es es' : List (Element α)} :
      Prunes e' e → PrunesAll es' es → PrunesAll (e' :: es') (e :: es)

end

namespace Prunes

mutual

theorem refl : ∀ e : Element α, Prunes e e
  | .node _ es => .node rfl (reflAll es)

private theorem reflAll : ∀ es : List (Element α), PrunesAll es es
  | [] => .dropped
  | e :: es => .cons (refl e) (reflAll es)

end

mutual

theorem trans : ∀ {e e' e'' : Element α}, Prunes e'' e' → Prunes e' e → Prunes e'' e
  | _, _, _, .node id' below', .node id below =>
    .node (id'.trans id) (transAll below' below)

private theorem transAll : ∀ {es es' es'' : List (Element α)}, PrunesAll es'' es' →
    PrunesAll es' es → PrunesAll es'' es
  | _, _, _, .dropped, _ => .dropped
  | _, _, _, .cons first' others', .cons first others =>
    .cons (trans first' first) (transAll others' others)

end

mutual

theorem map {f : Body α → Body α} (id : ∀ b, (f b).id = b.id) :
    ∀ e : Element α, Prunes (e.map f) e
  | .node b es => .node (id b) (mapAll id es)

private theorem mapAll {f : Body α → Body α} (id : ∀ b, (f b).id = b.id) :
    ∀ es : List (Element α), PrunesAll (Element.mapAll f es) es
  | [] => .dropped
  | e :: es => .cons (map id e) (mapAll id es)

end

mutual

theorem sweep {f : Body α → List ε × Body α} (id : ∀ b, (f b).2.id = b.id) :
    ∀ e : Element α, Prunes (e.sweep f).2 e
  | .node b es => .node (id b) (sweepAll id es)

private theorem sweepAll {f : Body α → List ε × Body α} (id : ∀ b, (f b).2.id = b.id) :
    ∀ es : List (Element α), PrunesAll (Element.sweepAll f es).2 es
  | [] => .dropped
  | e :: es => .cons (sweep id e) (sweepAll id es)

end

theorem root {b b' : Body α} (id : b'.id = b.id) (es : List (Element α)) :
    Prunes (Element.node b' es) (Element.node b es) :=
  .node id (reflAll es)

mutual

theorem update? {id : ElementId} {f : Element α → β × Element α}
    (prunes : ∀ sub, Prunes (f sub).2 sub) :
    ∀ {e : Element α} {answer : β × Element α}, Element.update? id f e = some answer →
      Prunes answer.2 e
  | .node b es, answer, h => by
    unfold Element.update? at h
    split at h
    · obtain rfl := Option.some.inj h
      exact prunes _
    · obtain ⟨below, found, rfl⟩ := Option.map_eq_some_iff.mp h
      exact .node rfl (updateAmong? prunes found)

private theorem updateAmong? {id : ElementId} {f : Element α → β × Element α}
    (prunes : ∀ sub, Prunes (f sub).2 sub) :
    ∀ {es : List (Element α)} {answer : β × List (Element α)},
      Element.updateAmong? id f es = some answer → PrunesAll answer.2 es
  | [], answer, h => by simp [Element.updateAmong?] at h
  | e :: es, answer, h => by
    unfold Element.updateAmong? at h
    split at h
    · next here =>
      obtain rfl := Option.some.inj h
      exact .cons (update? prunes here) (reflAll es)
    · obtain ⟨others, found, rfl⟩ := Option.map_eq_some_iff.mp h
      exact .cons (refl e) (updateAmong? prunes found)

end

theorem body_id : ∀ {e e' : Element α}, Prunes e' e → e'.body.id = e.body.id
  | _, _, .node id _ => id

mutual

theorem ids_sublist : ∀ {e e' : Element α}, Prunes e' e → e'.ids.Sublist e.ids
  | .node b es, .node b' es', .node id below => by
    simp only [ids, toList_node, List.map_cons, id]
    exact (idsAll_sublist below).cons_cons b.id

private theorem idsAll_sublist : ∀ {es es' : List (Element α)}, PrunesAll es' es →
    ((listAll es').map Body.id).Sublist ((listAll es).map Body.id)
  | _, _, .dropped => List.nil_sublist _
  | e :: es, e' :: es', .cons first others => by
    simp only [listAll_cons, List.map_append]
    exact (ids_sublist first).append (idsAll_sublist others)

end

theorem nodup {e e' : Element α} (h : Prunes e' e) (nodup : e.ids.Nodup) : e'.ids.Nodup :=
  h.ids_sublist.nodup nodup

mutual

theorem exists_subtree? {x y : ElementId} {sub : Element α} :
    ∀ {e e' : Element α}, Prunes e' e → e.ids.Nodup → Element.subtree? x e = some sub →
      y ∈ sub.ids → y ∈ e'.ids → ∃ sub', Element.subtree? x e' = some sub' ∧ y ∈ sub'.ids
  | .node b es, .node b' es', .node id below, nodup, found, inside, left => by
    unfold Element.subtree? at found
    split at found
    · next here =>
      exact ⟨Element.node b' es', by simp [Element.subtree?, id, here], left⟩
    · next elsewhere =>
      simp only [ids, toList_node, List.map_cons, List.nodup_cons, List.mem_cons] at nodup left
      -- the root is not in the subtree, as no id is there twice
      have part := subtreeAmong?_sublist found
      have other : y ≠ b'.id := fun same =>
        nodup.1 (id ▸ same ▸ (part.map Body.id).subset inside)
      obtain ⟨sub', found', inside'⟩ :=
        exists_subtreeAmong? below nodup.2 found inside (left.resolve_left other)
      exact ⟨sub', by simpa [Element.subtree?, id, elsewhere] using found', inside'⟩

private theorem exists_subtreeAmong? {x y : ElementId} {sub : Element α} :
    ∀ {es es' : List (Element α)}, PrunesAll es' es → ((listAll es).map Body.id).Nodup →
      Element.subtreeAmong? x es = some sub → y ∈ sub.ids → y ∈ (listAll es').map Body.id →
      ∃ sub', Element.subtreeAmong? x es' = some sub' ∧ y ∈ sub'.ids
  | _, [], .dropped, _, _, _, left => by simp at left
  | e :: es, e' :: es', .cons first others, nodup, found, inside, left => by
    rw [listAll_cons, List.map_append, List.nodup_append] at nodup
    obtain ⟨nodup, nodup', apart⟩ := nodup
    rw [listAll_cons, List.map_append, List.mem_append] at left
    rw [Element.subtreeAmong?, Option.or_eq_some_iff] at found
    rcases found with here | ⟨absent, there⟩
    · have mem : y ∈ e.ids := ((subtree?_sublist here).map Body.id).subset inside
      have left' : y ∈ e'.ids := left.resolve_right fun later =>
        apart _ mem _ ((idsAll_sublist others).subset later) rfl
      obtain ⟨sub', found', inside'⟩ := exists_subtree? first nodup here inside left'
      exact ⟨sub', by simp [Element.subtreeAmong?, found'], inside'⟩
    · have mem : y ∈ (listAll es).map Body.id :=
        ((subtreeAmong?_sublist there).map Body.id).subset inside
      have left' : y ∈ (listAll es').map Body.id := left.resolve_left fun earlier =>
        apart _ ((ids_sublist first).subset earlier) _ mem rfl
      obtain ⟨sub', found', inside'⟩ :=
        exists_subtreeAmong? others nodup' there inside left'
      have absent' : Element.subtree? x e' = none :=
        subtree?_eq_none.mpr fun earlier =>
          subtree?_eq_none.mp absent ((ids_sublist first).subset earlier)
      exact ⟨sub', by simp [Element.subtreeAmong?, absent', found'], inside'⟩

end

end Prunes

end Element

end LayerTree
