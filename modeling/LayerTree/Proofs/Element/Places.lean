import LayerTree.Proofs.Element.Bodies

/-!
The elements of a tree by their places.

A place is the way from the root: which child to take at each level. When no id is there twice, the
element at a place is what is found by its id and what an update by its id replaces.
-/

set_option autoImplicit false
set_option relaxedAutoImplicit false

namespace LayerTree

namespace Element

variable {α β : Type}

/-- The element that a place leads to. -/
def at? : List Nat → Element α → Option (Element α)
  | [], e => some e
  | i :: place, e => e.children[i]?.bind (at? place)

def put (new : Element α) : List Nat → Element α → Element α
  | [], _ => new
  | i :: place, e => node e.body (e.children.modify i (put new place))

theorem toList_sublist_listAll {e : Element α} {es : List (Element α)} (h : e ∈ es) :
    e.toList.Sublist (listAll es) := by
  obtain ⟨before, after, rfl⟩ := List.append_of_mem h
  induction before with
  | nil => exact List.sublist_append_left _ _
  | cons first before ih =>
    have rest : e.toList.Sublist (listAll (before ++ e :: after)) := ih (by simp)
    exact rest.trans (List.sublist_append_right first.toList _)

private theorem mem_toList_of_at? {sub : Element α} {place : List Nat} {e : Element α}
    (h : e.at? place = some sub) : sub.body ∈ e.toList := by
  induction place generalizing e with
  | nil =>
    obtain rfl := Option.some.inj h
    exact body_mem_toList e
  | cons i place ih =>
    obtain ⟨child, here, below⟩ := Option.bind_eq_some_iff.mp h
    have part := toList_sublist_listAll (List.mem_of_getElem? here)
    rw [toList_eq]
    exact List.mem_cons_of_mem _ (part.subset (ih below))

mutual

private theorem exists_at?_of_mem {b : Body α} :
    ∀ {e : Element α}, b ∈ e.toList → ∃ place sub, e.at? place = some sub ∧ sub.body = b
  | node root es, h => by
    rcases List.mem_cons.mp h with rfl | below
    · exact ⟨[], _, rfl, rfl⟩
    · obtain ⟨i, place, sub, there, same⟩ := exists_among_of_mem below
      exact ⟨i :: place, sub, there, same⟩

private theorem exists_among_of_mem {b : Body α} :
    ∀ {es : List (Element α)}, b ∈ listAll es →
      ∃ (i : Nat) (place : List Nat) (sub : Element α),
        es[i]?.bind (at? place) = some sub ∧ sub.body = b
  | [], h => nomatch h
  | e :: es, h => by
    rcases List.mem_append.mp h with first | others
    · obtain ⟨place, sub, there, same⟩ := exists_at?_of_mem first
      exact ⟨0, place, sub, there, same⟩
    · obtain ⟨i, place, sub, there, same⟩ := exists_among_of_mem others
      exact ⟨i + 1, place, sub, there, same⟩

end

theorem mem_toList_iff {b : Body α} {e : Element α} :
    b ∈ e.toList ↔ ∃ place sub, e.at? place = some sub ∧ sub.body = b := by
  constructor
  · exact exists_at?_of_mem
  · rintro ⟨place, sub, there, rfl⟩
    exact mem_toList_of_at? there

private theorem among_of_getElem? {id : ElementId} {sub child : Element α} {a : β}
    {f : Element α → β × Element α} {g : Element α → Element α} {es : List (Element α)} {i : Nat}
    (nodup : ((listAll es).map Body.id).Nodup) (here : es[i]? = some child)
    (found : subtree? id child = some sub) (changed : update? id f child = some (a, g child)) :
    subtreeAmong? id es = some sub ∧ updateAmong? id f es = some (a, es.modify i g) := by
  induction es generalizing i with
  | nil => simp at here
  | cons e es ih =>
    rw [listAll_cons, List.map_append, List.nodup_append] at nodup
    obtain ⟨-, others, apart⟩ := nodup
    cases i with
    | zero =>
      obtain rfl : e = child := by simpa using here
      exact ⟨by simp [subtreeAmong?, found], by simp [updateAmong?, changed]⟩
    | succ i =>
      rw [List.getElem?_cons_succ] at here
      obtain ⟨foundThere, changedThere⟩ := ih others here
      have below : id ∈ (listAll es).map Body.id := by
        obtain ⟨named, -⟩ := subtree?_eq_some found
        have inside := (subtree?_sublist found).subset (body_mem_toList sub)
        have part := toList_sublist_listAll (List.mem_of_getElem? here)
        exact List.mem_map.mpr ⟨sub.body, part.subset inside, named⟩
      have elsewhere : subtree? id e = none :=
        subtree?_eq_none.mpr fun first => apart id first id below rfl
      constructor
      · rw [subtreeAmong?, elsewhere, Option.none_or, foundThere]
      · simp [updateAmong?, update?_of_none f elsewhere, changedThere]

theorem found_at {e : Element α} (nodup : e.ids.Nodup) {place : List Nat} {sub : Element α}
    (there : e.at? place = some sub) (f : Element α → β × Element α) :
    subtree? sub.body.id e = some sub ∧
      update? sub.body.id f e = some ((f sub).1, put (f sub).2 place e) := by
  induction place generalizing e with
  | nil =>
    obtain rfl := Option.some.inj there
    cases e with
    | node b es => simp [subtree?, update?, put]
  | cons i place ih =>
    obtain ⟨child, here, below⟩ := Option.bind_eq_some_iff.mp there
    cases e with
    | node b es =>
      obtain ⟨fresh, among⟩ := List.nodup_cons.mp nodup
      have inside : child.toList.Sublist (listAll es) :=
        toList_sublist_listAll (List.mem_of_getElem? here)
      have nodupChild : child.ids.Nodup := among.sublist (inside.map Body.id)
      obtain ⟨found, changed⟩ := ih nodupChild below
      obtain ⟨foundAmong, changedAmong⟩ := among_of_getElem? among here found changed
      have other : b.id ≠ sub.body.id := by
        intro same
        have deeper := inside.subset (mem_toList_iff.mpr ⟨place, sub, below, rfl⟩)
        exact fresh (same ▸ List.mem_map_of_mem deeper)
      constructor
      · simp [subtree?, other, foundAmong]
      · simp [update?, other, changedAmong, put]

end Element

end LayerTree
