import LayerTree.Proofs.Element.Assembled
import LayerTree.Proofs.Element.Loaded
import LayerTree.Proofs.Element.Places
import LayerTree.Proofs.Expansion.Descent
import LayerTree.Proofs.Layout.Exact

/-!
The shape of a built tree.

A built tree has one element for each descriptor that is reached by merging and going to children,
in the order of the descriptors, and each element sees nothing of the elements above it but the
content size of its parent.
-/

set_option autoImplicit false
set_option relaxedAutoImplicit false

namespace LayerTree

namespace Expansion

theorem within_eq_some {prototype : String → Option Record} {depth : Nat} {desc : Record}
    {e : Expansion} (h : within prototype (depth + 1) desc = some e) :
    ∃ es, e = node (merged prototype desc) es ∧
      List.Forall₂ (fun child e' => within prototype depth child = some e')
        (merged prototype desc).children es := by
  obtain ⟨es, found, rfl⟩ := Option.map_eq_some_iff.mp h
  exact ⟨es, rfl, mapM_eq_some.mp found⟩

end Expansion

namespace Build

variable {σ α : Type} [Scalar α] [Analytic α]

/-- The body is built of a descriptor merged over its prototype, in a container, and laid out in
that container; nothing else about its place in a tree counts. -/
structure Renders (h : Host σ α) (screen : Size α) (k : ScaleFactor α) (container : Size α)
    (desc : Record) (b : Body α) : Prop where
  info : b.info = Expansion.merged h.delegate.prototype desc
  scale : b.scale = k
  built : ∃ s,
    let image := (h.loadField b.info "img").run s
    let mask := (h.loadField b.info "mask").run image.2
    ((body h screen k b.info container b.id).run s).1 = b ∧
      b.box = Layout.box b.info container (natural h b.info image.1 mask.1) k

mutual

/-- The tree has the shape of a descriptor: its root is built of the descriptor, and its children
mirror the children of what that is merged to, in the content size of the root. -/
inductive Mirrors (h : Host σ α) (screen : Size α) (k : ScaleFactor α) :
    Size α → Record → Element α → Prop
  | node {container : Size α} {desc : Record} {b : Body α} {es : List (Element α)} :
      Renders h screen k container desc b →
      MirrorsAll h screen k b.box.contentSize b.info.children es →
      Mirrors h screen k container desc (.node b es)

inductive MirrorsAll (h : Host σ α) (screen : Size α) (k : ScaleFactor α) :
    Size α → List Record → List (Element α) → Prop
  | nil {container : Size α} : MirrorsAll h screen k container [] []
  | cons {container : Size α} {desc : Record} {descs : List Record} {e : Element α}
      {es : List (Element α)} :
      Mirrors h screen k container desc e → MirrorsAll h screen k container descs es →
      MirrorsAll h screen k container (desc :: descs) (e :: es)

end

mutual

theorem Mirrors.renders {h : Host σ α} {screen : Size α} {k : ScaleFactor α} :
    ∀ {container : Size α} {desc : Record} {e : Element α}, Mirrors h screen k container desc e →
      ∀ b ∈ e.toList, ∃ container desc, Renders h screen k container desc b
  | container, desc, _, .node here below => by
    intro b hb
    rcases List.mem_cons.mp hb with rfl | deeper
    · exact ⟨container, desc, here⟩
    · exact below.renders b deeper

private theorem MirrorsAll.renders {h : Host σ α} {screen : Size α} {k : ScaleFactor α} :
    ∀ {container : Size α} {descs : List Record} {es : List (Element α)},
      MirrorsAll h screen k container descs es →
        ∀ b ∈ Element.listAll es, ∃ container desc, Renders h screen k container desc b
  | _, _, _, .nil => by simp
  | _, _, _, .cons first others => by
    intro b hb
    rcases List.mem_append.mp hb with here | there
    · exact first.renders b here
    · exact others.renders b there

end

theorem body_renders (h : Host σ α) (screen : Size α) (k : ScaleFactor α) (desc : Record)
    (container : Size α) (id : ElementId) :
    Returns (Renders h screen k container desc)
      (body h screen k (Expansion.merged h.delegate.prototype desc) container id) := by
  intro s
  exact ⟨rfl, rfl, s, rfl, rfl⟩

private theorem trees_mirror {h : Host σ α} {screen : Size α} {k : ScaleFactor α}
    {descs : List Record} {es : List Expansion}
    (each : List.Forall₂ (fun desc e => ∀ container id,
      Returns (fun built => Mirrors h screen k container desc built.1)
        (tree h screen k e container id)) descs es) (container : Size α) :
    ∀ id, Returns (fun built => MirrorsAll h screen k container descs built.1)
      (trees h screen k es container id) := by
  induction each with
  | nil => exact fun _ => .pure .nil
  | cons first _ ih =>
    intro id
    unfold trees
    refine .bind (first container id) fun built here => ?_
    refine .bind (ih built.2) fun others there => ?_
    exact .pure (.cons here there)

/-- The tree of an expansion mirrors the descriptor that is expanded. -/
theorem tree_mirrors (h : Host σ α) (screen : Size α) (k : ScaleFactor α) {depth : Nat} :
    ∀ {desc : Record} {e : Expansion}, Expansion.within h.delegate.prototype depth desc = some e →
      ∀ container id, Returns (fun built => Mirrors h screen k container desc built.1)
        (tree h screen k e container id) := by
  induction depth with
  | zero =>
    intro desc e found
    exact nomatch found
  | succ depth ih =>
    intro desc e found container id
    obtain ⟨es, rfl, below⟩ := Expansion.within_eq_some found
    unfold tree
    refine .bind (body_renders h screen k desc container id) fun root here => ?_
    have kids := trees_mirror (below.imp fun _ _ expands => ih expands) root.box.contentSize
    refine .bind (kids (id + 1)) fun built there => ?_
    rw [← here.info] at there
    exact .pure (.node here there)

end Build

namespace Element

variable {σ α : Type} [Scalar α] [Analytic α]

theorem mirrors_of_loadWithin {h : Host σ α} {depth : Nat} {desc : Record} {dimension : Size α}
    {k : ScaleFactor α} {first : ElementId} {s : σ} {root : Element α}
    (loaded : ((loadWithin depth h desc dimension k first).run s).1 = some root) :
    Build.Mirrors h dimension k dimension desc root := by
  obtain ⟨expansion, found, rfl⟩ := exists_of_loadWithin loaded
  exact Build.tree_mirrors h dimension k found dimension first s

/-- A loaded tree mirrors its descriptor. The ids are counted from the first one, a parent before
its children and these in order, so every element is found by its id and is what an update by its
id changes. A child sees of its parent only the content size; in exact numbers that depends on the
size fields of the parent and not on where the parent stands. -/
theorem loadWithin_mirrors (h : Host σ α) {depth : Nat} {desc : Record} {dimension : Size α}
    {k : ScaleFactor α} {first : ElementId} {s : σ} {root : Element α}
    (loaded : ((loadWithin depth h desc dimension k first).run s).1 = some root) :
    Build.Mirrors h dimension k dimension desc root ∧
    root.ids = List.range' first root.size ∧
    (∀ place e, root.at? place = some e →
      root.find? e.body.id = some e.body ∧ root.subtree? e.body.id = some e ∧
        ∀ (β : Type) (f : Element α → β × Element α),
          root.update? e.body.id f = some ((f e).1, put (f e).2 place root)) ∧
    ∀ (info moved : Record) (container : Size Rat) (natural : Option (Size Rat))
      (k : ScaleFactor Rat), moved.get? "w" = info.get? "w" → moved.get? "h" = info.get? "h" →
      (Layout.box moved container natural k).contentSize =
        (Layout.box info container natural k).contentSize := by
  have nodup : root.ids.Nodup := Loaded.nodup_ids ⟨σ, h, depth, desc, _, k, first, s, loaded⟩
  refine ⟨mirrors_of_loadWithin loaded, (counted_of_loadWithin loaded).1, ?_, ?_⟩
  · intro place e there
    have inside : e.body ∈ root.toList := mem_toList_iff.mpr ⟨place, e, there, rfl⟩
    refine ⟨find?_of_mem nodup inside, ?_, ?_⟩
    · exact (found_at nodup there fun e => ((), e)).1
    · exact fun β f => (found_at nodup there f).2
  · intro info moved container natural k sameWidth sameHeight
    rw [Layout.contentSize_box, Layout.contentSize_box, sameWidth, sameHeight]

def doubleFilm : Record := .film "a.mp4" [.film "b.mp4" [], .strip "c.png"]

theorem loadWithin_mirrors_film : ∃ root e,
    ((loadWithin 3 Host.screening doubleFilm ⟨640, 480⟩ ⟨1, 1⟩ 5).run ()).1 = some root ∧
    Build.Mirrors Host.screening ⟨640, 480⟩ ⟨1, 1⟩ ⟨640, 480⟩ doubleFilm root ∧
    root.ids = [5, 6, 7] ∧ root.at? [1] = some e ∧ e.body.id = 7 ∧
    root.find? 7 = some e.body ∧ root.subtree? 7 = some e := by
  have loads : (((loadWithin 3 Host.screening doubleFilm ⟨640, 480⟩ ⟨1, 1⟩ 5).run ()).1.any
      fun root => root.size == 3 && (root.at? [1]).any fun e => e.body.id == 7) = true := by
    decide +kernel
  obtain ⟨root, loaded, here⟩ := (Option.any_eq_true _ _).mp loads
  obtain ⟨size, there⟩ := Bool.and_eq_true_iff.mp here
  obtain ⟨e, place, named⟩ := (Option.any_eq_true _ _).mp there
  obtain ⟨mirrors, counted, found, -⟩ := loadWithin_mirrors Host.screening loaded
  obtain ⟨body, subtree, -⟩ := found [1] e place
  have three : root.size = 3 := by simpa using size
  have seven : e.body.id = 7 := by simpa using named
  rw [three] at counted
  rw [seven] at body subtree
  exact ⟨root, e, loaded, mirrors, counted, place, seven, body, subtree⟩

end Element

end LayerTree
