import LayerTree.Delegate.Table
import LayerTree.Element.Build
import LayerTree.Proofs.Element.Bodies
import LayerTree.Proofs.Expansion.Descent
import Mathlib.Data.List.Range

/-!
What holds of every tree that is loaded, whatever the host answers.

Ids are counted in the order of `Element.toList`, so no two elements share one, and each body is
fresh: nothing was asked of its player, and its clock has shown nothing.
-/

set_option autoImplicit false
set_option relaxedAutoImplicit false

namespace LayerTree

/-- A computation answers something with a property, whatever state it starts in. -/
def Returns {σ β : Type} (P : β → Prop) (x : StateM σ β) : Prop := ∀ s, P (x.run s).1

namespace Returns

variable {σ β γ : Type} {P : β → Prop} {Q : γ → Prop}

theorem pure {a : β} (h : P a) : Returns P (Pure.pure a : StateM σ β) := fun _ => h

theorem bind {x : StateM σ β} {f : β → StateM σ γ} (hx : Returns P x)
    (hf : ∀ a, P a → Returns Q (f a)) : Returns Q (x >>= f) :=
  fun s => hf _ (hx s) _

theorem trivial (x : StateM σ β) : Returns (fun _ => True) x := fun _ => True.intro

end Returns

/-- A body that was just built: no seek was asked for, no video plays or is over, and a clock steps
through the sprite of the body's own layers. -/
structure Body.Fresh {α : Type} [Scalar α] (b : Body α) : Prop where
  seek : b.seek = SeekState.initial
  video : ∀ video, b.video = some video → video.playing = false ∧ video.needsRewind = false
  sprite : ∃ repeatCount, b.sprite = Build.spriteClock? b.layers repeatCount

namespace Build

variable {σ α : Type} [Scalar α]

theorem video?_returns (h : Host σ α) (info : Record) (bounds : Rect α) (fill : Bool) :
    Returns (fun opened => ∀ layer surface, opened = some (layer, surface) →
      surface.playing = false ∧ surface.needsRewind = false) (video? h info bounds fill) := by
  unfold video?
  split
  · exact .pure nofun
  · next source stream _ =>
    refine .bind (.trivial _) fun url _ => ?_
    split
    · exact .pure nofun
    · next url =>
      refine .bind (.trivial _) fun opened _ => ?_
      split
      · refine .pure fun layer surface same => ?_
        obtain ⟨rfl, rfl⟩ := Prod.mk.inj (Option.some.inj same)
        exact ⟨rfl, rfl⟩
      · exact .pure nofun

theorem primary_returns (h : Host σ α) (info : Record) (image : Option (ResourceUrl × ImageInfo))
    (path : Option (Outline α)) (box : Box α) (k : ScaleFactor α) :
    Returns (fun content => ∀ surface, content.2 = some surface →
      surface.playing = false ∧ surface.needsRewind = false) (primary h info image path box k) := by
  unfold primary
  split
  · exact .pure nofun
  · refine .bind (.trivial _) fun sprite _ => ?_
    split
    · exact .pure nofun
    · split
      · exact .pure nofun
      · refine .bind (video?_returns h info box.bounds box.fill) fun opened hopened => ?_
        split
        · next layer surface =>
          refine .pure fun other same => ?_
          obtain rfl := Option.some.inj same
          exact hopened layer surface rfl
        · exact .pure nofun

variable [Analytic α]

theorem body_returns (h : Host σ α) (screen : Size α) (k : ScaleFactor α) (info : Record)
    (container : Size α) (id : ElementId) :
    Returns (fun b => b.id = id ∧ b.info = info ∧ b.Fresh)
      (body h screen k info container id) := by
  unfold body
  refine .bind (.trivial _) fun image _ => .bind (.trivial _) fun mask _ => ?_
  refine .bind (primary_returns h info image _ _ k) fun content hcontent => ?_
  refine .bind (.trivial _) fun text _ => .bind (.trivial _) fun richText _ => ?_
  refine .bind (.trivial _) fun frames _ => ?_
  exact .pure ⟨rfl, rfl, rfl, hcontent, _, rfl⟩

mutual

/-- The ids of a built tree are counted from the first that is free; the count goes on with the
first that is free afterwards. -/
theorem tree_returns (h : Host σ α) (screen : Size α) (k : ScaleFactor α) :
    ∀ (e : Expansion) (container : Size α) (id : ElementId),
      Returns (fun built : Element α × ElementId =>
        built.1.ids = List.range' id built.1.size ∧ built.2 = id + built.1.size ∧
          ∀ b ∈ built.1.toList, b.Fresh) (tree h screen k e container id)
  | .node info es, container, id => by
    unfold tree
    refine .bind (body_returns h screen k info container id) fun root hroot => ?_
    refine .bind (trees_returns h screen k es root.box.contentSize (id + 1)) fun kids hkids => ?_
    obtain ⟨hids, hnext, hfresh⟩ := hkids
    refine .pure ⟨?_, ?_, ?_⟩
    · simp only [Element.ids, Element.size, Element.toList_node, List.map_cons, hroot.1, hids,
        List.length_cons, List.range'_succ]
    · simp only [hnext, Element.size, Element.toList_node, List.length_cons]
      exact Nat.add_right_comm id 1 _
    · intro b hb
      rcases List.mem_cons.mp hb with rfl | below
      · exact hroot.2.2
      · exact hfresh b below

private theorem trees_returns (h : Host σ α) (screen : Size α) (k : ScaleFactor α) :
    ∀ (es : List Expansion) (container : Size α) (id : ElementId),
      Returns (fun built : List (Element α) × ElementId =>
        (Element.listAll built.1).map Body.id = List.range' id (Element.listAll built.1).length ∧
          built.2 = id + (Element.listAll built.1).length ∧
          ∀ b ∈ Element.listAll built.1, b.Fresh)
        (trees h screen k es container id)
  | [], container, id => .pure (by simp)
  | e :: es, container, id => by
    unfold trees
    refine .bind (tree_returns h screen k e container id) fun first hfirst => ?_
    obtain ⟨hids, hnext, hfresh⟩ := hfirst
    refine .bind (trees_returns h screen k es container first.2) fun others hothers => ?_
    obtain ⟨hids', hnext', hfresh'⟩ := hothers
    refine .pure ⟨?_, ?_, ?_⟩
    · rw [Element.listAll_cons, List.map_append, hids', hnext, ← Element.ids, hids,
        List.length_append, ← Element.size, List.range'_append_1]
    · simp only [hnext', hnext, Element.listAll_cons, List.length_append, Element.size]
      exact Nat.add_assoc id _ _
    · intro b hb
      rcases List.mem_append.mp hb with here | there
      · exact hfresh b here
      · exact hfresh' b there

end

end Build

namespace Element

variable {α : Type} [Scalar α] [Analytic α]

/-- The tree is what some host gets for some descriptor, whichever trees it got before. -/
def Loaded (root : Element α) : Prop :=
  ∃ (σ : Type) (h : Host σ α) (depth : Nat) (desc : Record) (dimension : Size α)
    (k : ScaleFactor α) (first : ElementId) (s : σ),
    ((loadWithin depth h desc dimension k first).run s).1 = some root

theorem load_eq_loadWithin {σ : Type} (h : Host σ α) (desc : Record) (dimension : Size α)
    (k : ScaleFactor α) :
    load h desc dimension k = loadWithin Expansion.levelLimit h desc dimension k 0 := by
  rw [load, loadWithin, Expansion.ofDescriptor?_eq]

theorem exists_of_loadWithin {σ : Type} {depth : Nat} {h : Host σ α} {desc : Record}
    {dimension : Size α} {k : ScaleFactor α} {first : ElementId} {s : σ} {root : Element α}
    (loaded : ((loadWithin depth h desc dimension k first).run s).1 = some root) :
    ∃ expansion, Expansion.within h.delegate.prototype depth desc = some expansion ∧
      ((Build.tree h dimension k expansion dimension first).run s).1.1 = root := by
  unfold loadWithin at loaded
  cases found : Expansion.within h.delegate.prototype depth desc with
  | none => simp [found] at loaded
  | some expansion =>
    rw [found] at loaded
    exact ⟨expansion, rfl, Option.some.inj loaded⟩

theorem counted_of_loadWithin {σ : Type} {depth : Nat} {h : Host σ α} {desc : Record}
    {dimension : Size α} {k : ScaleFactor α} {first : ElementId} {s : σ} {root : Element α}
    (loaded : ((loadWithin depth h desc dimension k first).run s).1 = some root) :
    root.ids = List.range' first root.size ∧ ∀ b ∈ root.toList, b.Fresh := by
  obtain ⟨expansion, -, rfl⟩ := exists_of_loadWithin loaded
  obtain ⟨ids, -, fresh⟩ := Build.tree_returns h dimension k expansion dimension first s
  exact ⟨ids, fresh⟩

theorem Loaded.ids_eq {root : Element α} (h : root.Loaded) :
    ∃ first, root.ids = List.range' first root.size := by
  obtain ⟨σ, host, depth, desc, dimension, k, first, s, loaded⟩ := h
  exact ⟨first, (counted_of_loadWithin loaded).1⟩

theorem Loaded.nodup_ids {root : Element α} (h : root.Loaded) : root.ids.Nodup := by
  obtain ⟨first, eq⟩ := h.ids_eq
  rw [eq]
  exact List.nodup_range'

theorem Loaded.fresh {root : Element α} (h : root.Loaded) {b : Body α} (hb : b ∈ root.toList) :
    b.Fresh := by
  obtain ⟨σ, host, depth, desc, dimension, k, first, s, loaded⟩ := h
  exact (counted_of_loadWithin loaded).2 b hb

theorem Loaded.seek_eq {root : Element α} (h : root.Loaded) {b : Body α} (hb : b ∈ root.toList) :
    b.seek = SeekState.initial :=
  (h.fresh hb).seek

end Element

/-! Small trees to look at. -/

/-- A host that opens every video, and has nothing else. -/
def Host.screening : Host Unit Float where
  delegate := DelegateTable.empty.toDelegate
  media :=
    { probeImage := fun url => pure (.error (.missingResource url.text))
      openVideo := fun _ _ => pure (.ok ())
      measureText := fun _ _ _ => pure 0 }

def Host.projecting : Host Unit Float :=
  { Host.screening with
    media := { Host.screening.media with probeImage := fun _ => pure (.ok ⟨400, 100, 1⟩) } }

namespace Element

def screened (desc : Record) : Option (Element Float) :=
  ((load Host.screening desc ⟨640, 480⟩ ⟨1, 1⟩).run ()).1

def projected (desc : Record) : Option (Element Float) :=
  ((load Host.projecting desc ⟨640, 480⟩ ⟨1, 1⟩).run ()).1

private theorem exists_loaded {h : Host Unit Float} {desc : Record} {p : Element Float → Bool}
    (holds : ((load h desc ⟨640, 480⟩ ⟨1, 1⟩).run ()).1.any p = true) :
    ∃ root, Loaded root ∧ p root = true := by
  obtain ⟨root, eq, here⟩ := (Option.any_eq_true _ _).mp holds
  rw [load_eq_loadWithin] at eq
  exact ⟨root, ⟨Unit, h, _, desc, ⟨640, 480⟩, ⟨1, 1⟩, 0, (), eq⟩, here⟩

theorem exists_loaded_of_screened {desc : Record} {p : Element Float → Bool}
    (h : (screened desc).any p = true) : ∃ root, Loaded root ∧ p root = true :=
  exists_loaded h

theorem exists_loaded_of_projected {desc : Record} {p : Element Float → Bool}
    (h : (projected desc).any p = true) : ∃ root, Loaded root ∧ p root = true :=
  exists_loaded h

end Element

def Record.film (url : String) (onIt : List Record) : Record :=
  ⟨[("video", .text url), ("elements", .list (onIt.map Record.toValue))]⟩

def Record.strip (url : String) : Record :=
  ⟨[("sprite", .text url), ("slice", .list [.number (.integer 4), .number (.integer 1)]),
    ("loop", .record [("style", .text "sprite")])]⟩

end LayerTree
