import LayerTree.Proofs.Expansion.Descent
import LayerTree.Proofs.Resources.Collected
import Mathlib.Data.List.Perm.Basic

/-!
Expansions whose siblings are put into another order.

Something that some descriptors name and others do not is settled, when the last one that names it
counts, by an element with none below it that names it. Every such element comes last in some order
of the siblings, and every order is that of some descriptor.
-/

set_option autoImplicit false
set_option relaxedAutoImplicit false

namespace LayerTree

open Json (Value)

namespace Record

/-- Two descriptors agree in all fields but those that say what they consist of: the name of a
prototype, and the elements. -/
def SameContent (r r' : Record) : Prop :=
  ∀ name, name ∉ ["element", "elements"] → r.get? name = r'.get? name

theorem SameContent.refl (r : Record) : r.SameContent r := fun _ _ => rfl

section

variable {r r' : Record} {name : String}

theorem SameContent.flag (same : r.SameContent r') (apart : name ∉ ["element", "elements"]) :
    r.flag name = r'.flag name := by
  rw [Record.flag, Record.flag, bool?, bool?, same name apart]

theorem SameContent.text? (same : r.SameContent r') (apart : name ∉ ["element", "elements"]) :
    r.text? name = r'.text? name := by
  rw [Record.text?, Record.text?, same name apart]

theorem SameContent.record? (same : r.SameContent r') (apart : name ∉ ["element", "elements"]) :
    r.record? name = r'.record? name := by
  rw [Record.record?, Record.record?, same name apart]

end

def withElements (r : Record) (elements : List Record) : Record :=
  ⟨("element", .null) :: ("elements", .list (elements.map toValue)) ::
    r.fields.filter fun field => field.1 ∉ ["element", "elements"]⟩

theorem sameContent_withElements (r : Record) (elements : List Record) :
    r.SameContent (r.withElements elements) := by
  intro name apart
  have kept (fields : List (String × Value)) :
      lookup name (fields.filter fun field => field.1 ∉ ["element", "elements"]) =
        lookup name fields := by
    induction fields with
    | nil => rfl
    | cons field rest ih =>
      obtain ⟨key, value⟩ := field
      by_cases shape : key ∈ ["element", "elements"]
      · have other : ¬(key == name) = true := fun same => apart (eq_of_beq same ▸ shape)
        have dropped : ¬decide (key ∉ ["element", "elements"]) = true := fun kept =>
          of_decide_eq_true kept shape
        rw [List.filter_cons, if_neg dropped, ih, lookup, if_neg other]
      · have stays : decide (key ∉ ["element", "elements"]) = true := decide_eq_true shape
        rw [List.filter_cons, if_pos stays, lookup, lookup, ih]
  have element : "element" ≠ name := fun same => apart (by simp [← same])
  have elements : "elements" ≠ name := fun same => apart (by simp [← same])
  simp only [get?, withElements, lookup, beq_iff_eq, if_neg element, if_neg elements, kept]

theorem children_withElements (r : Record) (elements : List Record) :
    (r.withElements elements).children = elements := by
  have values : (elements.map toValue).filterMap ofValue? = elements := by
    rw [List.filterMap_map]
    exact List.filterMap_some
  exact values

end Record

namespace Expansion

variable {β : Type}

theorem infosAll_eq (es : List Expansion) : infosAll es = es.flatMap infos := by
  induction es with
  | nil => rfl
  | cons e es ih => rw [infosAll, ih, List.flatMap_cons]

def ReadsContent (f : Record → β) : Prop :=
  ∀ info info' : Record, info.SameContent info' → f info = f info'

/-- The second expansion is the first one with siblings in another order, at any places. The fields
that say what a descriptor consists of do not matter. -/
inductive Reordered : Expansion → Expansion → Prop
  | siblings {info info' : Record} {es es' : List Expansion} :
      info.SameContent info' → es.Perm es' → Reordered (node info es) (node info' es')
  | inside {info : Record} {before after : List Expansion} {e e' : Expansion} :
      Reordered e e' →
      Reordered (node info (before ++ e :: after)) (node info (before ++ e' :: after))
  | trans {e e' e'' : Expansion} : Reordered e e' → Reordered e' e'' → Reordered e e''

/-- The expansion of a descriptor is the given one, with its siblings in some order. -/
def ReorderedBy (prototype : String → Option Record) (e : Expansion) (depth : Nat)
    (desc : Record) : Prop :=
  ∃ e', within prototype depth desc = some e' ∧ e.Reordered e'

namespace Reordered

theorem refl (e : Expansion) : e.Reordered e := by
  cases e with
  | node info es => exact .siblings (.refl info) (List.Perm.refl es)

theorem each (info : Record) {es es' : List Expansion} (all : List.Forall₂ Reordered es es') :
    ∀ before : List Expansion,
      (node info (before ++ es)).Reordered (node info (before ++ es')) := by
  induction all with
  | nil => exact fun before => .refl _
  | @cons e e' es es' first others ih =>
    intro before
    have here : (node info (before ++ e :: es)).Reordered (node info (before ++ e' :: es)) :=
      .inside first
    have rest := ih (before ++ [e'])
    rw [List.append_assoc, List.append_assoc] at rest
    exact here.trans rest

theorem map_infos_perm {f : Record → β} (reads : ReadsContent f) {e e' : Expansion}
    (reordered : e.Reordered e') : (e.infos.map f).Perm (e'.infos.map f) := by
  induction reordered with
  | siblings same perm =>
    rw [infos, infos, List.map_cons, List.map_cons, reads _ _ same, infosAll_eq, infosAll_eq]
    exact ((perm.flatMap_right infos).map f).cons _
  | inside _ ih =>
    simp only [infos, infosAll_eq, List.flatMap_append, List.flatMap_cons, List.map_cons,
      List.map_append]
    exact ((ih.append_right _).append_left _).cons _
  | trans _ _ first second => exact first.trans second

theorem unnamed {tag? : Record → Option β} (reads : ReadsContent tag?) {e e' : Expansion}
    (reordered : e.Reordered e') :
    (∀ info ∈ e.infos, tag? info = none) ↔ ∀ info ∈ e'.infos, tag? info = none := by
  have tags : (e.infos.map tag?).Perm (e'.infos.map tag?) := reordered.map_infos_perm reads
  have each (infos : List Record) :
      (∀ info ∈ infos, tag? info = none) ↔ ∀ found ∈ infos.map tag?, found = none := by
    rw [List.forall_mem_map]
  rw [each, each]
  exact forall_congr' fun found => by rw [tags.mem_iff]

end Reordered

/-! Descriptors of reordered expansions. -/

private theorem mapM_perm {γ : Type} {f : β → Option γ} {l l' : List β} {ys : List γ}
    (perm : l.Perm l') (found : l.mapM f = some ys) :
    ∃ ys', l'.mapM f = some ys' ∧ ys.Perm ys' := by
  obtain ⟨ys', each, perm'⟩ := List.perm_comp_forall₂ perm.symm (mapM_eq_some.mp found)
  exact ⟨ys', mapM_eq_some.mpr each, perm'.symm⟩

variable {prototype : String → Option Record}

/-- A descriptor with its elements in another order has an expansion with its siblings in that
order. -/
theorem reorderedBy_of_perm {depth : Nat} {desc desc' : Record}
    (same : (merged prototype desc).SameContent (merged prototype desc'))
    (perm : (merged prototype desc).children.Perm (merged prototype desc').children)
    {e : Expansion} (found : within prototype depth desc = some e) :
    e.ReorderedBy prototype depth desc' := by
  cases depth with
  | zero => simp [within] at found
  | succ depth =>
    obtain ⟨es, kids, rfl⟩ := Option.map_eq_some_iff.mp found
    obtain ⟨es', kids', perm'⟩ := mapM_perm perm kids
    refine ⟨node (merged prototype desc') es', ?_, .siblings same perm'⟩
    rw [within, kids']
    rfl

mutual

def toRecord : Expansion → Record
  | node info es => info.withElements (toRecords es)

def toRecords : List Expansion → List Record
  | [] => []
  | e :: es => e.toRecord :: toRecords es

end

theorem merged_withElements (info : Record) (elements : List Record) :
    merged prototype (info.withElements elements) = info.withElements elements := rfl

mutual

theorem exists_within_toRecord (γ : Type) (prototype : String → Option Record) :
    ∀ e : Expansion, ∃ depth e', within prototype depth e.toRecord = some e' ∧ e.Reordered e' ∧
      ∀ f : Record → γ, ReadsContent f → e'.infos.map f = e.infos.map f
  | node info es => by
    obtain ⟨depth, es', kids, all, reads⟩ := exists_mapM_toRecords γ prototype es
    have same := info.sameContent_withElements (toRecords es)
    refine ⟨depth + 1, node (info.withElements (toRecords es)) es', ?_, ?_, fun f content => ?_⟩
    · rw [within, toRecord, merged_withElements, Record.children_withElements, kids]
      rfl
    · exact (Reordered.each info all []).trans (.siblings same (List.Perm.refl es'))
    · rw [infos, infos, List.map_cons, List.map_cons, reads f content, content _ _ same]

private theorem exists_mapM_toRecords (γ : Type) (prototype : String → Option Record) :
    ∀ es : List Expansion, ∃ depth es',
      (toRecords es).mapM (within prototype depth) = some es' ∧ List.Forall₂ Reordered es es' ∧
        ∀ f : Record → γ, ReadsContent f → (infosAll es').map f = (infosAll es).map f
  | [] => ⟨0, [], rfl, .nil, fun _ _ => rfl⟩
  | e :: es => by
    obtain ⟨depth, e', found, reordered, reads⟩ := exists_within_toRecord γ prototype e
    obtain ⟨depth', es', kids, all, reads'⟩ := exists_mapM_toRecords γ prototype es
    have first := within_mono (le_max_left depth depth') found
    have others := mapM_mono (fun _ _ => within_mono (le_max_right depth depth')) kids
    refine ⟨max depth depth', e' :: es', ?_, .cons reordered all, fun f content => ?_⟩
    · rw [toRecords, List.mapM_cons, first, others]
      rfl
    · rw [infosAll, infosAll, List.map_append, List.map_append, reads f content, reads' f content]

end

/-! The last descriptor that names something. -/

variable {tag? : Record → Option β} {tag : β}

def lastOf (tag? : Record → Option β) (infos : List Record) : Option β :=
  (infos.filterMap tag?).getLast?

theorem lastOf_append (infos infos' : List Record) :
    lastOf tag? (infos ++ infos') = (lastOf tag? infos').or (lastOf tag? infos) := by
  rw [lastOf, List.filterMap_append, List.getLast?_append]
  rfl

theorem lastOf_cons (info : Record) (infos : List Record) :
    lastOf tag? (info :: infos) = (lastOf tag? infos).or (tag? info) := by
  have first : lastOf tag? [info] = tag? info := by
    unfold lastOf
    cases found : tag? info with
    | none => simp [found]
    | some tag => simp [found]
  rw [← first, ← lastOf_append, List.singleton_append]

theorem lastOf_congr {infos infos' : List Record} (same : infos.map tag? = infos'.map tag?) :
    lastOf tag? infos = lastOf tag? infos' := by
  have tags (infos : List Record) : infos.filterMap tag? = (infos.map tag?).filterMap id := by
    rw [List.filterMap_map]
    rfl
  rw [lastOf, lastOf, tags, tags, same]

theorem lastOf_eq_none {infos : List Record} :
    lastOf tag? infos = none ↔ ∀ info ∈ infos, tag? info = none := by
  rw [lastOf, List.getLast?_eq_none_iff, List.filterMap_eq_nil_iff]

theorem lastOf_eq_some {infos : List Record} :
    lastOf tag? infos = some tag ↔ ∃ before info after, infos = before ++ info :: after ∧
      tag? info = some tag ∧ ∀ later ∈ after, tag? later = none := by
  induction infos with
  | nil => simp [lastOf]
  | cons first infos ih =>
    rw [lastOf_cons, Option.or_eq_some_iff, ih, lastOf_eq_none]
    constructor
    · rintro (⟨before, info, after, rfl, here, later⟩ | ⟨later, here⟩)
      · exact ⟨first :: before, info, after, rfl, here, later⟩
      · exact ⟨[], first, infos, rfl, here, later⟩
    · rintro ⟨before, info, after, same, here, later⟩
      cases before with
      | nil =>
        obtain ⟨rfl, rfl⟩ := List.cons.inj same
        exact .inr ⟨later, here⟩
      | cons head before =>
        obtain ⟨rfl, rfl⟩ := List.cons.inj same
        exact .inl ⟨before, info, after, rfl, here, later⟩

/-- The tag is named by an element below which no element names any. -/
inductive Lowest (tag? : Record → Option β) (tag : β) : Expansion → Prop
  | here {info : Record} {es : List Expansion} :
      tag? info = some tag → (∀ below ∈ infosAll es, tag? below = none) →
      Lowest tag? tag (node info es)
  | inside {info : Record} {es : List Expansion} {e : Expansion} :
      e ∈ es → Lowest tag? tag e → Lowest tag? tag (node info es)

mutual

theorem lowest_of_last : ∀ {e : Expansion}, lastOf tag? e.infos = some tag → Lowest tag? tag e
  | node info es, last => by
    rw [infos, lastOf_cons, Option.or_eq_some_iff] at last
    rcases last with below | ⟨absent, here⟩
    · obtain ⟨e, mem, lowest⟩ := lowest_of_lastAll below
      exact .inside mem lowest
    · exact .here here (lastOf_eq_none.mp absent)

private theorem lowest_of_lastAll : ∀ {es : List Expansion},
    lastOf tag? (infosAll es) = some tag → ∃ e ∈ es, Lowest tag? tag e
  | [], last => by simp [infosAll, lastOf] at last
  | e :: es, last => by
    rw [infosAll, lastOf_append, Option.or_eq_some_iff] at last
    rcases last with later | ⟨-, here⟩
    · obtain ⟨e', mem, lowest⟩ := lowest_of_lastAll later
      exact ⟨e', List.mem_cons_of_mem e mem, lowest⟩
    · exact ⟨e, List.mem_cons_self, lowest_of_last here⟩

end

namespace Lowest

theorem exists_last {e : Expansion} (lowest : Lowest tag? tag e) :
    ∃ e', e.Reordered e' ∧ lastOf tag? e'.infos = some tag := by
  induction lowest with
  | @here info es named absent =>
    refine ⟨node info es, .refl _, ?_⟩
    rw [infos, lastOf_cons, lastOf_eq_none.mpr absent, named]
    rfl
  | @inside info es e mem lowest ih =>
    obtain ⟨e', reordered, last⟩ := ih
    obtain ⟨before, after, rfl⟩ := List.append_of_mem mem
    -- the changed element goes behind all of its siblings
    have moved : (before ++ e' :: after).Perm ((before ++ after) ++ [e']) :=
      List.perm_middle.trans (List.perm_append_singleton e' (before ++ after)).symm
    refine ⟨node info ((before ++ after) ++ [e']),
      (Reordered.inside reordered).trans (.siblings (.refl info) moved), ?_⟩
    have ending :
        infosAll ((before ++ after) ++ [e']) = infosAll (before ++ after) ++ e'.infos := by
      rw [infosAll_eq, infosAll_eq, List.flatMap_append, List.flatMap_singleton]
    rw [infos, lastOf_cons, ending, lastOf_append, last]
    rfl

theorem exists_within_last (prototype : String → Option Record) (reads : ReadsContent tag?)
    {e : Expansion} (lowest : Lowest tag? tag e) :
    ∃ depth desc e', within prototype depth desc = some e' ∧ e.Reordered e' ∧
      lastOf tag? e'.infos = some tag := by
  obtain ⟨ordered, reordered, last⟩ := lowest.exists_last
  obtain ⟨depth, e', found, dressed, same⟩ :=
    exists_within_toRecord (Option β) prototype ordered
  refine ⟨depth, ordered.toRecord, e', found, reordered.trans dressed, ?_⟩
  rw [lastOf_congr (same tag? reads), last]

theorem of_reordered (reads : ReadsContent tag?) {e e' : Expansion} (reordered : e.Reordered e')
    (lowest : Lowest tag? tag e') : Lowest tag? tag e := by
  induction reordered with
  | @siblings info info' es es' same perm =>
    cases lowest with
    | here named absent =>
      refine .here ((reads info info' same).trans named) fun below mem => absent below ?_
      rw [infosAll_eq] at mem ⊢
      exact (perm.flatMap_right infos).mem_iff.mp mem
    | inside mem lowest => exact .inside (perm.mem_iff.mpr mem) lowest
  | @inside info before after e e' reordered ih =>
    cases lowest with
    | here named absent =>
      rw [infosAll_eq, List.flatMap_append, List.flatMap_cons] at absent
      obtain ⟨absentBefore, others⟩ := List.forall_mem_append.mp absent
      obtain ⟨absentHere, absentAfter⟩ := List.forall_mem_append.mp others
      have unnamed := (reordered.unnamed reads).mpr absentHere
      refine .here named ?_
      rw [infosAll_eq, List.flatMap_append, List.flatMap_cons]
      exact List.forall_mem_append.mpr
        ⟨absentBefore, List.forall_mem_append.mpr ⟨unnamed, absentAfter⟩⟩
    | @inside _ _ f mem lowest =>
      rcases List.mem_append.mp mem with first | rest
      · exact .inside (List.mem_append_left _ first) lowest
      · rcases List.mem_cons.mp rest with rfl | last
        · exact .inside (List.mem_append_right _ List.mem_cons_self) (ih lowest)
        · exact .inside (List.mem_append_right _ (List.mem_cons_of_mem _ last)) lowest
  | trans _ _ first second => exact first (second lowest)

end Lowest

end Expansion

end LayerTree
