import LayerTree.Expansion
import LayerTree.Proofs.Record.Merging
import Mathlib.Data.Fintype.EquivFin
import Mathlib.Data.List.Forall2
import Mathlib.Logic.Relation
import Mathlib.Order.WellFounded

/-!
Which descriptors have an expansion.

A descent goes from a descriptor to a child of what it is merged to. An expansion exists exactly
when no descent goes on forever. As descents from one descriptor only ever reach finitely many
others, that is the case exactly when none of these is reached again below itself. So nothing is
lost by leaving a way that comes back to where it was.
-/

set_option autoImplicit false
set_option relaxedAutoImplicit false

namespace LayerTree

open Relation

namespace Expansion

variable {prototype : String → Option Record}

/-- One descriptor is a child of another one once that is merged over its prototype. -/
def Descends (prototype : String → Option Record) (desc child : Record) : Prop :=
  child ∈ (merged prototype desc).children

/-- Some descent from the descriptor goes on forever. -/
def Endless (prototype : String → Option Record) (desc : Record) : Prop :=
  ∃ chain : ℕ → Record, chain 0 = desc ∧ ∀ n, Descends prototype (chain n) (chain (n + 1))

/-- Some descent from the descriptor comes back to where it has been. -/
def Recurs (prototype : String → Option Record) (desc : Record) : Prop :=
  ∃ d, ReflTransGen (Descends prototype) desc d ∧ TransGen (Descends prototype) d d

private theorem isSome_mapM {β γ : Type} {f : β → Option γ} :
    ∀ {l : List β}, (l.mapM f).isSome = true ↔ ∀ x ∈ l, (f x).isSome = true
  | [] => by simp
  | x :: l => by
    rw [List.forall_mem_cons, ← isSome_mapM (l := l), List.mapM_cons]
    cases f x with
    | none => simp
    | some y => cases l.mapM f <;> simp

theorem mapM_eq_some {β γ : Type} {f : β → Option γ} {l : List β} {ys : List γ} :
    l.mapM f = some ys ↔ List.Forall₂ (fun x y => f x = some y) l ys := by
  induction l generalizing ys with
  | nil =>
    rw [List.forall₂_nil_left_iff, List.mapM_nil]
    exact ⟨fun h => (Option.some.inj h).symm, fun h => congrArg some h.symm⟩
  | cons x l ih =>
    rw [List.mapM_cons, List.forall₂_cons_left_iff]
    constructor
    · intro h
      obtain ⟨y, first, h⟩ := Option.bind_eq_some_iff.mp h
      obtain ⟨rest, others, h⟩ := Option.bind_eq_some_iff.mp h
      exact ⟨y, rest, first, ih.mp others, (Option.some.inj h).symm⟩
    · rintro ⟨y, rest, first, others, rfl⟩
      rw [first, ih.mpr others]
      rfl

theorem mapM_mono {β γ : Type} {f g : β → Option γ} (le : ∀ x y, f x = some y → g x = some y)
    {l : List β} {ys : List γ} (h : l.mapM f = some ys) : l.mapM g = some ys := by
  rw [mapM_eq_some] at h ⊢
  exact h.imp le

theorem isSome_within_succ {depth : Nat} {desc : Record} :
    (within prototype (depth + 1) desc).isSome = true ↔
      ∀ child, Descends prototype desc child → (within prototype depth child).isSome = true := by
  rw [within, Option.isSome_map, isSome_mapM]
  rfl

theorem within_mono : ∀ {depth more : Nat} {desc : Record} {e : Expansion}, depth ≤ more →
    within prototype depth desc = some e → within prototype more desc = some e
  | 0, _, _, _, _, h => nomatch h
  | depth + 1, 0, _, _, le, _ => absurd le (by simp)
  | depth + 1, more + 1, desc, e, le, h => by
    rw [within] at h ⊢
    obtain ⟨kids, hkids, rfl⟩ := Option.map_eq_some_iff.mp h
    rw [mapM_mono (fun _ _ => within_mono (Nat.le_of_succ_le_succ le)) hkids]
    rfl

theorem isSome_within_mono {depth more : Nat} {desc : Record} (le : depth ≤ more)
    (h : (within prototype depth desc).isSome = true) :
    (within prototype more desc).isSome = true := by
  obtain ⟨e, found⟩ := Option.isSome_iff_exists.mp h
  exact Option.isSome_iff_exists.mpr ⟨e, within_mono le found⟩

private theorem exists_common_depth : ∀ {descs : List Record},
    (∀ d ∈ descs, ∃ depth, (within prototype depth d).isSome = true) →
    ∃ depth, ∀ d ∈ descs, (within prototype depth d).isSome = true
  | [], _ => ⟨0, nofun⟩
  | d :: descs, each => by
    obtain ⟨⟨first, hfirst⟩, others⟩ := List.forall_mem_cons.mp each
    obtain ⟨rest, hrest⟩ := exists_common_depth others
    refine ⟨max first rest, List.forall_mem_cons.mpr ⟨?_, fun d hd => ?_⟩⟩
    · exact isSome_within_mono (Nat.le_max_left _ _) hfirst
    · exact isSome_within_mono (Nat.le_max_right _ _) (hrest d hd)

/-- An expansion exists exactly when no descent goes on forever. -/
theorem exists_isSome_within_iff_acc {desc : Record} :
    (∃ depth, (within prototype depth desc).isSome = true) ↔
      Acc (fun child desc => Descends prototype desc child) desc := by
  constructor
  · rintro ⟨depth, found⟩
    induction depth generalizing desc with
    | zero => simp [within] at found
    | succ depth ih => exact ⟨_, fun child down => ih (isSome_within_succ.mp found child down)⟩
  · intro acc
    induction acc with
    | intro desc _ ih =>
      obtain ⟨depth, all⟩ := exists_common_depth ih
      exact ⟨depth + 1, isSome_within_succ.mpr all⟩

theorem acc_iff_not_endless {desc : Record} :
    Acc (fun child desc => Descends prototype desc child) desc ↔ ¬Endless prototype desc := by
  rw [acc_iff_isEmpty_descending_chain, isEmpty_subtype]
  exact ⟨fun never ⟨chain, here, down⟩ => never chain ⟨here, down⟩,
    fun never chain h => never ⟨chain, h⟩⟩

private theorem not_rel_self_of_acc {β : Type} {r : β → β → Prop} {x : β} (acc : Acc r x) :
    ¬r x x := by
  induction acc with
  | intro x _ ih => exact fun again => ih x again again

theorem not_acc_of_recurs {desc : Record} (h : Recurs prototype desc) :
    ¬Acc (fun child desc => Descends prototype desc child) desc := by
  obtain ⟨d, reached, again⟩ := h
  intro acc
  have below : Acc (fun child desc => Descends prototype desc child) d := by
    clear again
    induction reached with
    | refl => exact acc
    | tail _ down ih => exact ih.inv down
  exact not_rel_self_of_acc below.transGen (transGen_swap.mpr again)

private theorem mapM_congr {β γ : Type} {f g : β → Option γ} :
    ∀ {l : List β}, (∀ x ∈ l, f x = g x) → l.mapM f = l.mapM g
  | [], _ => rfl
  | x :: l, same => by
    obtain ⟨first, others⟩ := List.forall_mem_cons.mp same
    rw [List.mapM_cons, List.mapM_cons, first, mapM_congr others]

/-- It makes no difference to leave a way that has come back to where it was. -/
theorem beneath_eq_within : ∀ {depth : Nat} {above : List Record} {desc : Record},
    (∀ d ∈ above, TransGen (Descends prototype) d desc) →
    beneath prototype depth above desc = within prototype depth desc
  | 0, _, _, _ => rfl
  | depth + 1, above, desc, led => by
    rw [beneath, within]
    split
    · next again =>
      cases found : within prototype (depth + 1) desc with
      | none => exact found.symm
      | some e =>
        have acc := exists_isSome_within_iff_acc.mp ⟨depth + 1, by rw [found]; rfl⟩
        exact absurd acc (not_acc_of_recurs ⟨desc, .refl, led desc again⟩)
    · refine congrArg (Option.map _) (mapM_congr fun child down => beneath_eq_within ?_)
      exact List.forall_mem_cons.mpr ⟨.single down, fun d hd => (led d hd).tail down⟩

theorem ofDescriptor?_eq (desc : Record) :
    ofDescriptor? prototype desc = within prototype levelLimit desc :=
  beneath_eq_within (List.forall_mem_nil _)

theorem acc_iff_not_recurs {desc : Record}
    (finite : {d | ReflTransGen (Descends prototype) desc d}.Finite) :
    Acc (fun child desc => Descends prototype desc child) desc ↔ ¬Recurs prototype desc := by
  constructor
  · exact fun acc again => not_acc_of_recurs again acc
  · intro never
    have := finite.to_subtype
    -- below is transitive by definition; that it is irreflexive is all that finiteness needs
    let Reached := {d | ReflTransGen (Descends prototype) desc d}
    let Below (c d : Reached) : Prop := TransGen (Descends prototype) d.1 c.1
    have : IsTrans Reached Below := ⟨fun _ _ _ first second => second.trans first⟩
    have : Std.Irrefl Below := ⟨fun d again => never ⟨d.1, d.2, again⟩⟩
    have wf : WellFounded Below := Finite.wellFounded_of_trans_of_irrefl Below
    have all : ∀ d : Reached, Acc (fun child desc => Descends prototype desc child) d.1 := by
      intro d
      induction d using wf.induction with
      | _ d ih => exact ⟨_, fun c down => ih ⟨c, d.2.tail down⟩ (.single down)⟩
    exact all ⟨desc, .refl⟩

/-- Descents from a descriptor reach only finitely many others, as merging makes nothing new and
what is merged gets lighter by half with each step. -/
theorem finite_reached {numbers : Set Json.Number} {texts : Set String} {limit : Nat}
    (hn : numbers.Finite) (ht : texts.Finite) {desc : Record}
    (made : desc.toValue.Over numbers texts) (light : desc.toValue.weight ≤ limit)
    (known : ∀ name p, prototype name = some p →
      p.toValue.Over numbers texts ∧ p.toValue.weight ≤ limit) :
    {d | ReflTransGen (Descends prototype) desc d}.Finite := by
  have injective : Function.Injective Record.toValue := fun r r' same => by
    cases r
    cases r'
    exact congrArg Record.mk (Json.Value.record.inj same)
  refine ((Json.Value.finite_over hn ht limit).preimage injective.injOn).subset fun d reached => ?_
  induction reached with
  | refl => exact ⟨made, light⟩
  | @tail d c _ down ih =>
    have base : ∀ b, (d.text? "element").bind prototype = some b →
        b.toValue.Over numbers texts ∧ b.toValue.weight ≤ limit := by
      intro b found
      obtain ⟨name, -, hb⟩ := Option.bind_eq_some_iff.mp found
      exact known name b hb
    obtain ⟨overMerged, le⟩ := Record.inherit_spec ih.1 base
    obtain ⟨overChild, half⟩ := Record.children_spec overMerged down
    -- merging at most doubles the limit and going to a child halves it again
    have lighter : d.toValue.weight ≤ limit := ih.2
    exact ⟨overChild, by omega⟩

end Expansion

end LayerTree
