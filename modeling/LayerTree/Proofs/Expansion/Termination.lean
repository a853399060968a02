import LayerTree.Json.Printer
import LayerTree.Proofs.Element.Loaded
import LayerTree.Proofs.Expansion.Descent
import LayerTree.Proofs.Record.Distinct
import LayerTree.Resources

/-!
When loading and collecting come to an end.

Both follow the descents of a descriptor, so both answer exactly when no descent goes on forever. A
table of prototypes in which one leads back to itself has descents that do.
-/

set_option autoImplicit false
set_option relaxedAutoImplicit false

namespace LayerTree

open Expansion

namespace DelegateTable

theorem mem_of_lookup {β : Type} {name : String} {table : List (String × β)} {value : β}
    (h : lookup name table = some value) : ∃ entry ∈ table, entry.2 = value := by
  obtain ⟨entry, found, same⟩ := Option.map_eq_some_iff.mp h
  exact ⟨entry, List.mem_of_find?_eq_some found, same⟩

/-- With a table, the only descents that go on forever come back to where they have been. -/
theorem endless_iff_recurs {t : DelegateTable} {desc : Record} (known : t.Distinct)
    (distinct : desc.Distinct) :
    Endless t.lookups.prototype desc ↔ Recurs t.lookups.prototype desc := by
  let data := desc.toValue :: t.prototypes.map fun p => p.2.toValue
  have made : (Json.Value.list data).Over Set.univ Set.univ := by
    refine .list (List.forall_mem_cons.mpr ⟨distinct, fun v hv => ?_⟩)
    obtain ⟨p, hp, rfl⟩ := List.mem_map.mp hv
    exact known p hp
  obtain ⟨numbers, texts, hn, ht, made⟩ := made.exists_finite
  have light : ∀ v ∈ data, v.weight ≤ Json.Value.weightItems data :=
    fun v hv => Json.Value.weight_le_weightItems hv
  rw [← not_iff_not, ← acc_iff_not_endless]
  refine acc_iff_not_recurs (finite_reached hn ht (made.of_mem_list _ List.mem_cons_self)
    (light _ List.mem_cons_self) fun name p found => ?_)
  obtain ⟨entry, hentry, rfl⟩ := mem_of_lookup found
  have here : entry.2.toValue ∈ data :=
    List.mem_cons_of_mem _ (List.mem_map_of_mem (f := fun p => p.2.toValue) hentry)
  exact ⟨made.of_mem_list _ here, light _ here⟩

end DelegateTable

namespace Element

variable {σ α : Type} [Scalar α] [Analytic α]

theorem exists_loadWithin_iff (h : Host σ α) (desc : Record) (dimension : Size α)
    (k : ScaleFactor α) (first : ElementId) (s : σ) :
    (∃ depth root, ∀ more, depth ≤ more →
      ((loadWithin more h desc dimension k first).run s).1 = some root) ↔
      Acc (fun child desc => Descends h.delegate.prototype desc child) desc := by
  rw [← exists_isSome_within_iff_acc]
  constructor
  · rintro ⟨depth, root, loaded⟩
    refine ⟨depth, ?_⟩
    have answer := loaded depth (Nat.le_refl _)
    cases found : within h.delegate.prototype depth desc with
    | none =>
      rw [loadWithin, found] at answer
      simp at answer
    | some e => rfl
  · rintro ⟨depth, found⟩
    obtain ⟨e, found⟩ := Option.isSome_iff_exists.mp found
    refine ⟨depth, ((Build.tree h dimension k e dimension first).run s).1.1, fun more le => ?_⟩
    rw [loadWithin, within_mono le found]
    rfl

end Element

namespace Resources

theorem exists_collectWithin_iff (known : Lookups) (desc : Record) :
    (∃ depth table, ∀ more, depth ≤ more → collectWithin more known desc = some table) ↔
      Acc (fun child desc => Descends known.prototype desc child) desc := by
  rw [← exists_isSome_within_iff_acc]
  constructor
  · rintro ⟨depth, table, collected⟩
    have answer := collected depth (Nat.le_refl _)
    rw [collectWithin, Option.map_eq_some_iff] at answer
    obtain ⟨e, found, -⟩ := answer
    exact ⟨depth, by rw [found]; rfl⟩
  · rintro ⟨depth, found⟩
    obtain ⟨e, found⟩ := Option.isSome_iff_exists.mp found
    refine ⟨depth, addTree known.baseUrl e [], fun more le => ?_⟩
    rw [collectWithin, within_mono le found]
    rfl

end Resources

namespace DelegateTable

/-- Loading and collecting come to an end, with an answer that is the same at every depth from then
on, exactly when no descent from the descriptor goes on forever. For a table and a descriptor that
are read from documents, that is to say: unless some descriptor that is reached is reached again
below itself. -/
theorem answers_iff {σ α : Type} [Scalar α] [Analytic α] (t : DelegateTable)
    (media : MediaBackend σ α) (desc : Record) (dimension : Size α) (k : ScaleFactor α)
    (first : ElementId) (s : σ) :
    ((∃ depth root, ∀ more, depth ≤ more →
      ((Element.loadWithin more ⟨t.toDelegate, media⟩ desc dimension k first).run s).1 =
        some root) ↔
        ¬Endless t.lookups.prototype desc) ∧
    ((∃ depth table, ∀ more, depth ≤ more →
      Resources.collectWithin more t.lookups desc = some table) ↔
        ¬Endless t.lookups.prototype desc) ∧
    (t.Distinct → desc.Distinct →
      (Endless t.lookups.prototype desc ↔ Recurs t.lookups.prototype desc)) ∧
    (∀ document, readDocument document = .ok t → t.Distinct) ∧
    ∀ text, Record.read text = .ok desc → desc.Distinct := by
  refine ⟨?_, ?_, endless_iff_recurs, fun _ => distinct_of_readDocument,
    fun _ => Record.distinct_of_read⟩
  · rw [← acc_iff_not_endless]
    exact Element.exists_loadWithin_iff ⟨t.toDelegate, media⟩ desc dimension k first s
  · rw [← acc_iff_not_endless]
    exact Resources.exists_collectWithin_iff t.lookups desc

private theorem eq_ok_of_toOption {ε β : Type} {x : Except ε β} {y : β}
    (h : x.toOption = some y) : x = .ok y := by
  cases x with
  | error e => cases h
  | ok z => exact congrArg Except.ok (Option.some.inj h)

def naming (name : String) : Record := ⟨[("element", .text name)]⟩

/-- The only prototype consists of an element that names the same prototype. -/
def selfNaming : DelegateTable :=
  { empty with prototypes := [("a", ⟨[("elements", .list [(naming "a").toValue])]⟩)] }

private theorem selfNaming_endless : Endless selfNaming.lookups.prototype (naming "a") :=
  ⟨fun _ => naming "a", rfl, fun _ => List.mem_singleton.mpr rfl⟩

def selfNamingData : Json.Value :=
  .record [("prototypes", .record [("a", .record [("elements", .list [(naming "a").toValue])])])]

theorem answers_iff_selfNaming : ∃ t : DelegateTable,
    readDocument (Json.documentOf selfNamingData.render) = .ok t ∧
    Record.read (naming "a").toValue.render = .ok (naming "a") ∧
    Recurs t.lookups.prototype (naming "a") := by
  have table : (readDocument (Json.documentOf selfNamingData.render)).toOption.map
      (·.prototypes) = some selfNaming.prototypes := by decide +kernel
  have desc : (Record.read (naming "a").toValue.render).toOption = some (naming "a") := by
    decide +kernel
  obtain ⟨t, ht, known⟩ := Option.map_eq_some_iff.mp table
  have ht := eq_ok_of_toOption ht
  have hdesc := eq_ok_of_toOption desc
  obtain ⟨-, -, recurs, readTable, readText⟩ :=
    answers_iff t Host.screening.media (naming "a") ⟨640, 480⟩ ⟨1, 1⟩ 0 ()
  have endless : Endless t.lookups.prototype (naming "a") := by
    have same : t.lookups.prototype = selfNaming.lookups.prototype :=
      funext fun name => congrArg (lookup name) known
    rw [same]
    exact selfNaming_endless
  exact ⟨t, ht, hdesc, (recurs (readTable _ ht) (readText _ hdesc)).mp endless⟩

/-- Nothing that names a prototype which leads back to itself is ever loaded or collected. -/
theorem selfNaming_unanswered :
    (∀ depth, ((Element.loadWithin depth ⟨selfNaming.toDelegate, Host.screening.media⟩ (naming "a")
      ⟨640, 480⟩ ⟨1, 1⟩ 0).run ()).1 = none) ∧
    (∀ depth, Resources.collectWithin depth selfNaming.lookups (naming "a") = none) ∧
    Endless selfNaming.lookups.prototype (naming "a") := by
  have unexpanded : ∀ depth, within selfNaming.lookups.prototype depth (naming "a") = none := by
    intro depth
    cases found : within selfNaming.lookups.prototype depth (naming "a") with
    | none => rfl
    | some e =>
      have acc := exists_isSome_within_iff_acc.mp ⟨depth, by rw [found]; rfl⟩
      exact absurd selfNaming_endless (acc_iff_not_endless.mp acc)
  refine ⟨fun depth => ?_, fun depth => ?_, selfNaming_endless⟩
  · have same : within (Host.mk selfNaming.toDelegate Host.screening.media).delegate.prototype depth
        (naming "a") = none := unexpanded depth
    rw [Element.loadWithin, same]
    rfl
  · rw [Resources.collectWithin, unexpanded]
    rfl

end DelegateTable

end LayerTree
