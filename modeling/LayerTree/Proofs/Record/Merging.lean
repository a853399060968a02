import LayerTree.Record.Inherit
import LayerTree.Proofs.Record.Weight
import Mathlib.Data.List.GetD

/-!
How much merging can add to a record.

Merging makes nothing new: numbers and texts of the result are those of the two records, and its
weight is at most the sum of their weights. A child weighs at most half as much as the record that
it is a child of.
-/

set_option autoImplicit false
set_option relaxedAutoImplicit false

namespace LayerTree

open Json (Value Number)

namespace Record

open Json.Value

variable {numbers : Set Number} {texts : Set String}

theorem mem_of_lookup {name : String} {value : Value} :
    ∀ {fields : List (String × Value)}, lookup name fields = some value → (name, value) ∈ fields
  | (key, v) :: rest, h => by
    unfold lookup at h
    split at h
    · next same =>
      obtain rfl := Option.some.inj h
      obtain rfl := eq_of_beq same
      exact List.mem_cons_self
    · exact List.mem_cons_of_mem _ (mem_of_lookup h)

theorem lookup_eq_none {name : String} :
    ∀ {fields : List (String × Value)}, lookup name fields = none ↔ name ∉ fields.map Prod.fst
  | [] => by simp [lookup]
  | (key, v) :: rest => by
    unfold lookup
    split
    · next same =>
      obtain rfl := eq_of_beq same
      simp
    · next other =>
      have differs : ¬name = key := fun same => other (by simp [same])
      simp [lookup_eq_none, differs]

theorem missingFrom_sublist (fields base : List (String × Value)) :
    (missingFrom fields base).Sublist base :=
  List.filter_sublist

theorem mem_missingFrom {fields base : List (String × Value)} {f : String × Value}
    (h : f ∈ missingFrom fields base) : f ∈ base ∧ f.1 ∉ fields.map Prod.fst := by
  obtain ⟨there, missing⟩ := List.mem_filter.mp h
  exact ⟨there, lookup_eq_none.mp (Option.isNone_iff_eq_none.mp missing)⟩

theorem weight_missingFrom_cons {name : String} (value : Value) {rest : List (String × Value)}
    (fresh : name ∉ rest.map Prod.fst) (base : List (String × Value)) :
    weightOpt (lookup name base) + weightFields (missingFrom ((name, value) :: rest) base) ≤
      weightFields (missingFrom rest base) := by
  induction base with
  | nil => simp [lookup, missingFrom, weightOpt]
  | cons f base ih =>
    obtain ⟨key, v⟩ := f
    by_cases same : key = name
    · obtain rfl := same
      have dropped : missingFrom ((key, value) :: rest) ((key, v) :: base) =
          missingFrom ((key, value) :: rest) base := by
        simp [missingFrom, lookup]
      have kept : missingFrom rest ((key, v) :: base) = (key, v) :: missingFrom rest base := by
        simp [missingFrom, lookup_eq_none.mpr fresh]
      have found : lookup key ((key, v) :: base) = some v := by simp [lookup]
      simp only [dropped, kept, found, weightFields_cons, weightOpt]
      omega
    · have passed : lookup name ((key, v) :: base) = lookup name base := by
        simp [lookup, same]
      have alike : lookup key ((name, value) :: rest) = lookup key rest := by
        simp [lookup, Ne.symm same]
      rw [passed]
      unfold missingFrom at ih ⊢
      simp only [List.filter_cons, alike]
      split
      · simp only [weightFields_cons]
        omega
      · exact ih

theorem map_fst_mergeOwn (base : List (String × Value)) :
    ∀ fields : List (String × Value), (mergeOwn fields base).map Prod.fst = fields.map Prod.fst
  | [] => rfl
  | (name, value) :: rest => by
    rw [mergeOwn, List.map_cons, List.map_cons, map_fst_mergeOwn base rest]

private theorem over_mergeFields {fields base : List (String × Value)}
    (made : Over numbers texts (.record fields)) (overBase : Over numbers texts (.record base))
    (own : ∀ f ∈ mergeOwn fields base, Over numbers texts f.2) :
    Over numbers texts (.record (mergeFields fields base)) := by
  have names := map_fst_mergeOwn base fields
  refine .record ?_ (fun f hf => ?_) fun f hf => ?_
  · rw [mergeFields, List.map_append, names, List.nodup_append]
    refine ⟨made.nodup, ((missingFrom_sublist fields base).map _).nodup overBase.nodup, ?_⟩
    rintro name here _ there rfl
    obtain ⟨f, hf, rfl⟩ := List.mem_map.mp there
    exact (mem_missingFrom hf).2 here
  · rcases List.mem_append.mp hf with mine | theirs
    · have there : f.1 ∈ fields.map Prod.fst := names ▸ List.mem_map_of_mem mine
      obtain ⟨g, hg, same⟩ := List.mem_map.mp there
      exact same ▸ made.names g hg
    · exact overBase.names f (mem_missingFrom theirs).1
  · rcases List.mem_append.mp hf with mine | theirs
    · exact own f mine
    · exact overBase.values f (mem_missingFrom theirs).1

theorem records?_eq_some {value : Value} {items : List Value} (h : records? value = some items) :
    value = .list items := by
  unfold records? at h
  split at h
  · split at h
    · rw [Option.some.inj h]
    · simp at h
  · simp at h

private theorem itemFields_spec {v : Value} (made : Over numbers texts v) :
    Over numbers texts (.record (itemFields v)) ∧ 1 + weightFields (itemFields v) ≤ weight v := by
  cases v with
  | record fields => exact ⟨made, Nat.le_refl _⟩
  | _ => exact ⟨.record List.nodup_nil nofun nofun, weight_pos _⟩

theorem placeOf?_lt {items : List Value} {id : String} {place : Nat}
    (h : placeOf? items id = some place) : place < items.length := by
  obtain ⟨here, -⟩ := List.findIdx?_eq_some_iff_getElem.mp h
  exact here

private theorem set_mergeFields_spec {fields base : List (String × Value)} {merged : List Value}
    {place : Nat} (here : place < merged.length)
    (same : base = itemFields (merged.getD place .null))
    (made : Over numbers texts (.record fields)) (overMerged : ∀ v ∈ merged, Over numbers texts v)
    (own : Over numbers texts (.record base) →
      (∀ f ∈ mergeOwn fields base, Over numbers texts f.2) ∧
        weightFields (mergeOwn fields base) + weightFields (missingFrom fields base) ≤
          weightFields fields + weightFields base) :
    (∀ v ∈ merged.set place (.record (mergeFields fields base)), Over numbers texts v) ∧
      weightItems (merged.set place (.record (mergeFields fields base))) ≤
        weightFields fields + weightItems merged := by
  have old : Over numbers texts (merged.getD place .null) := by
    rw [List.getD_eq_getElem _ _ here]
    exact overMerged _ (List.getElem_mem here)
  obtain ⟨overBase, less⟩ := itemFields_spec old
  rw [← same] at overBase less
  obtain ⟨mine, le⟩ := own overBase
  have new := over_mergeFields made overBase mine
  refine ⟨fun v hv => ?_, weightItems_set here ?_⟩
  · rcases List.mem_or_eq_of_mem_set hv with kept | rfl
    · exact overMerged v kept
    · exact new
  · simp only [weight_record, mergeFields, weightFields_append]
    omega

mutual

theorem mergeValue_spec : ∀ (value : Value) (base : Option Value), Over numbers texts value →
    (∀ b, base = some b → Over numbers texts b) →
    Over numbers texts (mergeValue value base) ∧
      weight (mergeValue value base) ≤ weight value + weightOpt base
  | .list items, base, made, overBase => by
    unfold mergeValue
    split
    · next baseItems _ found =>
      obtain ⟨b, rfl, hb⟩ := Option.bind_eq_some_iff.mp found
      obtain rfl := records?_eq_some hb
      obtain ⟨overMerged, le⟩ := mergeItems_spec items baseItems made.of_mem_list
        (overBase _ rfl).of_mem_list
      refine ⟨.list overMerged, ?_⟩
      simp only [weight_list, weightOpt]
      omega
    · exact ⟨made, Nat.le_add_right _ _⟩
  | .record fields, base, made, _ => ⟨made, Nat.le_add_right _ _⟩
  | .null, base, made, _ => ⟨made, Nat.le_add_right _ _⟩
  | .bool b, base, made, _ => ⟨made, Nat.le_add_right _ _⟩
  | .number n, base, made, _ => ⟨made, Nat.le_add_right _ _⟩
  | .text s, base, made, _ => ⟨made, Nat.le_add_right _ _⟩

theorem mergeItems_spec : ∀ items merged : List Value, (∀ v ∈ items, Over numbers texts v) →
    (∀ v ∈ merged, Over numbers texts v) →
    (∀ v ∈ mergeItems items merged, Over numbers texts v) ∧
      weightItems (mergeItems items merged) ≤ weightItems items + weightItems merged
  | [], merged, _, overMerged => ⟨overMerged, Nat.le_add_left _ _⟩
  | item :: rest, merged, made, overMerged => by
    obtain ⟨overItem, overRest⟩ := List.forall_mem_cons.mp made
    cases item with
    | record fields =>
      unfold mergeItems
      split
      · next place found =>
        obtain ⟨id, -, found⟩ := Option.bind_eq_some_iff.mp found
        obtain ⟨overSet, le⟩ := set_mergeFields_spec (placeOf?_lt found) rfl overItem overMerged
          (mergeOwn_spec fields _ overItem)
        obtain ⟨all, le'⟩ := mergeItems_spec rest _ overRest overSet
        refine ⟨all, le'.trans ?_⟩
        simp only [weightItems_cons, weight_record]
        omega
      · obtain ⟨all, le⟩ := mergeItems_spec rest (merged ++ [.record fields]) overRest
          (List.forall_mem_append.mpr ⟨overMerged, by simpa using overItem⟩)
        refine ⟨all, le.trans ?_⟩
        simp only [weightItems_append, weightItems_cons, weightItems_nil]
        omega
    | _ =>
      obtain ⟨all, le⟩ := mergeItems_spec rest merged overRest overMerged
      unfold mergeItems
      refine ⟨all, le.trans ?_⟩
      simp only [weightItems_cons]
      omega

theorem mergeOwn_spec : ∀ fields base : List (String × Value),
    Over numbers texts (.record fields) → Over numbers texts (.record base) →
    (∀ f ∈ mergeOwn fields base, Over numbers texts f.2) ∧
      weightFields (mergeOwn fields base) + weightFields (missingFrom fields base) ≤
        weightFields fields + weightFields base
  | [], base, _, _ => by
    refine ⟨nofun, ?_⟩
    have le := weightFields_le_of_sublist (missingFrom_sublist [] base)
    simpa [mergeOwn] using le
  | (name, value) :: rest, base, made, overBase => by
    obtain ⟨fresh, nodup⟩ : name ∉ rest.map Prod.fst ∧ (rest.map Prod.fst).Nodup :=
      List.nodup_cons.mp made.nodup
    obtain ⟨overValue, overRest⟩ := List.forall_mem_cons.mp made.values
    obtain ⟨-, names⟩ := List.forall_mem_cons.mp made.names
    obtain ⟨mine, le⟩ := mergeValue_spec value (lookup name base) overValue fun b found =>
      overBase.values _ (mem_of_lookup found)
    obtain ⟨others, le'⟩ := mergeOwn_spec rest base (.record nodup names overRest) overBase
    -- what the field is merged over is missing no more, so that its weight counts only once
    have taken := weight_missingFrom_cons value fresh base
    refine ⟨?_, ?_⟩
    · rw [mergeOwn]
      exact List.forall_mem_cons.mpr ⟨mine, others⟩
    · rw [mergeOwn]
      simp only [weightFields_cons]
      omega

end

/-- A record merged over a prototype is made of what both are made of and weighs at most as much. -/
theorem inherit_spec {r : Record} {base : Option Record} {limit : Nat}
    (made : Over numbers texts r.toValue)
    (overBase : ∀ b, base = some b → Over numbers texts b.toValue ∧ weight b.toValue ≤ limit) :
    Over numbers texts (r.inherit base).toValue ∧
      weight (r.inherit base).toValue ≤ weight r.toValue + limit := by
  cases base with
  | none => exact ⟨made, Nat.le_add_right _ _⟩
  | some b =>
    obtain ⟨overBase, light⟩ := overBase b rfl
    obtain ⟨own, le⟩ := mergeOwn_spec r.fields b.fields made overBase
    refine ⟨over_mergeFields made overBase own, ?_⟩
    simp only [toValue, inherit, mergeFields, weight_record, weightFields_append] at light ⊢
    omega

theorem eq_toValue_of_ofValue? {v : Value} {r : Record} (h : ofValue? v = some r) :
    v = r.toValue := by
  unfold ofValue? at h
  split at h
  · rw [← Option.some.inj h]
    rfl
  · simp at h

theorem children_spec {r c : Record} (made : Over numbers texts r.toValue) (h : c ∈ r.children) :
    Over numbers texts c.toValue ∧ 2 * weight c.toValue ≤ weight r.toValue := by
  obtain ⟨v, hv, hc⟩ := List.mem_filterMap.mp h
  have same := eq_toValue_of_ofValue? hc
  cases elements : r.get? "elements" with
  | none => simp [list?, elements] at hv
  | some value =>
    cases value with
    | list items =>
      have there := mem_of_lookup elements
      have part : c.toValue ∈ items := by simpa [list?, elements, Value.list?, same] using hv
      refine ⟨(made.values _ there).of_mem_list _ part, ?_⟩
      have whole := weight_le_weightFields there
      have piece := weight_le_weightItems part
      simp only [weight_list] at whole
      simp only [toValue, weight_record] at piece ⊢
      omega
    | _ => simp [list?, elements, Value.list?] at hv

end Record

end LayerTree
