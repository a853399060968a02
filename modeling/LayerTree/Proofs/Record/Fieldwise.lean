import LayerTree.Proofs.Record.Lists

/-!
What merging does to each field.

A merged record has the fields of both sides, those of the record first. Only where both sides hold
a list of records is a field neither the record's nor the prototype's: such a list begins with what
the prototype's items became, and each of these has at least the fields that it had, under the same
`id`.
-/

set_option autoImplicit false
set_option relaxedAutoImplicit false

namespace LayerTree

open Json (Value)

namespace Record

/-! What is there under a name after merging. -/

theorem contains_eq (r : Record) (name : String) :
    r.contains name = (lookup name r.fields).isSome := rfl

theorem lookup_missingFrom {name : String} {fields : List (String × Value)}
    (absent : lookup name fields = none) (base : List (String × Value)) :
    lookup name (missingFrom fields base) = lookup name base := by
  induction base with
  | nil => rfl
  | cons field base ih =>
    obtain ⟨key, value⟩ := field
    unfold missingFrom at ih ⊢
    rw [List.filter_cons]
    by_cases same : key = name
    · subst same
      simp [lookup, absent]
    · have passed : lookup name ((key, value) :: base) = lookup name base := by
        simp [lookup, same]
      rw [passed]
      split
      · rw [lookup_cons, if_neg (by simpa using same)]
        exact ih
      · exact ih

theorem get?_inherit_of_none {r : Record} {name : String} (absent : r.get? name = none)
    (base : Record) : (r.inherit (some base)).get? name = base.get? name := by
  have own : lookup name (mergeOwn r.fields base.fields) = none := by
    rw [lookup_mergeOwn]
    have missing : lookup name r.fields = none := absent
    rw [missing]
    rfl
  change lookup name (mergeOwn r.fields base.fields ++ missingFrom r.fields base.fields) = _
  rw [lookup_append, own, Option.none_or]
  exact lookup_missingFrom absent base.fields

theorem get?_inherit_of_some {r : Record} {name : String} {value : Value}
    (mine : r.get? name = some value) (base : Record) :
    (r.inherit (some base)).get? name = some (mergeValue value (base.get? name)) :=
  lookup_mergeFields mine base.fields

theorem contains_inherit (r base : Record) (name : String) :
    (r.inherit (some base)).contains name = (r.contains name || base.contains name) := by
  unfold contains
  cases mine : r.get? name with
  | none => rw [get?_inherit_of_none mine, Option.isSome_none, Bool.false_or]
  | some value =>
    rw [get?_inherit_of_some mine, Option.isSome_some, Option.isSome_some, Bool.true_or]

theorem map_fst_inherit (r base : Record) :
    (r.inherit (some base)).fields.map Prod.fst =
      r.fields.map Prod.fst ++ (base.fields.map Prod.fst).filter fun name => !r.contains name := by
  have missing : (missingFrom r.fields base.fields).map Prod.fst =
      (base.fields.map Prod.fst).filter fun name => !r.contains name := by
    rw [missingFrom, List.filter_map]
    congr 1
    refine List.filter_congr fun field _ => ?_
    rw [Function.comp_apply, contains_eq]
    cases lookup field.1 r.fields <;> rfl
  change (mergeOwn r.fields base.fields ++ missingFrom r.fields base.fields).map Prod.fst = _
  rw [List.map_append, map_fst_mergeOwn, missing]

theorem mergeValue_of_kept {value : Value} {base : Option Value}
    (apart : records? value = none ∨ base.bind records? = none) :
    mergeValue value base = value := by
  cases value with
  | list items =>
    rw [mergeValue]
    rcases apart with mine | theirs
    · rw [mine]
    · rw [theirs]
      cases records? (.list items) <;> rfl
  | _ => rw [mergeValue]

theorem mergeValue_of_records {value : Value} {base : Option Value} {items baseItems : List Value}
    (mine : records? value = some items) (theirs : base.bind records? = some baseItems) :
    mergeValue value base = .list (mergeItems items baseItems) := by
  obtain rfl := records?_eq_some mine
  rw [mergeValue, mine, theirs]

theorem isRecord_of_records? {value : Value} {items : List Value}
    (h : records? value = some items) : ∀ item ∈ items, item.isRecord = true := by
  obtain rfl := records?_eq_some h
  by_cases all : items.all Value.isRecord = true
  · exact List.all_eq_true.mp all
  · rw [records?, if_neg all] at h
    cases h

/-! Lists of records: what became of the prototype's items. -/

/-- The items that are merged over the item at a place of a prototype: they carry its `id`, and none
of the items before it does. -/
def matching (items baseItems : List Value) (place : Nat) : List Value :=
  items.filter fun item => target? baseItems item == some place

/-- What became of an item of a prototype over which further items were merged in turn. With none of
them it is unchanged. -/
structure Grown (upper : List Value) (below item : Value) : Prop where
  merged : item = upper.foldl overlay below
  /-- Each of them carries the `id` of the item. -/
  matched : ∀ other ∈ upper, (itemId? other).isSome = true ∧ itemId? other = itemId? below
  id : itemId? item = itemId? below
  fields : ∀ name, (lookup name (itemFields below)).isSome = true →
    (lookup name (itemFields item)).isSome = true

theorem itemId?_foldl_overlay {upper : List Value} {below : Value}
    (matched : ∀ other ∈ upper, (itemId? other).isSome = true ∧ itemId? other = itemId? below) :
    itemId? (upper.foldl overlay below) = itemId? below := by
  induction upper generalizing below with
  | nil => rfl
  | cons item upper ih =>
    obtain ⟨⟨named, same⟩, others⟩ := List.forall_mem_cons.mp matched
    have step : itemId? (overlay below item) = itemId? below :=
      (itemId?_overlay below named).trans same
    rw [List.foldl_cons, ih, step]
    intro other mem
    obtain ⟨named', same'⟩ := others other mem
    exact ⟨named', same'.trans step.symm⟩

theorem isSome_lookup_overlay (below item : Value) {name : String}
    (there : (lookup name (itemFields below)).isSome = true) :
    (lookup name (itemFields (overlay below item))).isSome = true := by
  have both := contains_inherit ⟨itemFields item⟩ ⟨itemFields below⟩ name
  have base : contains ⟨itemFields below⟩ name = true := there
  rw [base, Bool.or_true] at both
  exact both

theorem isSome_lookup_foldl_overlay {name : String} (upper : List Value) {below : Value}
    (there : (lookup name (itemFields below)).isSome = true) :
    (lookup name (itemFields (upper.foldl overlay below))).isSome = true := by
  induction upper generalizing below with
  | nil => exact there
  | cons item upper ih => exact ih (isSome_lookup_overlay below item there)

theorem grown_of_matching {items baseItems : List Value} {place : Nat} {below : Value}
    (here : baseItems[place]? = some below) :
    Grown (matching items baseItems place) below
      ((matching items baseItems place).foldl overlay below) := by
  have matched : ∀ other ∈ matching items baseItems place,
      (itemId? other).isSome = true ∧ itemId? other = itemId? below := by
    intro other mem
    have found : target? baseItems other = some place := eq_of_beq (List.mem_filter.mp mem).2
    obtain ⟨named, there⟩ := itemId?_target found
    rw [List.getElem?_map, here] at there
    exact ⟨named, (Option.some.inj there).symm⟩
  exact ⟨rfl, matched, itemId?_foldl_overlay matched, fun _ => isSome_lookup_foldl_overlay _⟩

/-- A merged list begins with what the prototype's items became. -/
theorem getElem?_mergeItems {items baseItems : List Value}
    (records : ∀ item ∈ items, item.isRecord = true) {place : Nat} {below : Value}
    (here : baseItems[place]? = some below) :
    (mergeItems items baseItems)[place]? =
      some ((matching items baseItems place).foldl overlay below) := by
  have split := mergeItems_append records baseItems []
  rw [List.append_nil] at split
  obtain ⟨low, -⟩ := List.getElem?_eq_some_iff.mp here
  rw [split, List.getElem?_append_left (by rw [length_overlaid]; exact low)]
  unfold overlaid
  rw [List.getElem?_mapIdx, here]
  rfl

theorem length_le_mergeItems {items : List Value}
    (records : ∀ item ∈ items, item.isRecord = true) (baseItems : List Value) :
    baseItems.length ≤ (mergeItems items baseItems).length := by
  have split := mergeItems_append records baseItems []
  rw [List.append_nil] at split
  rw [split, List.length_append, length_overlaid]
  exact Nat.le_add_right _ _

/-! Records without fields. -/

theorem mergeOwn_nil (fields : List (String × Value)) : mergeOwn fields [] = fields := by
  induction fields with
  | nil => rfl
  | cons field fields ih =>
    obtain ⟨name, value⟩ := field
    have alone : mergeValue value (lookup name []) = value := mergeValue_of_kept (.inr rfl)
    rw [mergeOwn, alone, ih]

theorem inherit_empty (r : Record) : r.inherit (some .empty) = r := by
  have fields : mergeFields r.fields [] = r.fields := by
    rw [mergeFields, mergeOwn_nil]
    exact List.append_nil r.fields
  exact congrArg Record.mk fields

theorem empty_inherit (base : Record) : Record.empty.inherit (some base) = base := by
  have fields : missingFrom [] base.fields = base.fields :=
    List.filter_eq_self.mpr fun _ _ => rfl
  exact congrArg Record.mk fields

/-- What a record merged over its prototype holds, field by field. -/
structure MergedOver (r base merged : Record) : Prop where
  /-- The names are those of the record, and after them those that only the prototype has. -/
  names : merged.fields.map Prod.fst =
    r.fields.map Prod.fst ++ (base.fields.map Prod.fst).filter fun name => !r.contains name
  /-- The fields are those of either side. -/
  contains : ∀ name, merged.contains name = (r.contains name || base.contains name)
  /-- A field that the record does not have is the prototype's. -/
  inherited : ∀ name, r.get? name = none → merged.get? name = base.get? name
  /-- A field of the record stays, unless both sides hold a list of records there. -/
  kept : ∀ name value, r.get? name = some value →
    (records? value = none ∨ (base.get? name).bind records? = none) →
    merged.get? name = some value
  /-- Of two lists of records, that of the prototype comes first, each of its items with the
  matching items of the record merged over it. -/
  items : ∀ name value items baseItems, r.get? name = some value → records? value = some items →
    (base.get? name).bind records? = some baseItems →
    ∃ list, merged.get? name = some (.list list) ∧ baseItems.length ≤ list.length ∧
      ∀ place below, baseItems[place]? = some below →
        ∃ item, list[place]? = some item ∧ Grown (matching items baseItems place) below item

/-- Merging goes field by field, and from there on item by item; a record without fields changes
nothing on either side. -/
theorem inherit_mergedOver (r base : Record) :
    MergedOver r base (r.inherit (some base)) ∧
      r.inherit (some .empty) = r ∧ Record.empty.inherit (some base) = base := by
  refine ⟨⟨map_fst_inherit r base, contains_inherit r base, ?_, ?_, ?_⟩, inherit_empty r,
    empty_inherit base⟩
  · intro name absent
    exact get?_inherit_of_none absent base
  · intro name value mine apart
    rw [get?_inherit_of_some mine, mergeValue_of_kept apart]
  · intro name value items baseItems mine listed theirs
    have records := isRecord_of_records? listed
    refine ⟨mergeItems items baseItems, ?_, length_le_mergeItems records baseItems, ?_⟩
    · rw [get?_inherit_of_some mine, mergeValue_of_records listed theirs]
    · intro place below here
      exact ⟨_, getElem?_mergeItems records here, grown_of_matching here⟩

theorem inherit_mergedOver_labels :
    MergedOver (ofLabels [label "a" "x", label "c" "z", label "a" "y"])
        (ofLabels [label "b" "v", label "a" "w"])
        ((ofLabels [label "a" "x", label "c" "z", label "a" "y"]).inherit
          (some (ofLabels [label "b" "v", label "a" "w"]))) ∧
      matching [label "a" "x", label "c" "z", label "a" "y"] [label "b" "v", label "a" "w"] 1 =
        [label "a" "x", label "a" "y"] ∧
      Grown [label "a" "x", label "a" "y"] (label "a" "w")
        (.record [("id", .text "a"), ("y", .bool true), ("x", .bool true), ("w", .bool true)]) := by
  have merges := (inherit_mergedOver (ofLabels [label "a" "x", label "c" "z", label "a" "y"])
    (ofLabels [label "b" "v", label "a" "w"])).1
  obtain ⟨list, -, -, each⟩ := merges.items "elements" _ _ _ rfl rfl rfl
  obtain ⟨item, -, grown⟩ := each 1 (label "a" "w") rfl
  have merged : item = .record
      [("id", .text "a"), ("y", .bool true), ("x", .bool true), ("w", .bool true)] := grown.merged
  exact ⟨merges, rfl, merged ▸ grown⟩

end Record

end LayerTree
