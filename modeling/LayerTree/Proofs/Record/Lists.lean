import LayerTree.Proofs.Record.Merging

/-!
How lists of records merge.

The items of the prototype keep their places. An item of the record is merged over the first of them
that carries its `id`, and is appended when there is none. What was appended takes part in the
search that follows, so the appended items stay as they are exactly when no two of them carry the
same `id`.
-/

set_option autoImplicit false
set_option relaxedAutoImplicit false

namespace LayerTree

open Json (Value)

namespace Record

def itemId? (item : Value) : Option String := idOf? (itemFields item)

/-- The place of the first item with the `id` of a further one. -/
def target? (merged : List Value) (item : Value) : Option Nat :=
  (itemId? item).bind (placeOf? merged)

def overlay (below item : Value) : Value :=
  (inherit ⟨itemFields item⟩ (some ⟨itemFields below⟩)).toValue

/-- The items of a prototype in their order, each with the items that carry its `id` merged over it
in turn; of several that share an `id`, the first one takes them all. -/
def overlaid (items baseItems : List Value) : List Value :=
  baseItems.mapIdx fun place below =>
    (items.filter fun item => target? baseItems item == some place).foldl overlay below

def unmatched (items baseItems : List Value) : List Value :=
  items.filter fun item => (target? baseItems item).isNone

/-- Items each of which takes up those after it that carry its `id`. -/
def gathered : List Value → List Value
  | [] => []
  | item :: rest => overlaid rest [item] ++ gathered (unmatched rest [item])
termination_by items => items.length
decreasing_by exact Nat.lt_succ_of_le (List.length_filter_le _ _)

def place (merged : List Value) (item : Value) : List Value :=
  match target? merged item with
  | some here => merged.set here (overlay (merged.getD here .null) item)
  | none => merged ++ [item]

theorem mergeItems_cons {item : Value} (isRecord : item.isRecord = true)
    (rest merged : List Value) :
    mergeItems (item :: rest) merged = mergeItems rest (place merged item) := by
  cases item with
  | record fields =>
    have same : target? merged (.record fields) = (idOf? fields).bind (placeOf? merged) := rfl
    rw [mergeItems, place, same]
    cases (idOf? fields).bind (placeOf? merged) with
    | none => rfl
    | some here => rfl
  | _ => simp [Value.isRecord] at isRecord

/-! What is looked for are ids, and merging changes none of them. -/

theorem placeOf?_eq (items : List Value) (id : String) :
    placeOf? items id = (items.map itemId?).findIdx? (· == some id) := by
  rw [List.findIdx?_map]
  rfl

theorem target?_congr {merged merged' : List Value}
    (same : merged.map itemId? = merged'.map itemId?) : target? merged = target? merged' := by
  funext item
  have places : placeOf? merged = placeOf? merged' := by
    funext id
    rw [placeOf?_eq, placeOf?_eq, same]
  rw [target?, target?, places]

theorem target?_append (first more : List Value) (item : Value) :
    target? (first ++ more) item =
      (target? first item).or ((target? more item).map (· + first.length)) := by
  unfold target?
  cases itemId? item with
  | none => rfl
  | some id => simp [placeOf?, List.findIdx?_append]

theorem target?_lt {merged : List Value} {item : Value} {here : Nat}
    (h : target? merged item = some here) : here < merged.length := by
  obtain ⟨id, -, found⟩ := Option.bind_eq_some_iff.mp h
  exact placeOf?_lt found

theorem itemId?_target {merged : List Value} {item : Value} {here : Nat}
    (h : target? merged item = some here) :
    (itemId? item).isSome = true ∧ (merged.map itemId?)[here]? = some (itemId? item) := by
  obtain ⟨id, hid, found⟩ := Option.bind_eq_some_iff.mp h
  rw [placeOf?_eq] at found
  obtain ⟨low, hit, -⟩ := List.findIdx?_eq_some_iff_getElem.mp found
  rw [hid]
  exact ⟨rfl, List.getElem?_eq_some_iff.mpr ⟨low, eq_of_beq hit⟩⟩

theorem lookup_cons (name key : String) (value : Value) (fields : List (String × Value)) :
    lookup name ((key, value) :: fields) =
      if key == name then some value else lookup name fields := rfl

theorem lookup_append (name : String) :
    ∀ fields more : List (String × Value),
      lookup name (fields ++ more) = (lookup name fields).or (lookup name more)
  | [], more => rfl
  | (key, value) :: fields, more => by
    rw [List.cons_append, lookup_cons, lookup_cons]
    split
    · rfl
    · exact lookup_append name fields more

theorem lookup_mergeOwn (name : String) (base : List (String × Value)) :
    ∀ fields : List (String × Value), lookup name (mergeOwn fields base) =
      (lookup name fields).map fun value => mergeValue value (lookup name base)
  | [] => rfl
  | (key, value) :: fields => by
    rw [mergeOwn, lookup_cons, lookup_cons]
    split
    · next same =>
      obtain rfl := eq_of_beq same
      rfl
    · exact lookup_mergeOwn name base fields

theorem lookup_mergeFields {name : String} {fields : List (String × Value)} {value : Value}
    (mine : lookup name fields = some value) (base : List (String × Value)) :
    lookup name (mergeFields fields base) = some (mergeValue value (lookup name base)) := by
  rw [mergeFields, lookup_append, lookup_mergeOwn, mine]
  rfl

theorem itemId?_overlay (below : Value) {item : Value} (h : (itemId? item).isSome = true) :
    itemId? (overlay below item) = itemId? item := by
  obtain ⟨id, hid⟩ := Option.isSome_iff_exists.mp h
  obtain ⟨value, found, text⟩ := Option.bind_eq_some_iff.mp hid
  have own := lookup_mergeFields found (itemFields below)
  rw [hid]
  cases value with
  | text s =>
    change (lookup "id" (mergeFields (itemFields item) (itemFields below))).bind Value.text? = _
    rw [own]
    exact text
  | _ => simp [Value.text?] at text

theorem map_itemId?_place_of_some {merged : List Value} {item : Value} {here : Nat}
    (h : target? merged item = some here) :
    (place merged item).map itemId? = merged.map itemId? := by
  obtain ⟨named, found⟩ := itemId?_target h
  obtain ⟨low, same⟩ := List.getElem?_eq_some_iff.mp found
  have step : place merged item = merged.set here (overlay (merged.getD here .null) item) := by
    rw [place, h]
  rw [step, List.map_set, itemId?_overlay _ named, ← same, List.set_getElem_self]

/-! The items of the prototype, and what is appended to them. -/

theorem place_append_of_none {first : List Value} {item : Value} (h : target? first item = none)
    (more : List Value) : place (first ++ more) item = first ++ place more item := by
  have found : target? (first ++ more) item = (target? more item).map (· + first.length) := by
    rw [target?_append, h]
    rfl
  unfold place
  rw [found]
  cases target? more item with
  | none => exact List.append_assoc first more [item]
  | some here =>
    have behind : first.length ≤ here + first.length := Nat.le_add_left _ _
    have same : (first ++ more).getD (here + first.length) Value.null = more.getD here .null := by
      rw [List.getD_append_right _ _ _ _ behind, Nat.add_sub_cancel]
    change (first ++ more).set (here + first.length) _ = first ++ more.set here _
    rw [same, List.set_append_right _ _ behind, Nat.add_sub_cancel]

theorem place_append_of_some {first : List Value} {item : Value} {here : Nat}
    (h : target? first item = some here) (more : List Value) :
    place (first ++ more) item = place first item ++ more := by
  have low : here < first.length := target?_lt h
  have found : target? (first ++ more) item = some here := by
    rw [target?_append, h]
    rfl
  unfold place
  rw [found, h]
  change (first ++ more).set here _ = first.set here _ ++ more
  rw [List.set_append_left _ _ low, List.getD_append _ _ _ _ low]

theorem overlaid_nil (baseItems : List Value) : overlaid [] baseItems = baseItems := by
  apply List.ext_getElem?
  intro i
  simp [overlaid]

theorem overlaid_cons_of_none {baseItems : List Value} {item : Value}
    (h : target? baseItems item = none) (rest : List Value) :
    overlaid (item :: rest) baseItems = overlaid rest baseItems := by
  simp [overlaid, h]

theorem overlaid_cons_of_some {baseItems : List Value} {item : Value} {here : Nat}
    (h : target? baseItems item = some here) (rest : List Value) :
    overlaid (item :: rest) baseItems = overlaid rest (place baseItems item) := by
  have low : here < baseItems.length := target?_lt h
  have alike := target?_congr (map_itemId?_place_of_some h)
  have step : place baseItems item =
      baseItems.set here (overlay (baseItems.getD here .null) item) := by
    rw [place, h]
  unfold overlaid
  rw [alike, step]
  apply List.ext_getElem?
  intro i
  simp only [List.getElem?_mapIdx, List.getElem?_set, List.filter_cons, h]
  by_cases same : here = i
  · subst same
    simp [low]
  · simp [same]

@[simp] theorem length_overlaid (items baseItems : List Value) :
    (overlaid items baseItems).length = baseItems.length := List.length_mapIdx

/-- Items merge into a list whose first part is a prototype's: what finds its `id` there is merged
over that part, and all others go on to the rest of the list. -/
theorem mergeItems_append : ∀ {items : List Value}, (∀ item ∈ items, item.isRecord = true) →
    ∀ baseItems more, mergeItems items (baseItems ++ more) =
      overlaid items baseItems ++ mergeItems (unmatched items baseItems) more
  | [], _, baseItems, more => by
    rw [overlaid_nil]
    rfl
  | item :: rest, records, baseItems, more => by
    obtain ⟨isRecord, others⟩ := List.forall_mem_cons.mp records
    rw [mergeItems_cons isRecord]
    cases h : target? baseItems item with
    | none =>
      have kept : unmatched (item :: rest) baseItems = item :: unmatched rest baseItems := by
        simp [unmatched, h]
      rw [place_append_of_none h, mergeItems_append others, overlaid_cons_of_none h, kept,
        mergeItems_cons isRecord]
    | some here =>
      have taken : unmatched (item :: rest) baseItems = unmatched rest (place baseItems item) := by
        simp [unmatched, h, target?_congr (map_itemId?_place_of_some h)]
      rw [place_append_of_some h, mergeItems_append others, overlaid_cons_of_some h, taken]

theorem isRecord_of_mem_unmatched {items baseItems : List Value}
    (records : ∀ item ∈ items, item.isRecord = true) :
    ∀ item ∈ unmatched items baseItems, item.isRecord = true :=
  fun item mem => records item (List.mem_of_mem_filter mem)

theorem mergeItems_nil : ∀ items : List Value, (∀ item ∈ items, item.isRecord = true) →
    mergeItems items [] = gathered items
  | [], _ => by
    rw [gathered]
    rfl
  | item :: rest, records => by
    obtain ⟨isRecord, others⟩ := List.forall_mem_cons.mp records
    have first : place [] item = [item] ++ [] := by
      have nowhere : target? [] item = none := by
        cases h : target? [] item with
        | none => rfl
        | some here => exact absurd (target?_lt h) (Nat.not_lt_zero here)
      rw [place, nowhere]
      rfl
    rw [mergeItems_cons isRecord, first, mergeItems_append others, gathered,
      mergeItems_nil _ (isRecord_of_mem_unmatched others)]
termination_by items => items.length
decreasing_by exact Nat.lt_succ_of_le (List.length_filter_le _ _)

/-! What is appended stays as it is when no `id` is there twice. -/

theorem target?_singleton {item other : Value} :
    target? [item] other = none ↔ ∀ id, itemId? other = some id → itemId? item ≠ some id := by
  unfold target?
  cases itemId? other with
  | none => simp
  | some id => simp [placeOf?_eq, List.findIdx?_cons]

theorem unmatched_singleton_eq_self_iff {item : Value} {rest : List Value} :
    unmatched rest [item] = rest ↔ ∀ id, itemId? item = some id → id ∉ rest.filterMap itemId? := by
  rw [unmatched, List.filter_eq_self]
  constructor
  · intro all id mine there
    obtain ⟨other, mem, theirs⟩ := List.mem_filterMap.mp there
    have apart := target?_singleton.mp (Option.isNone_iff_eq_none.mp (all other mem))
    exact apart id theirs mine
  · intro apart other mem
    refine Option.isNone_iff_eq_none.mpr (target?_singleton.mpr ?_)
    intro id theirs mine
    exact apart id mine (List.mem_filterMap.mpr ⟨other, mem, theirs⟩)

theorem overlaid_eq_self {items baseItems : List Value} (h : unmatched items baseItems = items) :
    overlaid items baseItems = baseItems := by
  have untargeted : ∀ item ∈ items, target? baseItems item = none := fun item mem =>
    Option.isNone_iff_eq_none.mp (List.filter_eq_self.mp h item mem)
  clear h
  induction items with
  | nil => exact overlaid_nil baseItems
  | cons item rest ih =>
    obtain ⟨first, others⟩ := List.forall_mem_cons.mp untargeted
    rw [overlaid_cons_of_none first]
    exact ih others

theorem nodup_filterMap_itemId?_cons {item : Value} {rest : List Value} :
    ((item :: rest).filterMap itemId?).Nodup ↔
      unmatched rest [item] = rest ∧ (rest.filterMap itemId?).Nodup := by
  rw [unmatched_singleton_eq_self_iff, List.filterMap_cons]
  cases itemId? item with
  | none => simp
  | some id => simp

theorem length_gathered_le : ∀ items : List Value, (gathered items).length ≤ items.length
  | [] => by simp [gathered]
  | item :: rest => by
    have shorter : (unmatched rest [item]).length ≤ rest.length := List.length_filter_le _ _
    have below := length_gathered_le (unmatched rest [item])
    rw [gathered, List.length_append, length_overlaid]
    simp only [List.length_cons, List.length_nil]
    omega
termination_by items => items.length
decreasing_by exact Nat.lt_succ_of_le (List.length_filter_le _ _)

theorem gathered_eq_self : ∀ {items : List Value}, (items.filterMap itemId?).Nodup →
    gathered items = items
  | [], _ => by rw [gathered]
  | item :: rest, nodup => by
    obtain ⟨apart, others⟩ := nodup_filterMap_itemId?_cons.mp nodup
    rw [gathered, overlaid_eq_self apart, apart, gathered_eq_self others]
    rfl

theorem nodup_of_length_gathered : ∀ {items : List Value},
    (gathered items).length = items.length → (items.filterMap itemId?).Nodup
  | [], _ => List.nodup_nil
  | item :: rest, full => by
    have shorter : (unmatched rest [item]).length ≤ rest.length := List.length_filter_le _ _
    have below := length_gathered_le (unmatched rest [item])
    rw [gathered, List.length_append, length_overlaid] at full
    simp only [List.length_cons, List.length_nil] at full
    have all : (unmatched rest [item]).length = rest.length := by omega
    have apart : unmatched rest [item] = rest :=
      List.filter_eq_self.mpr (List.length_filter_eq_length_iff.mp all)
    rw [apart] at full
    have others : (rest.filterMap itemId?).Nodup := nodup_of_length_gathered (by omega)
    exact nodup_filterMap_itemId?_cons.mpr ⟨apart, others⟩

theorem gathered_eq_self_iff {items : List Value} :
    gathered items = items ↔ (items.filterMap itemId?).Nodup := by
  constructor
  · intro same
    exact nodup_of_length_gathered (by rw [same])
  · exact gathered_eq_self

theorem length_gathered_eq_iff {items : List Value} :
    (gathered items).length = items.length ↔ (items.filterMap itemId?).Nodup := by
  constructor
  · exact nodup_of_length_gathered
  · intro nodup
    rw [gathered_eq_self nodup]

theorem records?_list {items : List Value} (records : ∀ item ∈ items, item.isRecord = true) :
    records? (.list items) = some items := by
  rw [records?, if_pos (List.all_eq_true.mpr records)]

/-- Where a record and its prototype both hold a list of records, the merged list consists of the
prototype's items, each with the record's items of the same `id` merged over it in turn, and of the
record's other items, each with those after it of the same `id` merged over it. So the other items
are all there as they were, and the list is as long as that makes it, exactly when no two of them
carry the same `id`. -/
theorem inherit_keeps_items_iff {r base : Record} {name : String} {items baseItems : List Value}
    (mine : r.get? name = some (.list items)) (theirs : base.get? name = some (.list baseItems))
    (records : ∀ item ∈ items, item.isRecord = true)
    (baseRecords : ∀ item ∈ baseItems, item.isRecord = true) :
    ∃ merged, (r.inherit (some base)).get? name = some (.list merged) ∧
      merged = overlaid items baseItems ++ gathered (unmatched items baseItems) ∧
      (merged = overlaid items baseItems ++ unmatched items baseItems ↔
        ((unmatched items baseItems).filterMap itemId?).Nodup) ∧
      (merged.length = baseItems.length + (unmatched items baseItems).length ↔
        ((unmatched items baseItems).filterMap itemId?).Nodup) := by
  have found : (r.inherit (some base)).get? name = some (.list (mergeItems items baseItems)) := by
    have both : mergeValue (.list items) (some (.list baseItems)) =
        .list (mergeItems items baseItems) := by
      rw [mergeValue, Option.bind_some, records?_list records, records?_list baseRecords]
    have own := lookup_mergeFields mine base.fields
    rw [← both, ← theirs]
    exact own
  have shape : mergeItems items baseItems =
      overlaid items baseItems ++ gathered (unmatched items baseItems) := by
    have split := mergeItems_append records baseItems []
    rw [List.append_nil] at split
    rw [split, mergeItems_nil _ (isRecord_of_mem_unmatched records)]
  refine ⟨_, found, shape, ?_, ?_⟩
  · rw [shape, List.append_cancel_left_eq]
    exact gathered_eq_self_iff
  · rw [shape, List.length_append, length_overlaid, Nat.add_left_cancel_iff]
    exact length_gathered_eq_iff

def label (id field : String) : Value := .record [("id", .text id), (field, .bool true)]

def ofLabels (labels : List Value) : Record := ⟨[("elements", .list labels)]⟩

theorem inherit_keeps_items_labels :
    ∃ merged, ((ofLabels [label "a" "x", label "b" "y", label "c" "z"]).inherit
        (some (ofLabels [label "b" "v", label "a" "w"]))).get? "elements" = some (.list merged) ∧
      merged.length = 3 ∧
      merged = overlaid [label "a" "x", label "b" "y", label "c" "z"]
        [label "b" "v", label "a" "w"] ++ [label "c" "z"] := by
  have left : unmatched [label "a" "x", label "b" "y", label "c" "z"]
      [label "b" "v", label "a" "w"] = [label "c" "z"] := rfl
  have mine : (ofLabels [label "a" "x", label "b" "y", label "c" "z"]).get? "elements" =
      some (.list [label "a" "x", label "b" "y", label "c" "z"]) := rfl
  have theirs : (ofLabels [label "b" "v", label "a" "w"]).get? "elements" =
      some (.list [label "b" "v", label "a" "w"]) := rfl
  obtain ⟨merged, found, -, kept, full⟩ :=
    inherit_keeps_items_iff mine theirs (by decide) (by decide)
  rw [left] at kept full
  have single : ([label "c" "z"].filterMap itemId?).Nodup := List.nodup_singleton "c"
  exact ⟨merged, found, full.mpr single, kept.mpr single⟩

/-- Of two labels of one name that the prototype does not have, the second is merged over the first
and is missing from the list. -/
theorem inherit_loses_namesake :
    ((ofLabels [label "a" "x", label "a" "y"]).inherit (some (ofLabels [label "b" "v"]))).get?
        "elements" =
      some (.list [label "b" "v",
        .record [("id", .text "a"), ("y", .bool true), ("x", .bool true)]]) ∧
    overlaid [label "a" "x", label "a" "y"] [label "b" "v"] ++
        unmatched [label "a" "x", label "a" "y"] [label "b" "v"] =
      [label "b" "v", label "a" "x", label "a" "y"] := by
  constructor
  · rfl
  · rfl

end Record

end LayerTree
