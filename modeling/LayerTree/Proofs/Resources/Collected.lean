import LayerTree.Animation.OfDescriptor
import LayerTree.Proofs.Expansion.Descent
import LayerTree.Resources
import Mathlib.Data.List.Basic

/-!
What is collected.

The addresses that are collected for an expansion are those that the sources of its merged
descriptors resolve to, streamed ones left out.
-/

set_option autoImplicit false
set_option relaxedAutoImplicit false

namespace LayerTree

namespace ResourceTable

def keys (table : ResourceTable) : List ResourceUrl := table.map Prod.fst

theorem mem_keys_insert {url key : ResourceUrl} {tag : ResourceTag} :
    ∀ {table : ResourceTable},
      key ∈ (insert url tag table).keys ↔ key = url ∨ key ∈ table.keys
  | [] => by simp [insert, keys]
  | (first, value) :: rest => by
    have below : key ∈ (insert url tag rest).keys ↔ key = url ∨ key ∈ keys rest :=
      mem_keys_insert
    unfold insert
    split
    · next here =>
      obtain rfl : first = url := by simpa using here
      simp [keys]
    · split
      · simp [keys]
      · simp only [keys, List.map_cons, List.mem_cons] at below ⊢
        rw [below, or_left_comm]

theorem isSome_get? {url : ResourceUrl} {table : ResourceTable} :
    (get? url table).isSome = true ↔ url ∈ table.keys := by
  simp [get?, keys]

theorem mem_keys_insertNew {url key : ResourceUrl} {tag : ResourceTag} {table : ResourceTable} :
    key ∈ (insertNew url tag table).keys ↔ key = url ∨ key ∈ table.keys := by
  unfold insertNew
  split
  · next there =>
    have there := isSome_get?.mp there
    exact ⟨.inr, fun new => new.elim (fun same => same ▸ there) fun old => old⟩
  · exact mem_keys_insert

theorem mem_keys_foldl {β : Type} (add : ResourceTable → β → ResourceTable)
    {named : β → Option ResourceUrl}
    (step : ∀ table x key, key ∈ (add table x).keys ↔ named x = some key ∨ key ∈ table.keys)
    {items : List β} {table : ResourceTable} {key : ResourceUrl} :
    key ∈ (items.foldl add table).keys ↔
      (∃ x ∈ items, named x = some key) ∨ key ∈ table.keys := by
  induction items generalizing table with
  | nil => simp
  | cons x items ih =>
    rw [List.foldl_cons, ih, step, List.exists_mem_cons_iff, or_assoc, or_left_comm]

end ResourceTable

namespace Expansion

mutual

def infos : Expansion → List Record
  | node info children => info :: infosAll children

def infosAll : List Expansion → List Record
  | [] => []
  | e :: es => e.infos ++ infosAll es

end

end Expansion

namespace Resources

open ResourceTable

variable {base : Option ResourceUrl} {key : ResourceUrl}

/-- The sources that a merged descriptor names: an image, a mask, a sprite sheet, a video, and the
frames that its record `to` names. -/
def sources (info : Record) : List String :=
  (sourceFields.filterMap fun field => info.text? field.1) ++ frameSources info

theorem mem_sources_of_text {info : Record} {source name : String}
    (text : info.text? name = some source) (listed : name ∈ sourceFields.map Prod.fst) :
    source ∈ sources info := by
  obtain ⟨field, mem, rfl⟩ := List.mem_map.mp listed
  exact List.mem_append_left _ (List.mem_filterMap.mpr ⟨field, mem, text⟩)

theorem mem_sources_of_mem_imageSources {info : Record} {source : String}
    (mem : source ∈ Animations.imageSources info) : source ∈ sources info := by
  refine List.mem_append_right _ ?_
  unfold Animations.imageSources at mem
  unfold frameSources
  cases found : info.record? "to" with
  | none => simp [found] at mem
  | some wanted =>
    have list : ∃ items, wanted.list? "img" = some items ∧
        source ∈ items.filterMap Json.Value.text? := by
      cases items : wanted.list? "img" with
      | none => simp [found, items] at mem
      | some items' => exact ⟨items', rfl, by simpa [found, items] using mem⟩
    obtain ⟨items, eq, here⟩ := list
    have texts : wanted.texts? "img" = some (items.filterMap Json.Value.text?) := by
      obtain ⟨value, got, listed⟩ := Option.bind_eq_some_iff.mp eq
      cases value <;> simp_all [Json.Value.list?, Record.texts?]
    simpa [texts] using here

theorem mem_keys_addField {info : Record} {table : ResourceTable}
    {field : String × ResourceTag} :
    key ∈ (addField base info table field).keys ↔
      ((info.text? field.1).bind fun source => ResourceUrl.resolve source base) = some key ∨
        key ∈ table.keys := by
  unfold addField
  split
  · next url eq => rw [eq, mem_keys_insert, Option.some.injEq, eq_comm]
  · next eq => simp [eq]

theorem mem_keys_addFrame {table : ResourceTable} {source : String} :
    key ∈ (addFrame base table source).keys ↔
      ResourceUrl.resolve source base = some key ∨ key ∈ table.keys := by
  unfold addFrame
  split
  · next url eq => rw [eq, mem_keys_insertNew, Option.some.injEq, eq_comm]
  · next eq => simp [eq]

theorem mem_keys_addOwn {info : Record} {table : ResourceTable} :
    key ∈ (addOwn base info table).keys ↔
      (info.flag "stream" = false ∧
        ∃ source ∈ sources info, ResourceUrl.resolve source base = some key) ∨
        key ∈ table.keys := by
  have named : (∃ source ∈ sources info, ResourceUrl.resolve source base = some key) ↔
      (∃ source ∈ frameSources info, ResourceUrl.resolve source base = some key) ∨
        ∃ field ∈ sourceFields,
          ((info.text? field.1).bind fun source => ResourceUrl.resolve source base) = some key := by
    simp only [sources, List.mem_append, List.mem_filterMap, Option.bind_eq_some_iff]
    constructor
    · rintro ⟨source, ⟨field, hfield, text⟩ | frame, resolved⟩
      · exact .inr ⟨field, hfield, source, text, resolved⟩
      · exact .inl ⟨source, frame, resolved⟩
    · rintro (⟨source, frame, resolved⟩ | ⟨field, hfield, source, text, resolved⟩)
      · exact ⟨source, .inr frame, resolved⟩
      · exact ⟨source, .inl ⟨field, hfield, text⟩, resolved⟩
  unfold addOwn
  split
  · next streamed => simp [streamed]
  · next stored =>
    rw [mem_keys_foldl (addFrame base) fun _ _ _ => mem_keys_addFrame,
      mem_keys_foldl (addField base info) fun _ _ _ => mem_keys_addField, named, ← or_assoc]
    simp [stored]

theorem addOwn_congr {info info' : Record} (same : ∀ name, name ≠ "radio" →
    info.get? name = info'.get? name) (table : ResourceTable) :
    addOwn base info table = addOwn base info' table := by
  have flags : info.flag "stream" = info'.flag "stream" := by
    rw [Record.flag, Record.bool?, same "stream" (by decide)]
    rfl
  have frames : frameSources info = frameSources info' := by
    rw [frameSources, Record.record?, same "to" (by decide)]
    rfl
  have fields : sourceFields.foldl (addField base info) table =
      sourceFields.foldl (addField base info') table := by
    refine List.foldl_ext _ _ _ fun table field mem => ?_
    have other : field.1 ≠ "radio" := by
      revert field
      decide
    rw [addField, Record.text?, same field.1 other]
    rfl
  rw [addOwn, addOwn, flags, frames, fields]

mutual

theorem mem_keys_addTree : ∀ {e : Expansion} {table : ResourceTable},
    key ∈ (addTree base e table).keys ↔
      (∃ info ∈ e.infos, info.flag "stream" = false ∧
        ∃ source ∈ sources info, ResourceUrl.resolve source base = some key) ∨ key ∈ table.keys
  | .node info children, table => by
    rw [addTree, mem_keys_addTrees, mem_keys_addOwn, Expansion.infos, List.exists_mem_cons_iff,
      or_assoc, or_left_comm]

private theorem mem_keys_addTrees : ∀ {es : List Expansion} {table : ResourceTable},
    key ∈ (addTrees base es table).keys ↔
      (∃ info ∈ Expansion.infosAll es, info.flag "stream" = false ∧
        ∃ source ∈ sources info, ResourceUrl.resolve source base = some key) ∨ key ∈ table.keys
  | [], table => by simp [addTrees, Expansion.infosAll]
  | e :: es, table => by
    rw [addTrees, mem_keys_addTrees, mem_keys_addTree, Expansion.infosAll]
    simp only [List.mem_append, or_and_right, exists_or, ← or_assoc]
    rw [or_comm (a := ∃ info, info ∈ Expansion.infosAll es ∧ _)]

end

theorem collect_eq_collectWithin (known : Lookups) (desc : Record) :
    collect known desc = collectWithin Expansion.levelLimit known desc := by
  rw [collect, collectWithin, Expansion.ofDescriptor?_eq]

end Resources

end LayerTree
