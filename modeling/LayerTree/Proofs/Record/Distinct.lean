import LayerTree.Delegate.Table
import LayerTree.Proofs.Record.Merging

/-!
No record that is read from a document names a field twice, at any depth, and no prototype of a
table that is read does.
-/

set_option autoImplicit false
set_option relaxedAutoImplicit false

namespace LayerTree

open Json (Value)

namespace Json

/-- No record in the datum names a field twice. -/
def Value.Distinct (v : Value) : Prop := v.Over Set.univ Set.univ

namespace Value.Distinct

theorem record_of_nodup {fields : List (String × Value)} (nodup : (fields.map Prod.fst).Nodup)
    (values : ∀ f ∈ fields, f.2.Distinct) : Distinct (.record fields) :=
  Over.record nodup (fun _ _ => Set.mem_univ _) values

end Value.Distinct

variable {fields : List (String × Value)} {name : String} {value : Value}

theorem mem_setField {f : String × Value} (h : f ∈ setField fields name value) :
    f ∈ fields ∨ f = (name, value) := by
  unfold setField at h
  split at h
  · obtain ⟨g, hg, rfl⟩ := List.mem_map.mp h
    split
    · exact .inr rfl
    · exact .inl hg
  · simpa using h

theorem nodup_setField (h : (fields.map Prod.fst).Nodup) :
    ((setField fields name value).map Prod.fst).Nodup := by
  unfold setField
  split
  · have names : (fields.map fun f => if f.1 == name then (name, value) else f).map Prod.fst =
        fields.map Prod.fst := by
      rw [List.map_map]
      refine List.map_congr_left fun f _ => ?_
      by_cases same : f.1 = name
      · simp [same]
      · simp [same]
    rwa [names]
  · next missing =>
    rw [List.map_append, List.map_singleton, List.nodup_append_comm]
    refine List.nodup_cons.mpr ⟨fun there => missing ?_, h⟩
    obtain ⟨f, hf, rfl⟩ := List.mem_map.mp there
    exact List.any_eq_true.mpr ⟨f, hf, beq_self_eq_true f.1⟩

theorem record_distinct (values : ∀ f ∈ fields, f.2.Distinct) :
    Value.Distinct (.record (distinct fields)) := by
  suffices ∀ sofar : List (String × Value), (sofar.map Prod.fst).Nodup →
      (∀ f ∈ sofar, f.2.Distinct) →
      Value.Distinct (.record (fields.foldl (fun sofar f => setField sofar f.1 f.2) sofar)) from
    this [] List.nodup_nil nofun
  induction fields with
  | nil => exact fun sofar nodup made => .record_of_nodup nodup made
  | cons f fields ih =>
    obtain ⟨first, others⟩ := List.forall_mem_cons.mp values
    intro sofar nodup made
    refine ih others _ (nodup_setField nodup) fun g hg => ?_
    rcases mem_setField hg with old | rfl
    · exact made g old
    · exact first

mutual

theorem scanValue_distinct : ∀ {fuel depth : Nat} {cs rest : List Char} {v : Value},
    scanValue fuel depth cs = some (v, rest) → v.Distinct
  | 0, _, _, _, _, h => nomatch h
  | fuel + 1, depth, cs, rest, v, h => by
    unfold scanValue at h
    split at h
    · obtain ⟨_, -, same⟩ := Option.map_eq_some_iff.mp h
      obtain ⟨rfl, -⟩ := Prod.mk.inj same
      exact .null
    · obtain ⟨_, -, same⟩ := Option.map_eq_some_iff.mp h
      obtain ⟨rfl, -⟩ := Prod.mk.inj same
      exact .bool true
    · obtain ⟨_, -, same⟩ := Option.map_eq_some_iff.mp h
      obtain ⟨rfl, -⟩ := Prod.mk.inj same
      exact .bool false
    · obtain ⟨_, -, same⟩ := Option.map_eq_some_iff.mp h
      obtain ⟨rfl, -⟩ := Prod.mk.inj same
      exact .text (Set.mem_univ _)
    · split at h
      · simp at h
      split at h
      · obtain ⟨rfl, -⟩ := Prod.mk.inj (Option.some.inj h)
        exact .list nofun
      · obtain ⟨⟨items, _⟩, found, same⟩ := Option.map_eq_some_iff.mp h
        obtain ⟨rfl, -⟩ := Prod.mk.inj same
        exact .list (scanItems_distinct (List.forall_mem_nil _) found)
    · split at h
      · simp at h
      split at h
      · obtain ⟨rfl, -⟩ := Prod.mk.inj (Option.some.inj h)
        exact .record_of_nodup List.nodup_nil nofun
      · obtain ⟨⟨fields, _⟩, found, same⟩ := Option.map_eq_some_iff.mp h
        obtain ⟨rfl, -⟩ := Prod.mk.inj same
        exact record_distinct (scanFields_distinct (List.forall_mem_nil _) found)
    · obtain ⟨_, -, same⟩ := Option.map_eq_some_iff.mp h
      obtain ⟨rfl, -⟩ := Prod.mk.inj same
      exact .number (Set.mem_univ _)

private theorem scanItems_distinct : ∀ {fuel depth : Nat} {sofar items : List Value}
    {cs rest : List Char}, (∀ v ∈ sofar, v.Distinct) →
    scanItems fuel depth sofar cs = some (items, rest) → ∀ v ∈ items, v.Distinct
  | 0, _, _, _, _, _, _, h => nomatch h
  | fuel + 1, depth, sofar, items, cs, rest, made, h => by
    unfold scanItems at h
    obtain ⟨⟨item, cs'⟩, found, h⟩ := Option.bind_eq_some_iff.mp h
    have made' : ∀ v ∈ item :: sofar, v.Distinct :=
      List.forall_mem_cons.mpr ⟨scanValue_distinct found, made⟩
    dsimp only at h
    split at h
    · exact scanItems_distinct made' h
    · obtain ⟨rfl, -⟩ := Prod.mk.inj (Option.some.inj h)
      exact fun v hv => made' v (List.mem_reverse.mp hv)
    · simp at h

private theorem scanFields_distinct : ∀ {fuel depth : Nat} {sofar fields : List (String × Value)}
    {cs rest : List Char}, (∀ f ∈ sofar, f.2.Distinct) →
    scanFields fuel depth sofar cs = some (fields, rest) → ∀ f ∈ fields, f.2.Distinct
  | 0, _, _, _, _, _, _, h => nomatch h
  | fuel + 1, depth, sofar, fields, cs, rest, made, h => by
    unfold scanFields at h
    split at h
    · obtain ⟨⟨name, cs'⟩, -, h⟩ := Option.bind_eq_some_iff.mp h
      dsimp only at h
      split at h
      · obtain ⟨⟨value, cs''⟩, found, h⟩ := Option.bind_eq_some_iff.mp h
        have made' : ∀ f ∈ (name, value) :: sofar, f.2.Distinct :=
          List.forall_mem_cons.mpr ⟨scanValue_distinct found, made⟩
        dsimp only at h
        split at h
        · exact scanFields_distinct made' h
        · obtain ⟨rfl, -⟩ := Prod.mk.inj (Option.some.inj h)
          exact fun f hf => made' f (List.mem_reverse.mp hf)
        · simp at h
      · simp at h
    · simp at h

end

theorem readDocument?_distinct {document : List Char} {v : Value}
    (h : readDocument? document = some v) : v.Distinct := by
  unfold readDocument? readWithin at h
  split at h
  · next found =>
    split at h
    · obtain rfl := Option.some.inj h
      exact scanValue_distinct found
    · simp at h
  · simp at h

private theorem scanIfNamed_distinct {names : List String} {fuel : Nat} {cs rest : List Char}
    {v : Option Value} (h : scanIfNamed names fuel name cs = some (v, rest)) :
    ∀ f ∈ (v.map fun v => (name, v)).toList, f.2.Distinct := by
  unfold scanIfNamed at h
  split at h
  · obtain ⟨⟨value, _⟩, found, same⟩ := Option.map_eq_some_iff.mp h
    obtain ⟨rfl, -⟩ := Prod.mk.inj same
    simpa using scanValue_distinct found
  · obtain ⟨_, -, same⟩ := Option.map_eq_some_iff.mp h
    obtain ⟨rfl, -⟩ := Prod.mk.inj same
    simp

private theorem scanNamed_distinct {names : List String} : ∀ {fuel : Nat}
    {sofar fields : List (String × Value)} {cs rest : List Char}, (∀ f ∈ sofar, f.2.Distinct) →
    scanNamed names fuel sofar cs = some (fields, rest) → ∀ f ∈ fields, f.2.Distinct
  | 0, _, _, _, _, _, h => nomatch h
  | fuel + 1, sofar, fields, cs, rest, made, h => by
    unfold scanNamed at h
    split at h
    · obtain ⟨⟨name, cs'⟩, -, h⟩ := Option.bind_eq_some_iff.mp h
      dsimp only at h
      split at h
      · obtain ⟨⟨value, cs''⟩, found, h⟩ := Option.bind_eq_some_iff.mp h
        have made' := List.forall_mem_append.mpr ⟨scanIfNamed_distinct found, made⟩
        dsimp only at h
        split at h
        · exact scanNamed_distinct made' h
        · obtain ⟨rfl, -⟩ := Prod.mk.inj (Option.some.inj h)
          exact fun f hf => made' f (List.mem_reverse.mp hf)
        · simp at h
      · simp at h
    · simp at h

theorem readFields?_distinct {names : List String} {document : List Char}
    (h : readFields? names document = some fields) : ∀ f ∈ fields, f.2.Distinct := by
  unfold readFields? at h
  split at h
  · split at h
    · split at h
      · obtain rfl := Option.some.inj h
        exact List.forall_mem_nil _
      · simp at h
    · split at h
      · next found =>
        split at h
        · obtain rfl := Option.some.inj h
          exact scanNamed_distinct (List.forall_mem_nil _) found
        · simp at h
      · simp at h
  · simp at h

end Json

def Record.Distinct (r : Record) : Prop := r.toValue.Distinct

theorem Record.distinct_of_read {text : String} {r : Record} (h : read text = .ok r) :
    r.Distinct := by
  unfold read at h
  split at h
  · simp at h
  · next value found =>
    have made := Json.readDocument?_distinct found
    split at h
    · simp at h
    · next r' hr =>
      obtain rfl := Except.ok.inj h
      obtain rfl := eq_toValue_of_ofValue? hr
      exact made

namespace DelegateTable

def Distinct (t : DelegateTable) : Prop := ∀ p ∈ t.prototypes, p.2.Distinct

private theorem exists_mem_of_mapM {β γ : Type} {f : β → Option γ} :
    ∀ {l : List β} {ys : List γ}, l.mapM f = some ys → ∀ y ∈ ys, ∃ x ∈ l, f x = some y
  | [], ys, h, y, hy => by
    obtain rfl := Option.some.inj h
    nomatch hy
  | x :: l, ys, h, y, hy => by
    rw [List.mapM_cons, Option.bind_eq_bind, Option.bind_eq_some_iff] at h
    obtain ⟨first, here, h⟩ := h
    rw [Option.bind_eq_bind, Option.bind_eq_some_iff] at h
    obtain ⟨others, there, h⟩ := h
    obtain rfl := Option.some.inj h
    rcases List.mem_cons.mp hy with rfl | below
    · exact ⟨x, List.mem_cons_self, here⟩
    · obtain ⟨x', hx', eq⟩ := exists_mem_of_mapM there y below
      exact ⟨x', List.mem_cons_of_mem x hx', eq⟩

private theorem distinct_of_prototypes? {v : Value} {prototypes : List (String × Record)}
    (made : v.Distinct) (h : prototypes? v = some prototypes) :
    ∀ p ∈ prototypes, p.2.Distinct := by
  unfold prototypes? at h
  split at h
  · intro p hp
    obtain ⟨⟨name, value⟩, hf, read⟩ := exists_mem_of_mapM h p hp
    obtain ⟨r, hr, rfl⟩ := Option.map_eq_some_iff.mp read
    obtain rfl := Record.eq_toValue_of_ofValue? hr
    exact made.values _ hf
  · simp at h

private theorem distinct_of_ofParts
    {prototypes paths baseUrl repeatVideo plainMarkdown : Option Value} {t : DelegateTable}
    (made : ∀ v, prototypes = some v → v.Distinct)
    (h : ofParts prototypes paths baseUrl repeatVideo plainMarkdown = some t) : t.Distinct := by
  unfold ofParts at h
  simp only [Option.bind_eq_bind, Option.bind_eq_some_iff] at h
  obtain ⟨known, hknown, _, -, _, -, _, -, _, -, same⟩ := h
  obtain rfl := Option.some.inj same
  cases prototypes with
  | none =>
    obtain rfl := Option.some.inj hknown
    exact List.forall_mem_nil _
  | some v => exact distinct_of_prototypes? (made v rfl) hknown

private theorem distinct_of_ofValue? {v : Value} {t : DelegateTable}
    (fields : ∀ fields, v = .record fields → ∀ f ∈ fields, f.2.Distinct)
    (items : ∀ items, v = .list items → ∀ u ∈ items, u.Distinct) (h : ofValue? v = some t) :
    t.Distinct := by
  cases v with
  | record parts =>
    exact distinct_of_ofParts (fun u found => fields parts rfl _ (Record.mem_of_lookup found)) h
  | list parts =>
    rw [ofValue?] at h
    split at h
    · exact distinct_of_ofParts (fun u found => items parts rfl u (List.mem_of_getElem? found)) h
    · simp at h
  | _ => simp [ofValue?] at h

theorem distinct_of_readDocument {document : List Char} {t : DelegateTable}
    (h : readDocument document = .ok t) : t.Distinct := by
  unfold readDocument at h
  dsimp only at h
  split at h
  · next table found =>
    obtain rfl := Except.ok.inj h
    obtain ⟨v, hv, read⟩ := Option.bind_eq_some_iff.mp found
    split at hv
    · next fields hfields =>
      split at hv
      · obtain rfl := Option.some.inj hv
        refine distinct_of_ofValue? ?_ (by simp) read
        rintro _ ⟨⟩
        exact Json.readFields?_distinct hfields
      · simp at hv
    · have made := Json.readDocument?_distinct hv
      refine distinct_of_ofValue? ?_ ?_ read
      · rintro fields rfl
        exact made.values
      · rintro items rfl
        exact made.of_mem_list
  · simp at h

end DelegateTable

end LayerTree
