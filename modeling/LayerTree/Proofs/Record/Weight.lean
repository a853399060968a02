import LayerTree.Json
import Mathlib.Data.Set.Finite.Lattice
import Mathlib.Data.Set.Finite.List

/-!
What data are made of, and how much there is in them.

Every datum is made of finitely many numbers and texts, and of these only finitely many data of
bounded weight can be made.
-/

set_option autoImplicit false
set_option relaxedAutoImplicit false

namespace LayerTree

open Json (Value Number)

namespace Json.Value

/-- The datum is made of these numbers and these texts, and no record in it names a field twice. -/
inductive Over (numbers : Set Number) (texts : Set String) : Value → Prop
  | null : Over numbers texts .null
  | bool (b : Bool) : Over numbers texts (.bool b)
  | number {n : Number} : n ∈ numbers → Over numbers texts (.number n)
  | text {s : String} : s ∈ texts → Over numbers texts (.text s)
  | list {items : List Value} : (∀ v ∈ items, Over numbers texts v) →
      Over numbers texts (.list items)
  | record {fields : List (String × Value)} : (fields.map Prod.fst).Nodup →
      (∀ f ∈ fields, f.1 ∈ texts) → (∀ f ∈ fields, Over numbers texts f.2) →
      Over numbers texts (.record fields)

namespace Over

variable {numbers : Set Number} {texts : Set String}

theorem of_mem_list {items : List Value} (h : Over numbers texts (.list items)) :
    ∀ v ∈ items, Over numbers texts v := by
  cases h with
  | list made => exact made

variable {fields : List (String × Value)} (h : Over numbers texts (.record fields))

include h

theorem nodup : (fields.map Prod.fst).Nodup := by
  cases h with
  | record nodup _ _ => exact nodup

theorem names : ∀ f ∈ fields, f.1 ∈ texts := by
  cases h with
  | record _ names _ => exact names

theorem values : ∀ f ∈ fields, Over numbers texts f.2 := by
  cases h with
  | record _ _ values => exact values

end Over

mutual

/-- How much there is in a datum; what is in a list counts twice. -/
def weight : Value → Nat
  | .null => 1
  | .bool _ => 1
  | .number _ => 1
  | .text _ => 1
  | .list items => 1 + 2 * weightItems items
  | .record fields => 1 + weightFields fields

def weightItems : List Value → Nat
  | [] => 0
  | v :: vs => weight v + weightItems vs

def weightFields : List (String × Value) → Nat
  | [] => 0
  | (_, v) :: fs => 1 + weight v + weightFields fs

end

def weightOpt : Option Value → Nat
  | none => 0
  | some v => weight v

@[simp] theorem weight_list (items : List Value) :
    weight (.list items) = 1 + 2 * weightItems items := rfl

@[simp] theorem weight_record (fields : List (String × Value)) :
    weight (.record fields) = 1 + weightFields fields := rfl

@[simp] theorem weightItems_nil : weightItems [] = 0 := rfl

@[simp] theorem weightItems_cons (v : Value) (vs : List Value) :
    weightItems (v :: vs) = weight v + weightItems vs := rfl

@[simp] theorem weightFields_nil : weightFields [] = 0 := rfl

@[simp] theorem weightFields_cons (f : String × Value) (fs : List (String × Value)) :
    weightFields (f :: fs) = 1 + weight f.2 + weightFields fs := rfl

theorem weight_pos (v : Value) : 0 < weight v := by
  cases v <;> simp only [weight] <;> omega

@[simp] theorem weightItems_append (vs us : List Value) :
    weightItems (vs ++ us) = weightItems vs + weightItems us := by
  induction vs with
  | nil => simp
  | cons v vs ih => simp [ih, Nat.add_assoc]

@[simp] theorem weightFields_append (fs gs : List (String × Value)) :
    weightFields (fs ++ gs) = weightFields fs + weightFields gs := by
  induction fs with
  | nil => simp
  | cons f fs ih => simp [ih, Nat.add_assoc]

theorem weight_le_weightItems {v : Value} {vs : List Value} (h : v ∈ vs) :
    weight v ≤ weightItems vs := by
  obtain ⟨before, after, rfl⟩ := List.append_of_mem h
  simp only [weightItems_append, weightItems_cons]
  omega

theorem weight_le_weightFields {f : String × Value} {fs : List (String × Value)} (h : f ∈ fs) :
    weight f.2 < weightFields fs := by
  obtain ⟨before, after, rfl⟩ := List.append_of_mem h
  simp only [weightFields_append, weightFields_cons]
  omega

theorem length_le_weightItems (vs : List Value) : vs.length ≤ weightItems vs := by
  induction vs with
  | nil => simp
  | cons v vs ih =>
    have pos := weight_pos v
    simp only [List.length_cons, weightItems_cons]
    omega

theorem length_le_weightFields (fs : List (String × Value)) : fs.length ≤ weightFields fs := by
  induction fs with
  | nil => simp
  | cons f fs ih =>
    simp only [List.length_cons, weightFields_cons]
    omega

theorem weightFields_le_of_sublist {fs gs : List (String × Value)} (h : fs.Sublist gs) :
    weightFields fs ≤ weightFields gs := by
  induction h with
  | slnil => exact Nat.le_refl _
  | cons f _ ih => exact Nat.le_add_left_of_le ih
  | cons_cons f _ ih => exact Nat.add_le_add_left ih _

theorem weightItems_set {vs : List Value} {place : Nat} {u : Value} {w : Nat}
    (here : place < vs.length) (h : weight u ≤ w + weight (vs.getD place .null)) :
    weightItems (vs.set place u) ≤ w + weightItems vs := by
  induction vs generalizing place with
  | nil => simp at here
  | cons v vs ih =>
    cases place with
    | zero =>
      simp only [List.getD_cons_zero] at h
      simp only [List.set_cons_zero, weightItems_cons]
      omega
    | succ place =>
      have rest := ih (by simpa using here) (by simpa using h)
      simp only [List.set_cons_succ, weightItems_cons]
      omega

variable {numbers : Set Number} {texts : Set String}

private theorem finite_lists {β : Type} {s : Set β} (h : s.Finite) (n : Nat) :
    {l : List β | l.length ≤ n ∧ ∀ x ∈ l, x ∈ s}.Finite := by
  have := h.to_subtype
  refine ((List.finite_length_le s n).image (List.map Subtype.val)).subset ?_
  rintro l ⟨short, all⟩
  lift l to List s using all
  exact ⟨l, by simpa using short, rfl⟩

/-- There are finitely many data of bounded weight. -/
theorem finite_over (hn : numbers.Finite) (ht : texts.Finite) :
    ∀ n, {v | Over numbers texts v ∧ weight v ≤ n}.Finite
  | 0 => by
    refine Set.Finite.subset Set.finite_empty ?_
    rintro v ⟨-, light⟩
    exact absurd light (Nat.not_le_of_lt (weight_pos v))
  | n + 1 => by
    -- a list and a record weigh more than each part of them and more than their length
    have below := finite_over hn ht n
    have atoms := (((Set.finite_singleton Value.null).union
      (Set.toFinite (Set.range Value.bool))).union (hn.image .number)).union (ht.image .text)
    have lists := (finite_lists below n).image Value.list
    have records := (finite_lists (ht.prod below) n).image Value.record
    refine ((atoms.union lists).union records).subset ?_
    rintro v ⟨made, light⟩
    cases made with
    | null => simp
    | bool b => simp
    | number h => simp [h]
    | text h => simp [h]
    | @list items all =>
      refine .inl (.inr ⟨items, ⟨?_, fun v hv => ⟨all v hv, ?_⟩⟩, rfl⟩)
      · have short := length_le_weightItems items
        simp only [weight_list] at light
        omega
      · have piece := weight_le_weightItems hv
        simp only [weight_list] at light
        omega
    | @record fields nodup names values =>
      refine .inr ⟨fields, ⟨?_, fun f hf => ⟨names f hf, values f hf, ?_⟩⟩, rfl⟩
      · have short := length_le_weightFields fields
        simp only [weight_record] at light
        omega
      · have piece := weight_le_weightFields hf
        simp only [weight_record] at light
        omega

theorem Over.mono {numbers' : Set Number} {texts' : Set String} (hn : numbers ⊆ numbers')
    (ht : texts ⊆ texts') {v : Value} (h : Over numbers texts v) : Over numbers' texts' v := by
  induction h with
  | null => exact .null
  | bool b => exact .bool b
  | number h => exact .number (hn h)
  | text h => exact .text (ht h)
  | list _ ih => exact .list ih
  | record nodup names _ ih => exact .record nodup (fun f hf => ht (names f hf)) ih

theorem Over.exists_finite {v : Value} (h : Over numbers texts v) :
    ∃ (numbers' : Set Number) (texts' : Set String), numbers'.Finite ∧ texts'.Finite ∧
      Over numbers' texts' v := by
  induction h with
  | null => exact ⟨∅, ∅, Set.finite_empty, Set.finite_empty, .null⟩
  | bool b => exact ⟨∅, ∅, Set.finite_empty, Set.finite_empty, .bool b⟩
  | @number n _ => exact ⟨{n}, ∅, Set.finite_singleton n, Set.finite_empty, .number rfl⟩
  | @text s _ => exact ⟨∅, {s}, Set.finite_empty, Set.finite_singleton s, .text rfl⟩
  | @list items _ ih =>
    choose N T hN hT made using ih
    refine ⟨⋃ v ∈ {v | v ∈ items}, N v ‹_›, ⋃ v ∈ {v | v ∈ items}, T v ‹_›,
      (List.finite_toSet items).biUnion' hN, (List.finite_toSet items).biUnion' hT,
      .list fun v hv => (made v hv).mono ?_ ?_⟩
    · exact fun n hn => Set.mem_iUnion₂.mpr ⟨v, hv, hn⟩
    · exact fun s hs => Set.mem_iUnion₂.mpr ⟨v, hv, hs⟩
  | @record fields nodup _ _ ih =>
    choose N T hN hT made using ih
    refine ⟨⋃ f ∈ {f | f ∈ fields}, N f ‹_›,
      {name | name ∈ fields.map Prod.fst} ∪ ⋃ f ∈ {f | f ∈ fields}, T f ‹_›,
      (List.finite_toSet fields).biUnion' hN,
      (List.finite_toSet _).union ((List.finite_toSet fields).biUnion' hT),
      .record nodup (fun f hf => .inl (List.mem_map_of_mem hf)) fun f hf => (made f hf).mono ?_ ?_⟩
    · exact fun n hn => Set.mem_iUnion₂.mpr ⟨f, hf, hn⟩
    · exact fun s hs => .inr (Set.mem_iUnion₂.mpr ⟨f, hf, hs⟩)

end Json.Value

end LayerTree
