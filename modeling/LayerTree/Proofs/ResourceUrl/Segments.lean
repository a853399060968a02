import LayerTree.ResourceUrl
import Mathlib.Data.List.Basic

/-!
Segments of a path.

A normalised path is made of the segments that are left of a walk, none of which is empty or a dot
segment. It starts at the root if and only if the path did.
-/

set_option autoImplicit false
set_option relaxedAutoImplicit false

namespace LayerTree

namespace Text

variable {separator : Char} {cs : List Char}

theorem not_mem_of_mem_splitAll {part : List Char} (h : part ∈ splitAll separator cs) :
    separator ∉ part := by
  induction cs generalizing part with
  | nil =>
    obtain rfl : part = [] := by simpa [splitAll] using h
    exact List.not_mem_nil
  | cons c cs ih =>
    unfold splitAll at h
    split at h
    · rcases List.mem_cons.mp h with rfl | later
      · exact List.not_mem_nil
      · exact ih later
    · next other =>
      have apart : separator ≠ c := fun same => other (by simp [same])
      split at h
      · obtain rfl : part = [c] := by simpa using h
        simpa using apart
      · next first parts eq =>
        rcases List.mem_cons.mp h with rfl | later
        · have within := ih (eq ▸ List.mem_cons_self)
          simp [apart, within]
        · exact ih (eq ▸ List.mem_cons_of_mem _ later)

theorem splitFirst?_eq_none : splitFirst? separator cs = none ↔ separator ∉ cs := by
  induction cs with
  | nil => simp [splitFirst?]
  | cons c cs ih =>
    by_cases here : c = separator
    · simp [splitFirst?, here]
    · simp [splitFirst?, here, ih, Ne.symm here]

theorem splitFirst?_append {before after : List Char} (h : separator ∉ before) :
    splitFirst? separator (before ++ separator :: after) = some (before, after) := by
  induction before with
  | nil => simp [splitFirst?]
  | cons c before ih =>
    obtain ⟨other, rest⟩ : separator ≠ c ∧ separator ∉ before := by simpa using h
    simp [splitFirst?, other.symm, ih rest]

theorem splitFirst?_eq_some {before after : List Char}
    (h : splitFirst? separator cs = some (before, after)) : cs = before ++ separator :: after := by
  induction cs generalizing before with
  | nil => simp [splitFirst?] at h
  | cons c cs ih =>
    unfold splitFirst? at h
    split at h
    · next here =>
      obtain ⟨rfl, rfl⟩ : [] = before ∧ cs = after := by simpa using h
      simpa using here
    · obtain ⟨⟨first, rest⟩, eq, same⟩ := Option.map_eq_some_iff.mp h
      obtain ⟨rfl, rfl⟩ := Prod.mk.inj same
      rw [ih eq, List.cons_append]

theorem splitLast?_eq_none : splitLast? separator cs = none ↔ separator ∉ cs := by
  rw [splitLast?, Option.map_eq_none_iff, splitFirst?_eq_none, List.mem_reverse]

theorem splitLast?_eq_some {before after : List Char}
    (h : splitLast? separator cs = some (before, after)) : cs = before ++ separator :: after := by
  obtain ⟨⟨last, first⟩, eq, same⟩ := Option.map_eq_some_iff.mp h
  obtain ⟨rfl, rfl⟩ := Prod.mk.inj same
  rw [← List.reverse_reverse cs, splitFirst?_eq_some eq]
  simp

end Text

namespace ResourceUrl

structure IsSegment (segment : List Char) : Prop where
  whole : '/' ∉ segment
  nonempty : segment ≠ []
  moves : segment ≠ ['.'] ∧ segment ≠ ['.', '.']

theorem walk_keeps {kept : List (List Char)} (proper : ∀ s ∈ kept, IsSegment s)
    {segment : List Char} (whole : '/' ∉ segment) : ∀ s ∈ walk kept segment, IsSegment s := by
  unfold walk
  split
  · exact proper
  · next stays =>
    split
    · exact fun s hs => proper s (List.mem_of_mem_tail hs)
    · next back =>
      have here : IsSegment segment := by
        simp only [Bool.or_eq_true, beq_iff_eq, not_or] at stays back
        exact ⟨whole, stays.1, stays.2, back⟩
      exact List.forall_mem_cons.mpr ⟨here, proper⟩

theorem foldl_walk_keeps {parts : List (List Char)} (whole : ∀ part ∈ parts, '/' ∉ part)
    {kept : List (List Char)} (proper : ∀ s ∈ kept, IsSegment s) :
    ∀ s ∈ parts.foldl walk kept, IsSegment s := by
  induction parts generalizing kept with
  | nil => exact proper
  | cons part parts ih =>
    obtain ⟨first, others⟩ := List.forall_mem_cons.mp whole
    exact ih others (walk_keeps proper first)

/-- The segments that are left of a path. -/
def segments (path : List Char) : List (List Char) :=
  ((Text.splitAll '/' path).foldl walk []).reverse

theorem isSegment_of_mem_segments {path segment : List Char} (h : segment ∈ segments path) :
    IsSegment segment :=
  foldl_walk_keeps (fun _ => Text.not_mem_of_mem_splitAll) (by simp) segment
    (List.mem_reverse.mp h)

theorem head?_joinWith_ne {parts : List (List Char)} (proper : ∀ s ∈ parts, IsSegment s)
    (others : List Char) (joined : Text.joinWith '/' parts ≠ []) :
    (Text.joinWith '/' parts ++ others).head? ≠ some '/' := by
  cases parts with
  | nil => simp [Text.joinWith] at joined
  | cons part parts =>
    obtain ⟨whole, nonempty, -⟩ := proper part List.mem_cons_self
    obtain ⟨c, rest, rfl⟩ := List.exists_cons_of_ne_nil nonempty
    have other : c ≠ '/' := fun same => whole (by simp [same])
    cases parts <;> simpa [Text.joinWith] using other

theorem head?_normalize (path : List Char) :
    (normalize path).head? = some '/' ↔ path.head? = some '/' := by
  have relative := head?_joinWith_ne fun (segment : List Char) (mem : segment ∈ segments path) =>
    isSegment_of_mem_segments mem
  simp only [normalize, ← segments.eq_def]
  by_cases rooted : path.head? = some '/'
  · simp [rooted]
  · rw [if_neg (by simpa using rooted)]
    refine iff_of_false ?_ rooted
    by_cases joined : Text.joinWith '/' (segments path) = []
    · simp [joined]
    · split
      · exact relative ['/'] joined
      · simpa using relative [] joined

end ResourceUrl

end LayerTree
