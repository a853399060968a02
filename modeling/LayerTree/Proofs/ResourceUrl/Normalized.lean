import LayerTree.Proofs.ResourceUrl.Suffix

/-!
Normal paths.

The parts of a path are walked on a stack of segments. What is left of them, with a slash at the
ends where the path had one, is the normalised path. It is made of segments alone, so that to
normalise it again walks straight down and changes nothing.
-/

set_option autoImplicit false
set_option relaxedAutoImplicit false

namespace LayerTree

namespace Text

variable {separator : Char}

theorem joinWith_cons_cons (separator : Char) (first next : List Char) (parts : List (List Char)) :
    joinWith separator (first :: next :: parts) =
      first ++ separator :: joinWith separator (next :: parts) :=
  rfl

theorem joinWith_cons_head (separator c : Char) (part : List Char) (parts : List (List Char)) :
    joinWith separator ((c :: part) :: parts) = c :: joinWith separator (part :: parts) := by
  cases parts <;> rfl

theorem joinWith_splitAll (cs : List Char) : joinWith separator (splitAll separator cs) = cs := by
  induction cs with
  | nil => rfl
  | cons c cs ih =>
    obtain ⟨part, parts, eq⟩ := List.exists_cons_of_ne_nil (splitAll_ne_nil separator cs)
    rw [eq] at ih
    by_cases here : c = separator
    · subst here
      rw [splitAll, if_pos (beq_self_eq_true c), eq, joinWith_cons_cons, ih, List.nil_append]
    · rw [splitAll, if_neg (by simpa using here), eq]
      dsimp only
      rw [joinWith_cons_head, ih]

end Text

namespace ResourceUrl

/-- Where the parts of a path lead to from a stack of segments, whose top is at its end. -/
inductive Leads : List (List Char) → List (List Char) → List (List Char) → Prop
  | arrived (stack : List (List Char)) : Leads stack [] stack
  /-- An empty part and a dot stay in place. -/
  | stay {stack parts arrival : List (List Char)} {part : List Char}
      (idle : part = [] ∨ part = ['.']) (onward : Leads stack parts arrival) :
      Leads stack (part :: parts) arrival
  /-- Two dots take the top away. -/
  | back {stack parts arrival : List (List Char)} (top : List Char)
      (onward : Leads stack parts arrival) :
      Leads (stack ++ [top]) (['.', '.'] :: parts) arrival
  /-- At the root there is nothing that they could take away. -/
  | root {parts arrival : List (List Char)} (onward : Leads [] parts arrival) :
      Leads [] (['.', '.'] :: parts) arrival
  | enter {stack parts arrival : List (List Char)} {part : List Char} (named : part ≠ [])
      (moves : part ≠ ['.'] ∧ part ≠ ['.', '.']) (onward : Leads (stack ++ [part]) parts arrival) :
      Leads stack (part :: parts) arrival

theorem leads_foldl_walk (parts kept : List (List Char)) :
    Leads kept.reverse parts (parts.foldl walk kept).reverse := by
  induction parts generalizing kept with
  | nil => exact .arrived _
  | cons part parts ih =>
    have onward := ih (walk kept part)
    rw [List.foldl_cons]
    by_cases idle : part = [] ∨ part = ['.']
    · have still : walk kept part = kept := if_pos (by simpa using idle)
      rw [still] at onward ⊢
      exact .stay idle onward
    · obtain ⟨named, here⟩ := not_or.mp idle
      by_cases back : part = ['.', '.']
      · subst back
        cases kept with
        | nil => exact .root onward
        | cons top kept => simpa [walk] using Leads.back top onward
      · have entered : walk kept part = part :: kept := by simp [walk, named, here, back]
        rw [entered, List.reverse_cons] at onward
        rw [entered]
        exact .enter named ⟨here, back⟩ onward

theorem Leads.eq_foldl_walk {stack parts arrival : List (List Char)}
    (h : Leads stack parts arrival) :
    arrival = (parts.foldl walk stack.reverse).reverse := by
  induction h with
  | arrived stack => simp
  | stay idle _ ih =>
    rw [ih, List.foldl_cons]
    rcases idle with rfl | rfl <;> rfl
  | back top _ ih =>
    rw [ih, List.foldl_cons, List.reverse_append]
    rfl
  | root _ ih => exact ih
  | enter named moves _ ih =>
    rw [ih, List.foldl_cons, List.reverse_append]
    simp [walk, named, moves]

/-- The segments that are left of a path are those that its parts lead to from the root. -/
theorem leads_iff_eq_segments (path : List Char) (arrival : List (List Char)) :
    Leads [] (Text.splitAll '/' path) arrival ↔ arrival = segments path := by
  constructor
  · intro led
    exact led.eq_foldl_walk
  · rintro rfl
    exact leads_foldl_walk _ []

/-- The path of given segments, with a slash before them and one after the last of them if asked
for. -/
def assembled (rooted closed : Bool) (kept : List (List Char)) : List Char :=
  (if rooted then ['/'] else []) ++
    (Text.joinWith '/' kept ++ if closed && !kept.isEmpty then ['/'] else [])

section

variable {kept : List (List Char)} (proper : ∀ s ∈ kept, IsSegment s)

include proper

theorem joinWith_eq_nil : Text.joinWith '/' kept = [] ↔ kept = [] := by
  cases kept with
  | nil => exact iff_of_true rfl rfl
  | cons segment kept =>
    have nonempty := (proper segment List.mem_cons_self).nonempty
    cases kept <;> simp [Text.joinWith, nonempty]

theorem getLast?_joinWith_ne : (Text.joinWith '/' kept).getLast? ≠ some '/' := by
  induction kept with
  | nil => simp [Text.joinWith]
  | cons segment kept ih =>
    obtain ⟨first, others⟩ := List.forall_mem_cons.mp proper
    cases kept with
    | nil => exact fun last => first.whole (List.mem_of_getLast? last)
    | cons next kept =>
      have nonempty : Text.joinWith '/' (next :: kept) ≠ [] := by
        simp [joinWith_eq_nil others]
      rw [Text.joinWith_cons_cons, List.getLast?_append, List.getLast?_cons_of_ne_nil nonempty,
        List.getLast?_eq_some_getLast nonempty, Option.some_or,
        ← List.getLast?_eq_some_getLast nonempty]
      exact ih others

theorem segments_assembled (rooted closed : Bool) :
    segments (assembled rooted closed kept) = kept := by
  have behind : segments
      (Text.joinWith '/' kept ++ if closed && !kept.isEmpty then ['/'] else []) = kept := by
    split
    · rw [segments_append_slash, segments_joinWith proper]
    · rw [List.append_nil, segments_joinWith proper]
  unfold assembled
  cases rooted with
  | false => exact behind
  | true => exact (segments_cons_slash _).trans behind

theorem head?_assembled (rooted closed : Bool) :
    (assembled rooted closed kept).head? = some '/' ↔ rooted = true := by
  cases rooted with
  | true => simp [assembled]
  | false =>
    refine iff_of_false ?_ Bool.false_ne_true
    by_cases empty : kept = []
    · simp [assembled, empty, Text.joinWith]
    · have nonempty : Text.joinWith '/' kept ≠ [] := (joinWith_eq_nil proper).not.mpr empty
      simpa [assembled] using head?_joinWith_ne proper _ nonempty

theorem getLast?_assembled (rooted closed : Bool) (nonempty : kept ≠ []) :
    (assembled rooted closed kept).getLast? = some '/' ↔ closed = true := by
  have joined : Text.joinWith '/' kept ≠ [] := (joinWith_eq_nil proper).not.mpr nonempty
  cases closed with
  | true => simp [assembled, nonempty]
  | false =>
    refine iff_of_false ?_ Bool.false_ne_true
    have last := getLast?_joinWith_ne proper
    simpa [assembled, List.getLast?_append, List.getLast?_eq_some_getLast joined] using last

end

theorem normalize_eq_assembled (path : List Char) :
    normalize path =
      assembled (path.head? == some '/') (path.getLast? == some '/') (segments path) := by
  have proper : ∀ s ∈ segments path, IsSegment s := fun _ => isSegment_of_mem_segments
  have empty : (Text.joinWith '/' (segments path)).isEmpty = (segments path).isEmpty := by
    rw [Bool.eq_iff_iff, List.isEmpty_iff, List.isEmpty_iff, joinWith_eq_nil proper]
  rw [normalize_eq]
  simp only [empty, assembled]
  split <;> split <;> simp

theorem normalize_assembled {kept : List (List Char)} (proper : ∀ s ∈ kept, IsSegment s)
    (rooted closed : Bool) :
    normalize (assembled rooted closed kept) = assembled rooted closed kept := by
  have first : ((assembled rooted closed kept).head? == some '/') = rooted := by
    rw [Bool.eq_iff_iff, beq_iff_eq, head?_assembled proper]
  rw [normalize_eq_assembled, segments_assembled proper, first]
  by_cases empty : kept = []
  · simp [empty, assembled]
  · have last : ((assembled rooted closed kept).getLast? == some '/') = closed := by
      rw [Bool.eq_iff_iff, beq_iff_eq, getLast?_assembled proper rooted closed empty]
    rw [last]

structure NormalisedTo (path result : List Char) (kept : List (List Char)) : Prop where
  /-- The parts of the path, walked from the root, lead to the segments that are kept, and to
  nothing else. -/
  walked : ∃ parts, parts ≠ [] ∧ (∀ part ∈ parts, '/' ∉ part) ∧ Text.joinWith '/' parts = path ∧
    ∀ arrival, Leads [] parts arrival ↔ arrival = kept
  /-- No segment is empty, a dot or two dots. -/
  proper : ∀ s ∈ kept, IsSegment s
  /-- Nothing but the segments is in the result, and a slash at the ends. -/
  whole : ∃ rooted closed, result = assembled rooted closed kept
  rooted : result.head? = some '/' ↔ path.head? = some '/'
  closed : kept ≠ [] → (result.getLast? = some '/' ↔ path.getLast? = some '/')
  stable : normalize result = result

/-- Every path is normalised to what walking it leaves. -/
theorem normalisedTo_normalize (path : List Char) :
    NormalisedTo path (normalize path) (segments path) := by
  have proper : ∀ s ∈ segments path, IsSegment s := fun _ => isSegment_of_mem_segments
  refine ⟨⟨Text.splitAll '/' path, Text.splitAll_ne_nil _ _,
      fun _ => Text.not_mem_of_mem_splitAll, Text.joinWith_splitAll path,
      leads_iff_eq_segments path⟩, proper,
    ⟨_, _, normalize_eq_assembled path⟩, head?_normalize path, fun nonempty => ?_, ?_⟩
  · rw [normalize_eq_assembled, getLast?_assembled proper _ _ nonempty, beq_iff_eq]
  · rw [normalize_eq_assembled path, normalize_assembled proper]

/-- Dots past the root, repeated slashes and a slash at the end. -/
example : normalize "/../a//./b/c/../".toList = "/a/b/".toList := by decide

end ResourceUrl

end LayerTree
