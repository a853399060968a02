import LayerTree.Proofs.ResourceUrl.Origin

/-!
What follows the path of a base.

A base may go on with a query or a fragment after its path. Resolution does not tell them apart from
the path: it goes by the last slash of the whole. So they play no part while they have no slash.
With one they are taken for directories, and play no part only as far as they lead back.
-/

set_option autoImplicit false
set_option relaxedAutoImplicit false

namespace LayerTree

namespace Text

variable {separator : Char}

theorem splitAll_ne_nil (separator : Char) (cs : List Char) : splitAll separator cs ≠ [] := by
  cases cs with
  | nil => exact List.cons_ne_nil _ _
  | cons c cs =>
    unfold splitAll
    split
    · exact List.cons_ne_nil _ _
    · split <;> exact List.cons_ne_nil _ _

theorem splitAll_append_cons (before after : List Char) :
    splitAll separator (before ++ separator :: after) =
      splitAll separator before ++ splitAll separator after := by
  induction before with
  | nil => simp [splitAll]
  | cons c before ih =>
    by_cases here : c = separator
    · simp [splitAll, here, ih]
    · obtain ⟨part, parts, eq⟩ := List.exists_cons_of_ne_nil (splitAll_ne_nil separator before)
      simp [splitAll, here, ih, eq]

theorem splitAll_of_not_mem {cs : List Char} (whole : separator ∉ cs) :
    splitAll separator cs = [cs] := by
  induction cs with
  | nil => rfl
  | cons c cs ih =>
    obtain ⟨other, rest⟩ : separator ≠ c ∧ separator ∉ cs := by simpa using whole
    simp [splitAll, other.symm, ih rest]

theorem splitLast?_append {before after : List Char} (whole : separator ∉ after) :
    splitLast? separator (before ++ separator :: after) = some (before, after) := by
  have turned : (before ++ separator :: after).reverse =
      after.reverse ++ separator :: before.reverse := by
    simp
  rw [splitLast?, turned, splitFirst?_append (by simpa using whole)]
  simp

theorem exists_last {cs : List Char} (mem : separator ∈ cs) :
    ∃ before after, cs = before ++ separator :: after ∧ separator ∉ after := by
  obtain ⟨after, before, turned, whole⟩ :=
    List.eq_append_cons_of_mem (List.mem_reverse.mpr mem)
  refine ⟨before.reverse, after.reverse, ?_, by simpa using whole⟩
  rw [← List.reverse_reverse cs, turned]
  simp

end Text

namespace ResourceUrl

/-- The segments that the parts of a path lead to from given ones. -/
def lead (start : List (List Char)) (path : List Char) : List (List Char) :=
  ((Text.splitAll '/' path).foldl walk start.reverse).reverse

theorem segments_append_cons (before after : List Char) :
    segments (before ++ '/' :: after) = lead (segments before) after := by
  simp only [segments, lead, Text.splitAll_append_cons, List.foldl_append, List.reverse_reverse]

theorem lead_nil (start : List (List Char)) : lead start [] = start := by
  simp [lead, Text.splitAll, walk]

theorem segments_cons_slash (path : List Char) : segments ('/' :: path) = segments path := by
  simp [segments, Text.splitAll, walk]

theorem walk_of_isSegment {segment : List Char} (proper : IsSegment segment)
    (kept : List (List Char)) : walk kept segment = segment :: kept := by
  obtain ⟨-, nonempty, here, back⟩ := proper
  simp [walk, nonempty, here, back]

theorem lead_of_isSegment {segment : List Char} (proper : IsSegment segment)
    (start : List (List Char)) : lead start segment = start ++ [segment] := by
  simp [lead, Text.splitAll_of_not_mem proper.whole, walk_of_isSegment proper]

theorem foldl_walk_joinWith {kept : List (List Char)} (proper : ∀ s ∈ kept, IsSegment s)
    (start : List (List Char)) :
    (Text.splitAll '/' (Text.joinWith '/' kept)).foldl walk start = kept.reverse ++ start := by
  induction kept generalizing start with
  | nil => simp [Text.joinWith, Text.splitAll, walk]
  | cons segment kept ih =>
    obtain ⟨first, others⟩ := List.forall_mem_cons.mp proper
    have alone := Text.splitAll_of_not_mem first.whole
    cases kept with
    | nil => simp [Text.joinWith, alone, walk_of_isSegment first]
    | cons next kept =>
      simp only [Text.joinWith, Text.splitAll_append_cons, alone, List.foldl_append,
        List.foldl_cons, List.foldl_nil, walk_of_isSegment first] at ih ⊢
      rw [ih others]
      simp

theorem segments_joinWith {kept : List (List Char)} (proper : ∀ s ∈ kept, IsSegment s) :
    segments (Text.joinWith '/' kept) = kept := by
  rw [segments, foldl_walk_joinWith proper, List.append_nil, List.reverse_reverse]

theorem segments_append_slash (path : List Char) : segments (path ++ ['/']) = segments path := by
  rw [segments_append_cons, lead_nil]

/-- Normalising a path keeps its segments. -/
theorem segments_normalize (path : List Char) : segments (normalize path) = segments path := by
  have joined : segments (Text.joinWith '/' (segments path)) = segments path :=
    segments_joinWith fun s (mem : s ∈ segments path) => isSegment_of_mem_segments mem
  simp only [normalize, ← segments.eq_def]
  split <;> split <;> simp only [segments_cons_slash, segments_append_slash, joined]

theorem normalize_eq (path : List Char) :
    normalize path =
      let joined := Text.joinWith '/' (segments path)
      let closed := if path.getLast? == some '/' && !joined.isEmpty then joined ++ ['/'] else joined
      if path.head? == some '/' then '/' :: closed else closed :=
  rfl

theorem normalize_inj {path path' : List Char} (first : path'.head? = path.head?)
    (last : path'.getLast? = path.getLast?) :
    normalize path' = normalize path ↔ segments path' = segments path := by
  constructor
  · intro same
    rw [← segments_normalize path', same, segments_normalize]
  · intro same
    rw [normalize_eq, normalize_eq, first, last, same]

/-! The directory of a base. -/

/-- The segments of the directory of a base path, which is what stands before its last slash. -/
def directory (path : List Char) : List (List Char) :=
  segments ((Text.splitLast? '/' path).elim [] Prod.fst)

theorem directory_append_cons {before name : List Char} (whole : '/' ∉ name) :
    directory (before ++ '/' :: name) = segments before := by
  rw [directory, Text.splitLast?_append whole]
  rfl

theorem exists_name {path : List Char} (rooted : path.head? = some '/') :
    ∃ before name, path = before ++ '/' :: name ∧ '/' ∉ name :=
  Text.exists_last (List.mem_of_mem_head? rooted)

theorem directory_append {path suffix : List Char} (rooted : path.head? = some '/')
    (whole : '/' ∉ suffix) : directory (path ++ suffix) = directory path := by
  obtain ⟨before, name, rfl, alone⟩ := exists_name rooted
  rw [List.append_assoc, List.cons_append, directory_append_cons alone,
    directory_append_cons (by simp [alone, whole])]

theorem directory_append_slash {before name inner rest : List Char} (whole : '/' ∉ name)
    (alone : '/' ∉ rest) :
    directory (before ++ '/' :: name ++ (inner ++ '/' :: rest)) =
      lead (directory (before ++ '/' :: name)) (name ++ inner) := by
  have regrouped : before ++ '/' :: name ++ (inner ++ '/' :: rest) =
      (before ++ '/' :: (name ++ inner)) ++ '/' :: rest := by
    simp
  rw [regrouped, directory_append_cons alone, segments_append_cons, directory_append_cons whole]

section

variable {path source : List Char} (rooted : path.head? = some '/')
  (relative : source.head? ≠ some '/')

include rooted relative

theorem joinPath_eq : ∃ before, joinPath path source = before ++ '/' :: source ∧
    segments before = directory path := by
  obtain ⟨before, name, rfl, whole⟩ := exists_name rooted
  refine ⟨before, ?_, (directory_append_cons whole).symm⟩
  rw [joinPath, if_neg (by simpa using relative), Text.splitLast?_append whole]

theorem segments_joinPath :
    segments (joinPath path source) = lead (directory path) source := by
  obtain ⟨before, eq, same⟩ := joinPath_eq rooted relative
  rw [eq, segments_append_cons, same]

theorem getLast?_joinPath (spoken : source ≠ []) :
    (joinPath path source).getLast? = source.getLast? := by
  obtain ⟨before, eq, -⟩ := joinPath_eq rooted relative
  rw [eq, List.getLast?_append, List.getLast?_cons_of_ne_nil spoken,
    List.getLast?_eq_some_getLast spoken, Option.some_or]

end

namespace Origin

def url (o : Origin) (path : List Char) : ResourceUrl := ⟨String.ofList (o.text ++ path)⟩

theorem resolve_url (o : Origin) {path : List Char} (rooted : path.head? = some '/')
    {source : String} (spoken : Text.trim source.toList ≠ [])
    (schemeless : schemeLength (Text.trim source.toList) = none) :
    resolve source (some (o.url path)) =
      some (o.url (normalize (joinPath path (Text.trim source.toList)))) := by
  simp [resolve, url, spoken, schemeless, resolveAgainst, o.splitOrigin_path (.inr rooted)]

theorem url_inj (o : Origin) {path path' : List Char} :
    o.url path' = o.url path ↔ path' = path := by
  simp [url, String.ofList_inj]

end Origin

theorem resolve_url_eq_iff (o : Origin) {path path' : List Char} (rooted : path.head? = some '/')
    (rooted' : path'.head? = some '/') {source : String} (spoken : Text.trim source.toList ≠ []) :
    resolve source (some (o.url path')) = resolve source (some (o.url path)) ↔
      (schemeLength (Text.trim source.toList)).isSome = true ∨
        (Text.trim source.toList).head? = some '/' ∨
        lead (directory path') (Text.trim source.toList) =
          lead (directory path) (Text.trim source.toList) := by
  cases scheme : schemeLength (Text.trim source.toList) with
  | some length => simp [resolve, spoken, scheme]
  | none =>
    rw [o.resolve_url rooted spoken scheme, o.resolve_url rooted' spoken scheme, Option.some_inj,
      o.url_inj]
    by_cases fromRoot : (Text.trim source.toList).head? = some '/'
    · simp [joinPath, fromRoot]
    · have first : (joinPath path' (Text.trim source.toList)).head? =
          (joinPath path (Text.trim source.toList)).head? := by
        rw [(head?_joinPath (.inr rooted)).mpr (.inl (by rintro rfl; cases rooted)),
          (head?_joinPath (.inr rooted')).mpr (.inl (by rintro rfl; cases rooted'))]
      have last : (joinPath path' (Text.trim source.toList)).getLast? =
          (joinPath path (Text.trim source.toList)).getLast? := by
        rw [getLast?_joinPath rooted fromRoot spoken, getLast?_joinPath rooted' fromRoot spoken]
      rw [normalize_inj first last, segments_joinPath rooted fromRoot,
        segments_joinPath rooted' fromRoot]
      simp [fromRoot]

/-- What a suffix, such as a query or a fragment, does after the path of a base. -/
structure Origin.ReadsSuffix (o : Origin) (path suffix : List Char) : Prop where
  /-- It plays no part for a source with a scheme or from the root, and for one that leads to the
  same place from the directories with and without it. -/
  source : ∀ source : String, Text.trim source.toList ≠ [] →
    (resolve source (some (o.url (path ++ suffix))) = resolve source (some (o.url path)) ↔
      (schemeLength (Text.trim source.toList)).isSome = true ∨
        (Text.trim source.toList).head? = some '/' ∨
        lead (directory (path ++ suffix)) (Text.trim source.toList) =
          lead (directory path) (Text.trim source.toList))
  /-- It plays no part for any source when the directories are the same, and only then. -/
  everySource : (∀ source : String, Text.trim source.toList ≠ [] →
      resolve source (some (o.url (path ++ suffix))) = resolve source (some (o.url path))) ↔
    directory (path ++ suffix) = directory path
  /-- Without a slash it belongs to the name. -/
  slashless : '/' ∉ suffix → directory (path ++ suffix) = directory path
  /-- Up to its last slash it leads on, from the name. -/
  slash : ∀ before name inner rest, path = before ++ '/' :: name → '/' ∉ name →
    suffix = inner ++ '/' :: rest → '/' ∉ rest →
    directory (path ++ suffix) = lead (directory path) (name ++ inner)

/-- Resolution goes by the last slash of a base, be it in the path or in what follows the path. -/
theorem resolve_reads_suffix (o : Origin) {path : List Char} (rooted : path.head? = some '/')
    (suffix : List Char) : o.ReadsSuffix path suffix := by
  have longer : (path ++ suffix).head? = some '/' := by simp [rooted]
  refine ⟨fun source => resolve_url_eq_iff o rooted longer,
    ⟨fun same => ?_, fun same source spoken => ?_⟩, directory_append rooted, ?_⟩
  · -- a name alone tells two directories apart
    have name : IsSegment (Text.trim "a".toList) := ⟨by decide, by decide, by decide⟩
    have led := (resolve_url_eq_iff o rooted longer name.nonempty).mp (same "a" name.nonempty)
    have arrived := (led.resolve_left (by decide)).resolve_left (by decide)
    rwa [lead_of_isSegment name, lead_of_isSegment name, List.append_cancel_right_eq] at arrived
  · exact (resolve_url_eq_iff o rooted longer spoken).mpr (.inr (.inr (by rw [same])))
  · rintro before name inner rest rfl whole rfl alone
    exact directory_append_slash whole alone

theorem resolve_reads_suffix_page :
    resolve " ../s.png" (some ⟨"https://host/p/a?x/../y"⟩) =
        resolve " ../s.png" (some ⟨"https://host/p/a"⟩) ∧
      ∀ source : String, Text.trim source.toList ≠ [] →
        resolve source (some ⟨"https://host/p/a#top"⟩) =
          resolve source (some ⟨"https://host/p/a"⟩) := by
  have query : hostOrigin.ReadsSuffix "/p/a".toList "?x/../y".toList :=
    resolve_reads_suffix hostOrigin rfl _
  have fragment : hostOrigin.ReadsSuffix "/p/a".toList "#top".toList :=
    resolve_reads_suffix hostOrigin rfl _
  exact ⟨(query.source " ../s.png" (by decide)).mpr (.inr (.inr (by decide))),
    fragment.everySource.mpr (fragment.slashless (by decide))⟩

/-- A slash in the query of a base makes a directory of what stands before it. The extension of an
address is found without its query. -/
theorem resolve_enters_query :
    resolve "s.png" (some ⟨"https://host/p/a?x=y/z"⟩) = some ⟨"https://host/p/a?x=y/s.png"⟩ ∧
      resolve "s.png" (some ⟨"https://host/p/a"⟩) = some ⟨"https://host/p/s.png"⟩ ∧
      fileExtension ⟨"https://host/p/a.mov?x=y/z"⟩ = some "mov" := by
  decide

end ResourceUrl

end LayerTree
