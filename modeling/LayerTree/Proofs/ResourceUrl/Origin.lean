import LayerTree.Proofs.ResourceUrl.Segments

/-!
The origin of an address under resolution.

Against a base that has a path, or for a source that starts at the root, resolution keeps scheme and
authority of the base and goes on with a path. Against a base that ends with its authority, what a
relative source resolves to has the source glued to the authority, and so another host.
-/

set_option autoImplicit false
set_option relaxedAutoImplicit false

namespace LayerTree

namespace ResourceUrl

/-- The scheme and the authority of an address. -/
structure Origin where
  scheme : List Char
  authority : List Char
  named : isSchemeName scheme = true
  closed : '/' ∉ authority

namespace Origin

def text (o : Origin) : List Char := o.scheme ++ ':' :: '/' :: '/' :: o.authority

theorem colon_not_mem (o : Origin) : ':' ∉ o.scheme := by
  intro mem
  have named := o.named
  unfold isSchemeName at named
  split at named
  · next first second rest eq =>
    simp only [Bool.and_eq_true, List.all_eq_true] at named
    rw [eq] at mem
    rcases List.mem_cons.mp mem with rfl | later
    · exact absurd named.1 (by decide)
    · exact absurd (named.2 ':' later) (by decide)
  · simp at named

theorem schemeLength_append (o : Origin) (tail : List Char) :
    schemeLength (o.text ++ tail) = some (o.scheme.length + 1) := by
  have split : Text.splitFirst? ':' (o.text ++ tail) =
      some (o.scheme, '/' :: '/' :: (o.authority ++ tail)) := by
    simpa [text] using Text.splitFirst?_append o.colon_not_mem
  rw [schemeLength, split]
  exact if_pos o.named

theorem splitOrigin_append (o : Origin) (tail : List Char) :
    splitOrigin (o.text ++ tail) =
      (o.text ++ tail.takeWhile (· != '/'), tail.dropWhile (· != '/')) := by
  have after : (o.text ++ tail).drop (o.scheme.length + 1) =
      '/' :: '/' :: (o.authority ++ tail) := by
    simp [text, List.drop_append]
  have before : (o.text ++ tail).take (o.scheme.length + 1 + 2) =
      o.scheme ++ [':', '/', '/'] := by
    rw [show o.text ++ tail = (o.scheme ++ [':', '/', '/']) ++ (o.authority ++ tail) by simp [text]]
    exact List.take_left' (by simp)
  have inside : ∀ c ∈ o.authority, (c != '/') = true := by
    intro c hc
    have other : c ≠ '/' := fun same => o.closed (same ▸ hc)
    simpa using other
  simp only [splitOrigin, o.schemeLength_append, after, before, Text.stripStart]
  simp [text, List.takeWhile_append_of_pos inside, List.dropWhile_append_of_pos inside]

theorem splitOrigin_path (o : Origin) {path : List Char}
    (rooted : path = [] ∨ path.head? = some '/') :
    splitOrigin (o.text ++ path) = (o.text, path) := by
  rw [splitOrigin_append]
  rcases rooted with rfl | rooted
  · simp
  · obtain ⟨rest, rfl⟩ := List.head?_eq_some_iff.mp rooted
    simp

end Origin

theorem head?_joinPath {path source : List Char} (rooted : path = [] ∨ path.head? = some '/') :
    (joinPath path source).head? = some '/' ↔ path ≠ [] ∨ source.head? = some '/' := by
  unfold joinPath
  split
  · next here =>
    have here : source.head? = some '/' := by simpa using here
    simp [here]
  · next relative =>
    have relative : source.head? ≠ some '/' := by simpa using relative
    simp only [relative, or_false]
    split
    · next directory name eq =>
      have whole := Text.splitLast?_eq_some eq
      have nonempty : path ≠ [] := by simp [whole]
      refine iff_of_true ?_ nonempty
      rcases rooted with rfl | rooted
      · exact absurd rfl nonempty
      · rw [whole] at rooted
        cases directory with
        | nil => rfl
        | cons c directory => simpa using rooted
    · next unslashed =>
      have absent : '/' ∉ path := Text.splitLast?_eq_none.mp unslashed
      have empty : path = [] := by
        refine rooted.resolve_right fun rooted => absent ?_
        exact List.mem_of_mem_head? rooted
      simp [empty, relative]

/-- A source that is not blank and has no scheme of its own resolves against every base. What it
resolves to is the origin of the base and a path that starts at the root, if and only if the base
has a path or the source starts at the root. -/
theorem resolve_keeps_origin_iff (o : Origin) (path : List Char)
    (rooted : path = [] ∨ path.head? = some '/') (source : String)
    (spoken : Text.trim source.toList ≠ [])
    (schemeless : schemeLength (Text.trim source.toList) = none) :
    ∃ url, resolve source (some ⟨String.ofList (o.text ++ path)⟩) = some url ∧
      (((∃ rest, url.text.toList = o.text ++ '/' :: rest) ∧
          (splitOrigin url.text.toList).1 = o.text) ↔
        path ≠ [] ∨ (Text.trim source.toList).head? = some '/') := by
  let joined := joinPath path (Text.trim source.toList)
  have resolved : resolve source (some ⟨String.ofList (o.text ++ path)⟩) =
      some ⟨String.ofList (o.text ++ normalize joined)⟩ := by
    simp [resolve, spoken, schemeless, resolveAgainst, o.splitOrigin_path rooted, joined]
  refine ⟨_, resolved, ?_⟩
  rw [← head?_joinPath rooted, ← head?_normalize, String.toList_ofList, o.splitOrigin_append]
  constructor
  · rintro ⟨⟨rest, eq⟩, -⟩
    rw [List.append_cancel_left eq, List.head?_cons]
  · intro start
    obtain ⟨rest, eq⟩ := List.head?_eq_some_iff.mp start
    rw [eq]
    exact ⟨⟨rest, rfl⟩, by simp⟩

def hostOrigin : Origin where
  scheme := "https".toList
  authority := "host".toList
  named := by decide
  closed := by decide

theorem resolve_keeps_origin_climbing :
    ∃ url, resolve " ../b.png" (some ⟨"https://host/a/c.json"⟩) = some url ∧
      (∃ rest, url.text.toList = "https://host".toList ++ '/' :: rest) ∧
      (splitOrigin url.text.toList).1 = "https://host".toList := by
  obtain ⟨url, eq, kept⟩ := resolve_keeps_origin_iff hostOrigin "/a/c.json".toList (.inr rfl)
    " ../b.png" (by decide) (by decide)
  exact ⟨url, eq, kept.mpr (.inl (by decide))⟩

/-- Against a base without a path, a relative source changes the host. -/
theorem resolve_changes_host :
    resolve "a.png" (some ⟨"https://host"⟩) = some ⟨"https://hosta.png"⟩ ∧
      (splitOrigin "https://hosta.png".toList).1 ≠ (splitOrigin "https://host".toList).1 := by
  decide

end ResourceUrl

end LayerTree
