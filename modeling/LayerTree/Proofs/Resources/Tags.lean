import LayerTree.Proofs.Expansion.Siblings
import Mathlib.Data.String.Basic

/-!
The tags of what is collected.

The fields of a descriptor overwrite a tag that is there, and its frames do not. So the tag of an
address is that of the last descriptor with a field that names it, and a frame counts when there is
no such descriptor. A video is therefore collected as a movie in every order of siblings exactly
when each element that names its address, with none below it that does, names it as its video.
-/

set_option autoImplicit false
set_option relaxedAutoImplicit false

namespace LayerTree

/-! Tables. -/

namespace ResourceTable

theorem get?_cons (url key : ResourceUrl) (tag : ResourceTag) (rest : ResourceTable) :
    get? url ((key, tag) :: rest) = if key = url then some tag else get? url rest := by
  unfold get?
  rw [List.find?_cons]
  by_cases same : key = url
  · simp [same]
  · have apart : (key == url) = false := beq_eq_false_iff_ne.mpr same
    simp only [apart, if_neg same]

theorem get?_insert (url key : ResourceUrl) (tag : ResourceTag) (table : ResourceTable) :
    get? url (insert key tag table) = if key = url then some tag else get? url table := by
  induction table with
  | nil => exact get?_cons url key tag []
  | cons entry rest ih =>
    obtain ⟨first, value⟩ := entry
    unfold insert
    split
    · next here =>
      obtain rfl : first = key := eq_of_beq here
      rw [get?_cons, get?_cons]
      by_cases same : first = url
      · rw [if_pos same, if_pos same]
      · rw [if_neg same, if_neg same, if_neg same]
    · next elsewhere =>
      split
      · rw [get?_cons]
      · rw [get?_cons, get?_cons, ih]
        by_cases same : first = url
        · have apart : ¬key = url := fun eq => elsewhere (by simp [same, eq])
          rw [if_pos same, if_neg apart, if_pos same]
        · rw [if_neg same, if_neg same]

theorem get?_insertNew (url key : ResourceUrl) (tag : ResourceTag) (table : ResourceTable) :
    get? url (insertNew key tag table) =
      (get? url table).or (if key = url then some tag else none) := by
  unfold insertNew
  split
  · next there =>
    by_cases same : key = url
    · obtain ⟨value, found⟩ := Option.isSome_iff_exists.mp there
      rw [same] at found
      rw [found]
      rfl
    · rw [if_neg same, Option.or_none]
  · next absent =>
    rw [get?_insert]
    by_cases same : key = url
    · rw [same] at absent
      rw [if_pos same, if_pos same, Option.not_isSome_iff_eq_none.mp absent]
      rfl
    · rw [if_neg same, if_neg same, Option.or_none]

def Ordered (table : ResourceTable) : Prop :=
  table.Pairwise fun entry entry' => entry.1.text < entry'.1.text

theorem Ordered.insert {table : ResourceTable} (ordered : table.Ordered) (url : ResourceUrl)
    (tag : ResourceTag) : (ResourceTable.insert url tag table).Ordered := by
  induction table with
  | nil => exact List.pairwise_singleton _ _
  | cons entry rest ih =>
    obtain ⟨key, value⟩ := entry
    obtain ⟨first, others⟩ := List.pairwise_cons.mp ordered
    unfold ResourceTable.insert
    split
    · next here =>
      obtain rfl : key = url := eq_of_beq here
      exact List.pairwise_cons.mpr ⟨first, others⟩
    · next elsewhere =>
      split
      · next before =>
        refine List.pairwise_cons.mpr ⟨fun entry mem => ?_, ordered⟩
        rcases List.mem_cons.mp mem with rfl | later
        · exact before
        · exact before.trans (first entry later)
      · next after =>
        have apart : key.text ≠ url.text := fun same =>
          elsewhere (beq_iff_eq.mpr (ResourceUrl.mk.injEq _ _ ▸ same))
        have less : key.text < url.text := lt_of_le_of_ne (not_lt.mp after) apart
        refine List.pairwise_cons.mpr ⟨fun entry mem => ?_, ih others⟩
        have known : entry.1 = url ∨ entry.1 ∈ keys rest :=
          mem_keys_insert.mp (List.mem_map_of_mem mem)
        rcases known with same | there
        · rw [same]
          exact less
        · obtain ⟨entry', mem', same⟩ := List.mem_map.mp there
          rw [← same]
          exact first entry' mem'

theorem Ordered.insertNew {table : ResourceTable} (ordered : table.Ordered) (url : ResourceUrl)
    (tag : ResourceTag) : (ResourceTable.insertNew url tag table).Ordered := by
  unfold ResourceTable.insertNew
  split
  · exact ordered
  · exact ordered.insert url tag

theorem Ordered.foldl {β : Type} {add : ResourceTable → β → ResourceTable}
    (step : ∀ table x, Ordered table → Ordered (add table x)) (items : List β)
    {table : ResourceTable} (ordered : table.Ordered) : (items.foldl add table).Ordered := by
  induction items generalizing table with
  | nil => exact ordered
  | cons x items ih => exact ih (step table x ordered)

theorem Ordered.mem_iff {table : ResourceTable} (ordered : table.Ordered) (url : ResourceUrl)
    (tag : ResourceTag) : (url, tag) ∈ table ↔ get? url table = some tag := by
  induction table with
  | nil => simp [get?]
  | cons entry rest ih =>
    obtain ⟨key, value⟩ := entry
    obtain ⟨first, others⟩ := List.pairwise_cons.mp ordered
    rw [get?_cons, List.mem_cons, Prod.mk.injEq, ih others]
    by_cases same : key = url
    · have once : get? url rest ≠ some tag := by
        intro again
        have there := first (url, tag) ((ih others).mpr again)
        rw [same] at there
        exact lt_irrefl _ there
      rw [if_pos same, Option.some.injEq, eq_comm (a := tag)]
      exact ⟨fun found => found.elim And.right fun again => absurd again once,
        fun eq => .inl ⟨same.symm, eq⟩⟩
    · rw [if_neg same]
      exact ⟨fun found => found.elim (fun eq => absurd eq.1.symm same) id, .inr⟩

theorem Ordered.ext {table table' : ResourceTable} (ordered : table.Ordered)
    (ordered' : table'.Ordered) (same : ∀ url, get? url table = get? url table') :
    table = table' := by
  have apart {entry entry' : ResourceUrl × ResourceTag} (less : entry.1.text < entry'.1.text) :
      entry ≠ entry' := by
    rintro rfl
    exact lt_irrefl _ less
  have distinct {t : ResourceTable} (h : t.Ordered) : t.Nodup := List.Pairwise.imp apart h
  have perm : table.Perm table' := by
    refine (List.perm_ext_iff_of_nodup (distinct ordered) (distinct ordered')).mpr ?_
    rintro ⟨url, tag⟩
    rw [ordered.mem_iff, ordered'.mem_iff, same]
  exact perm.eq_of_pairwise (fun _ _ _ _ less more => absurd more less.asymm) ordered ordered'

end ResourceTable

/-! Tags. -/

namespace Resources

open ResourceTable Expansion

variable {base : Option ResourceUrl} {url : ResourceUrl} {info : Record}

def named? (base : Option ResourceUrl) (info : Record) (name : String) : Option ResourceUrl :=
  (info.text? name).bind fun source => ResourceUrl.resolve source base

/-- The tag that the fields of a descriptor set for an address: none when it is streamed. -/
def tag? (base : Option ResourceUrl) (url : ResourceUrl) (info : Record) : Option ResourceTag :=
  if info.flag "stream" then none
  else if named? base info "video" = some url then some .movie
  else if ∃ name ∈ ["img", "mask", "sprite"], named? base info name = some url then some .plain
  else none

def framed (base : Option ResourceUrl) (url : ResourceUrl) (info : Record) : Bool :=
  !info.flag "stream" && (frameSources info).any fun source =>
    ResourceUrl.resolve source base == some url

theorem tag?_eq_movie : tag? base url info = some .movie ↔
    info.flag "stream" = false ∧ named? base info "video" = some url := by
  unfold tag?
  split
  · next streamed => simp [streamed]
  · next stored =>
    split
    · next video => simp [stored, video]
    · next other =>
      split <;> simp [other]

theorem readsContent_tag? (base : Option ResourceUrl) (url : ResourceUrl) :
    ReadsContent (tag? base url) := by
  intro info info' same
  have streams : info.flag "stream" = info'.flag "stream" := same.flag (by decide)
  have fields (name : String) (other : name ∉ ["element", "elements"]) :
      named? base info name = named? base info' name := by
    rw [named?, named?, same.text? other]
  have video := fields "video" (by decide)
  have pictures : (∃ name ∈ ["img", "mask", "sprite"], named? base info name = some url) ↔
      ∃ name ∈ ["img", "mask", "sprite"], named? base info' name = some url := by
    refine exists_congr fun name => and_congr_right fun mem => ?_
    have other : name ∉ ["element", "elements"] := by
      revert name
      decide
    rw [fields name other]
  simp only [tag?, streams, video, pictures]

theorem readsContent_framed (base : Option ResourceUrl) (url : ResourceUrl) :
    ReadsContent (framed base url) := by
  intro info info' same
  have streams : info.flag "stream" = info'.flag "stream" := same.flag (by decide)
  have frames : frameSources info = frameSources info' := by
    rw [frameSources, frameSources, same.record? (by decide)]
  rw [framed, framed, streams, frames]

def plainIf (there : Bool) : Option ResourceTag := if there then some .plain else none

theorem plainIf_or (there there' : Bool) :
    (plainIf there).or (plainIf there') = plainIf (there || there') := by
  cases there <;> rfl

theorem get?_addField (table : ResourceTable) (field : String × ResourceTag) :
    get? url (addField base info table field) =
      if named? base info field.1 = some url then some field.2 else get? url table := by
  unfold addField
  have source : ((info.text? field.1).bind fun source => ResourceUrl.resolve source base) =
    named? base info field.1 := rfl
  rw [source]
  cases named? base info field.1 with
  | none => rfl
  | some key => simp only [get?_insert, Option.some.injEq]

theorem get?_foldl_addField (stored : info.flag "stream" = false) (table : ResourceTable) :
    get? url (sourceFields.foldl (addField base info) table) =
      (tag? base url info).or (get? url table) := by
  simp only [sourceFields, List.foldl_cons, List.foldl_nil, get?_addField, tag?, stored,
    List.exists_mem_cons_iff]
  by_cases video : named? base info "video" = some url
  · simp [video]
  · by_cases sprite : named? base info "sprite" = some url
    · simp [video, sprite]
    · by_cases mask : named? base info "mask" = some url
      · simp [video, sprite, mask]
      · by_cases img : named? base info "img" = some url
        · simp [video, sprite, mask, img]
        · simp [video, sprite, mask, img]

theorem get?_foldl_addFrame (sources : List String) (table : ResourceTable) :
    get? url (sources.foldl (addFrame base) table) = (get? url table).or
      (plainIf (sources.any fun source => ResourceUrl.resolve source base == some url)) := by
  induction sources generalizing table with
  | nil => exact (Option.or_none).symm
  | cons source sources ih =>
    have first : get? url (addFrame base table source) = (get? url table).or
        (plainIf (ResourceUrl.resolve source base == some url)) := by
      unfold addFrame
      cases ResourceUrl.resolve source base with
      | none => exact (Option.or_none).symm
      | some key =>
        rw [get?_insertNew]
        by_cases same : key = url
        · simp [same, plainIf]
        · simp [same, plainIf]
    rw [List.foldl_cons, ih, first, Option.or_assoc, plainIf_or, List.any_cons]

theorem get?_addOwn (table : ResourceTable) :
    get? url (addOwn base info table) =
      (tag? base url info).or ((get? url table).or (plainIf (framed base url info))) := by
  unfold addOwn framed
  cases stored : info.flag "stream" with
  | true => simp [tag?, stored, plainIf]
  | false =>
    rw [if_neg Bool.false_ne_true, get?_foldl_addFrame, get?_foldl_addField stored,
      Option.or_assoc]
    rfl

mutual

theorem addTree_eq_foldl : ∀ (e : Expansion) (table : ResourceTable),
    addTree base e table = e.infos.foldl (fun table info => addOwn base info table) table
  | .node info es, table => by
    rw [addTree, addTrees_eq_foldl es, infos, List.foldl_cons]

private theorem addTrees_eq_foldl : ∀ (es : List Expansion) (table : ResourceTable),
    addTrees base es table =
      (infosAll es).foldl (fun table info => addOwn base info table) table
  | [], _ => rfl
  | e :: es, table => by
    rw [addTrees, addTrees_eq_foldl es, addTree_eq_foldl e, infosAll, List.foldl_append]

end

theorem get?_foldl_addOwn (infos : List Record) (table : ResourceTable) :
    get? url (infos.foldl (fun table info => addOwn base info table) table) =
      (lastOf (tag? base url) infos).or
        ((get? url table).or (plainIf (infos.any (framed base url)))) := by
  induction infos generalizing table with
  | nil => exact (Option.or_none).symm
  | cons info infos ih =>
    rw [List.foldl_cons, ih, get?_addOwn, lastOf_cons, List.any_cons, ← plainIf_or]
    simp only [Option.or_assoc]

/-- The tag of an address is that of the last descriptor with a field that names it, and else that
of a frame. -/
theorem get?_addTree (base : Option ResourceUrl) (url : ResourceUrl) (e : Expansion) :
    get? url (addTree base e []) =
      (lastOf (tag? base url) e.infos).or (plainIf (e.infos.any (framed base url))) := by
  rw [addTree_eq_foldl, get?_foldl_addOwn]
  rfl

theorem get?_addTree_eq_movie {e : Expansion} :
    get? url (addTree base e []) = some .movie ↔ lastOf (tag? base url) e.infos = some .movie := by
  rw [get?_addTree, Option.or_eq_some_iff]
  refine ⟨fun found => found.elim id fun frame => ?_, .inl⟩
  cases there : e.infos.any (framed base url) <;> simp [there, plainIf] at frame

theorem ordered_addTree (base : Option ResourceUrl) (e : Expansion) :
    (addTree base e []).Ordered := by
  rw [addTree_eq_foldl]
  refine Ordered.foldl (fun table info ordered => ?_) e.infos List.Pairwise.nil
  unfold addOwn
  split
  · exact ordered
  · refine Ordered.foldl (fun table source ordered => ?_) _
      (Ordered.foldl (fun table field ordered => ?_) _ ordered)
    · unfold addFrame
      split
      · exact ordered.insertNew _ _
      · exact ordered
    · unfold addField
      split
      · exact ordered.insert _ _
      · exact ordered

/-! Movies. -/

theorem lastOf_eq_movie {infos : List Record} :
    lastOf (tag? base url) infos = some .movie ↔
      ∃ before info after, infos = before ++ info :: after ∧
        (info.flag "stream" = false ∧ named? base info "video" = some url) ∧
        ∀ later ∈ after, tag? base url later ≠ some .plain := by
  simp only [← tag?_eq_movie]
  constructor
  · intro last
    obtain ⟨before, info, after, split, here, absent⟩ := lastOf_eq_some.mp last
    refine ⟨before, info, after, split, here, fun later mem => ?_⟩
    rw [absent later mem]
    exact nofun
  · rintro ⟨before, info, after, rfl, here, unpictured⟩
    rw [lastOf_append, lastOf_cons, here]
    cases later : lastOf (tag? base url) after with
    | none => rfl
    | some tag =>
      obtain ⟨first, info', rest, rfl, named, -⟩ := lastOf_eq_some.mp later
      cases tag with
      | movie => rfl
      | plain => exact absurd named (unpictured info' (by simp))

section

variable {prototype : String → Option Record} {e e' : Expansion}

theorem any_framed_reordered (reordered : e.Reordered e') :
    e.infos.any (framed base url) = e'.infos.any (framed base url) := by
  have frames : (e.infos.map (framed base url)).Perm (e'.infos.map (framed base url)) :=
    reordered.map_infos_perm (readsContent_framed base url)
  have any := frames.any_eq (f := id)
  rwa [List.any_map, List.any_map] at any

theorem lowest_of_reordered_last {tag : ResourceTag} (reordered : e.Reordered e')
    (last : lastOf (tag? base url) e'.infos = some tag) : e.Lowest (tag? base url) tag :=
  (lowest_of_last last).of_reordered (readsContent_tag? base url) reordered

/-- An address that some descriptor names as its video is a movie in every order of the siblings
exactly when each lowest element that names it does so as its video. -/
theorem movie_reordered_iff (prototype : String → Option Record)
    (video : ∃ info ∈ e.infos, info.flag "stream" = false ∧ named? base info "video" = some url) :
    (∀ depth desc e', Expansion.within prototype depth desc = some e' → e.Reordered e' →
      get? url (addTree base e' []) = some .movie) ↔
      ∀ tag, e.Lowest (tag? base url) tag → tag = .movie := by
  simp only [get?_addTree_eq_movie]
  constructor
  · intro movie tag lowest
    obtain ⟨depth, desc, e', found, reordered, last⟩ :=
      lowest.exists_within_last prototype (readsContent_tag? base url)
    rw [movie depth desc e' found reordered] at last
    exact (Option.some.inj last).symm
  · intro agree depth desc e' found reordered
    cases last : lastOf (tag? base url) e'.infos with
    | none =>
      obtain ⟨info, mem, named⟩ := video
      have unnamed :=
        (reordered.unnamed (readsContent_tag? base url)).mpr (lastOf_eq_none.mp last)
      have absent := (tag?_eq_movie.mpr named).symm.trans (unnamed info mem)
      cases absent
    | some tag => rw [agree tag (lowest_of_reordered_last reordered last)]

theorem addTree_reordered_iff (prototype : String → Option Record) :
    (∀ depth desc e', Expansion.within prototype depth desc = some e' → e.Reordered e' →
      addTree base e' [] = addTree base e []) ↔
      ∀ url tag tag', e.Lowest (tag? base url) tag → e.Lowest (tag? base url) tag' →
        tag = tag' := by
  constructor
  · intro same url
    have known {tag : ResourceTag} (lowest : e.Lowest (tag? base url) tag) :
        get? url (addTree base e []) = some tag := by
      obtain ⟨depth, desc, e', found, reordered, last⟩ :=
        lowest.exists_within_last prototype (readsContent_tag? base url)
      rw [← same depth desc e' found reordered, get?_addTree, last]
      rfl
    intro tag tag' lowest lowest'
    exact Option.some.inj ((known lowest).symm.trans (known lowest'))
  · intro agree depth desc e' found reordered
    refine (ordered_addTree base e').ext (ordered_addTree base e) fun url => ?_
    have last : lastOf (tag? base url) e'.infos = lastOf (tag? base url) e.infos := by
      have unnamed := reordered.unnamed (readsContent_tag? base url)
      rw [← lastOf_eq_none, ← lastOf_eq_none] at unnamed
      cases here : lastOf (tag? base url) e.infos with
      | none => exact unnamed.mp here
      | some tag =>
        cases there : lastOf (tag? base url) e'.infos with
        | none =>
          have absent := here.symm.trans (unnamed.mpr there)
          cases absent
        | some tag' =>
          have lowest := lowest_of_last here
          have lowest' := lowest_of_reordered_last reordered there
          rw [agree url tag tag' lowest lowest']
    rw [get?_addTree, get?_addTree, last, any_framed_reordered reordered]

end

theorem forall_reorderedBy_iff {known : Lookups} {e : Expansion} {P : Option ResourceTable → Prop} :
    (∀ depth desc, e.ReorderedBy known.prototype depth desc →
      P (collectWithin depth known desc)) ↔
      ∀ depth desc e', Expansion.within known.prototype depth desc = some e' → e.Reordered e' →
        P (some (addTree known.baseUrl e' [])) := by
  constructor
  · intro all depth desc e' found reordered
    have here := all depth desc ⟨e', found, reordered⟩
    rwa [collectWithin, found] at here
  · rintro all depth desc ⟨e', found, reordered⟩
    rw [collectWithin, found]
    exact all depth desc e' found reordered

/-- An address is collected as a movie exactly when a descriptor names it as its video and no later
one has it as an image, a mask or a sprite sheet. It is one in every order of the siblings exactly
when each element with none below it that names the address names it as its video. And the order
matters nowhere exactly when such elements always agree. -/
theorem collectWithin_movie_iff {depth : Nat} {known : Lookups} {desc : Record}
    {table : ResourceTable} (collected : collectWithin depth known desc = some table) :
    ∃ e, Expansion.within known.prototype depth desc = some e ∧
      (∀ url, get? url table = some .movie ↔
        ∃ before info after, e.infos = before ++ info :: after ∧
          (info.flag "stream" = false ∧ named? known.baseUrl info "video" = some url) ∧
          ∀ later ∈ after, tag? known.baseUrl url later ≠ some .plain) ∧
      (∀ url, (∃ info ∈ e.infos,
          info.flag "stream" = false ∧ named? known.baseUrl info "video" = some url) →
        ((∀ depth' desc', e.ReorderedBy known.prototype depth' desc' →
            (collectWithin depth' known desc').bind (get? url) = some .movie) ↔
          ∀ tag, e.Lowest (tag? known.baseUrl url) tag → tag = .movie)) ∧
      ((∀ depth' desc', e.ReorderedBy known.prototype depth' desc' →
          collectWithin depth' known desc' = some table) ↔
        ∀ url tag tag', e.Lowest (tag? known.baseUrl url) tag →
          e.Lowest (tag? known.baseUrl url) tag' → tag = tag') := by
  obtain ⟨e, found, rfl⟩ := Option.map_eq_some_iff.mp collected
  refine ⟨e, found, fun url => ?_, fun url video => ?_, ?_⟩
  · rw [get?_addTree_eq_movie, lastOf_eq_movie]
  · rw [forall_reorderedBy_iff (P := fun found => found.bind (get? url) = some .movie)]
    exact movie_reordered_iff known.prototype video
  · rw [forall_reorderedBy_iff (P := fun found => found = some (addTree known.baseUrl e [])),
      ← addTree_reordered_iff known.prototype]
    simp only [Option.some.injEq]

def film : Record := ⟨[("video", .text "a.mov")]⟩

def still : Record := ⟨[("img", .text "a.mov")]⟩

def pageOf (elements : List Record) : Record :=
  ⟨[("elements", .list (elements.map Record.toValue))]⟩

theorem sameContent_pageOf (elements elements' : List Record) :
    (pageOf elements).SameContent (pageOf elements') := by
  intro name apart
  have other : ¬("elements" == name) = true := fun same => apart (eq_of_beq same ▸ by simp)
  have missing (es : List Record) : (pageOf es).get? name = none := if_neg other
  rw [missing, missing]

def stillUnder (elements : List Record) : Record :=
  ⟨[("img", .text "a.mov"), ("elements", .list (elements.map Record.toValue))]⟩

theorem collectWithin_movie_under : ∃ e table,
    Expansion.within Lookups.none.prototype 2 (stillUnder [film]) = some e ∧
    collectWithin 2 Lookups.none (stillUnder [film]) = some table ∧
    get? ⟨"a.mov"⟩ table = some .movie ∧
    ∀ depth desc, e.ReorderedBy Lookups.none.prototype depth desc →
      (collectWithin depth Lookups.none desc).bind (get? ⟨"a.mov"⟩) = some .movie := by
  have collected : collectWithin 2 Lookups.none (stillUnder [film]) =
      some [(⟨"a.mov"⟩, .movie)] := by
    decide +kernel
  obtain ⟨e, found, -, orders, -⟩ := collectWithin_movie_iff collected
  have expanded : e = .node (stillUnder [film]) [.node film []] :=
    (Option.some.inj found).symm
  subst expanded
  have names : tag? none ⟨"a.mov"⟩ film = some .movie := by decide
  refine ⟨_, _, found, collected, rfl, (orders ⟨"a.mov"⟩ ?_).mpr fun tag lowest => ?_⟩
  · exact ⟨film, .tail _ (.head _), tag?_eq_movie.mp names⟩
  · cases lowest with
    | here _ absent =>
      have unnamed : tag? none ⟨"a.mov"⟩ film = none := absent film (.head _)
      cases names.symm.trans unnamed
    | inside mem below =>
      obtain rfl := List.mem_singleton.mp mem
      cases below with
      | here named _ => exact Option.some.inj (named.symm.trans names)
      | inside mem _ => cases mem

/-- A picture that comes after a video takes its tag away; before the video it does not. -/
theorem collect_loses_movie : ∃ e,
    Expansion.within Lookups.none.prototype Expansion.levelLimit (pageOf [film, still]) = some e ∧
    e.ReorderedBy Lookups.none.prototype Expansion.levelLimit (pageOf [still, film]) ∧
    (∃ info ∈ e.infos, info.flag "stream" = false ∧ named? none info "video" = some ⟨"a.mov"⟩) ∧
    collect Lookups.none (pageOf [film, still]) = some [(⟨"a.mov"⟩, .plain)] ∧
    collect Lookups.none (pageOf [still, film]) = some [(⟨"a.mov"⟩, .movie)] := by
  have found : Expansion.within Lookups.none.prototype Expansion.levelLimit (pageOf [film, still]) =
      some (.node (pageOf [film, still]) [.node film [], .node still []]) := rfl
  have same : (merged Lookups.none.prototype (pageOf [film, still])).SameContent
      (merged Lookups.none.prototype (pageOf [still, film])) :=
    sameContent_pageOf [film, still] [still, film]
  have swapped : (merged Lookups.none.prototype (pageOf [film, still])).children.Perm
      (merged Lookups.none.prototype (pageOf [still, film])).children :=
    List.Perm.swap still film []
  refine ⟨_, found, reorderedBy_of_perm same swapped found, ⟨film, ?_, ?_, ?_⟩, ?_, ?_⟩
  · exact .tail _ (.head _)
  · decide
  · decide
  · decide +kernel
  · decide +kernel

end Resources

end LayerTree
