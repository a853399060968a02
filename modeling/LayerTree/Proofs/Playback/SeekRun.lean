import LayerTree.Proofs.Playback.Bodywise

/-!
The seeks of one element, read off a record.

The player of an element is asked for its seeks one at a time and with tickets that are counted, and
a seek lands before the next one is asked for. `SeekRun` says this of a record step by step; the
laws of what was issued and what landed follow from it.
-/

set_option autoImplicit false
set_option relaxedAutoImplicit false

namespace LayerTree

variable {α : Type}

/-- The ticket of the seek of an element before which it had `n` others. -/
def SeekTicket.nth (id : ElementId) (n : Nat) : SeekTicket := ⟨id, n % UInt64.size⟩

structure SeekPhase where
  /-- How many seeks its player was asked for. -/
  asked : Nat
  /-- The seek that has not landed. -/
  inFlight : Option SeekTicket

def SeekPhase.start : SeekPhase := ⟨0, none⟩

/-- What an occurrence means for the seeks of an element. -/
inductive SeekStep (id : ElementId) : SeekPhase → Occurrence α → SeekPhase → Prop
  | request {n : Nat} {player : Player} {request : SeekRequest α} :
      player.element = id → request.ticket = .nth id n →
      SeekStep id ⟨n, none⟩ (.caused (.seek player request)) ⟨n + 1, some request.ticket⟩
  | landing {n : Nat} {ticket : SeekTicket} : ticket.element = id →
      SeekStep id ⟨n, some ticket⟩ (.landed ticket) ⟨n, none⟩
  | elsewhere {s : SeekPhase} {o : Occurrence α} : o.element ≠ id → SeekStep id s o s
  | quiet {s : SeekPhase} {o : Occurrence α} : o.issued? = none → o.landed? = none →
      SeekStep id s o s

inductive SeekRun (id : ElementId) : SeekPhase → List (Occurrence α) → SeekPhase → Prop
  | nil {s : SeekPhase} : SeekRun id s [] s
  | cons {s s' s'' : SeekPhase} {o : Occurrence α} {log : List (Occurrence α)} :
      SeekStep id s o s' → SeekRun id s' log s'' → SeekRun id s (o :: log) s''

def issued (log : List (Occurrence α)) : List SeekTicket := log.filterMap Occurrence.issued?

def accepted (log : List (Occurrence α)) : List SeekTicket := log.filterMap Occurrence.landed?

def issuedTo (id : ElementId) (log : List (Occurrence α)) : List SeekTicket :=
  (requestsTo id log).map SeekRequest.ticket

def acceptedOf (id : ElementId) (log : List (Occurrence α)) : List SeekTicket :=
  (accepted log).filter fun ticket => ticket.element == id

theorem issuedTo_append (id : ElementId) (log more : List (Occurrence α)) :
    issuedTo id (log ++ more) = issuedTo id log ++ issuedTo id more := by
  simp only [issuedTo, requestsTo_append, List.map_append]

theorem acceptedOf_append (id : ElementId) (log more : List (Occurrence α)) :
    acceptedOf id (log ++ more) = acceptedOf id log ++ acceptedOf id more := by
  simp only [acceptedOf, accepted, List.filterMap_append, List.filter_append]

theorem issuedTo_sublist (id : ElementId) (log : List (Occurrence α)) :
    (issuedTo id log).Sublist (issued log) := by
  induction log with
  | nil => exact List.Sublist.slnil
  | cons o log ih =>
    cases o with
    | landed ticket => exact ih
    | caused event =>
      cases event with
      | seek player request =>
        rw [issuedTo, requestsTo_cons_seek]
        split
        · exact ih.cons_cons request.ticket
        · exact ih.cons request.ticket
      | _ => exact ih

theorem issuedTo_about_sublist (id : ElementId) (log : List (Occurrence α)) :
    (issuedTo id (about id log)).Sublist (issued log) :=
  (issuedTo_sublist id _).trans (List.filter_sublist.filterMap _)

/-! One occurrence. -/

theorem issuedTo_elsewhere {id : ElementId} {o : Occurrence α} (h : o.element ≠ id) :
    issuedTo id [o] = [] := by
  rw [issuedTo, requestsTo_cons_none (requestTo?_elsewhere h)]
  rfl

theorem issuedTo_quiet {id : ElementId} {o : Occurrence α} (h : o.issued? = none) :
    issuedTo id [o] = [] := by
  cases o with
  | landed ticket => rfl
  | caused event =>
    cases event with
    | seek player request => simp [Occurrence.issued?] at h
    | _ => rfl

theorem acceptedOf_elsewhere {id : ElementId} {o : Occurrence α} (h : o.element ≠ id) :
    acceptedOf id [o] = [] := by
  cases o with
  | landed ticket =>
    have other : ticket.element ≠ id := h
    simp [acceptedOf, accepted, Occurrence.landed?, other]
  | caused event => rfl

theorem acceptedOf_quiet {id : ElementId} {o : Occurrence α} (h : o.landed? = none) :
    acceptedOf id [o] = [] := by
  simp [acceptedOf, accepted, h]

namespace SeekStep

variable {id : ElementId} {s s' : SeekPhase} {o : Occurrence α}

theorem balance (h : SeekStep id s o s') :
    s.inFlight.toList ++ issuedTo id [o] = acceptedOf id [o] ++ s'.inFlight.toList := by
  cases h with
  | request owner ticket =>
    simp [issuedTo, requestsTo_cons_seek, acceptedOf, accepted, Occurrence.landed?, owner]
  | landing owner =>
    simp [issuedTo, requestsTo, Occurrence.requestTo?, acceptedOf, accepted, Occurrence.landed?,
      owner]
  | elsewhere other => simp [issuedTo_elsewhere other, acceptedOf_elsewhere other]
  | quiet issue land => simp [issuedTo_quiet issue, acceptedOf_quiet land]

theorem count (h : SeekStep id s o s') :
    (List.range s'.asked).map (SeekTicket.nth id) =
      (List.range s.asked).map (SeekTicket.nth id) ++ issuedTo id [o] := by
  cases h with
  | request owner ticket => simp [issuedTo, requestsTo_cons_seek, owner, ticket, List.range_succ]
  | landing owner => simp [issuedTo, requestsTo, Occurrence.requestTo?]
  | elsewhere other => simp [issuedTo_elsewhere other]
  | quiet issue land => simp [issuedTo_quiet issue]

theorem of_seek {player : Player} {request : SeekRequest α} (owner : player.element = id)
    (h : SeekStep id s (.caused (.seek player request)) s') :
    s.inFlight = none ∧ s'.inFlight = some request.ticket ∧ request.ticket.element = id := by
  cases h with
  | request _ ticket => exact ⟨rfl, rfl, ticket ▸ rfl⟩
  | elsewhere other => exact absurd owner other
  | quiet issue _ => simp [Occurrence.issued?] at issue

theorem of_landed {ticket : SeekTicket} (owner : ticket.element = id)
    (h : SeekStep id s (.landed ticket : Occurrence α) s') : s.inFlight = some ticket := by
  cases h with
  | landing _ => rfl
  | elsewhere other => exact absurd owner other
  | quiet _ land => simp [Occurrence.landed?] at land

end SeekStep

namespace SeekRun

variable {id : ElementId} {s s' s'' : SeekPhase} {log more : List (Occurrence α)}

theorem append (h : SeekRun id s log s') (h' : SeekRun id s' more s'') :
    SeekRun id s (log ++ more) s'' := by
  induction h with
  | nil => exact h'
  | cons step _ ih => exact .cons step (ih h')

theorem split : ∀ {s : SeekPhase} {log : List (Occurrence α)}, SeekRun id s (log ++ more) s'' →
    ∃ s', SeekRun id s log s' ∧ SeekRun id s' more s''
  | s, [], h => ⟨s, .nil, h⟩
  | s, o :: log, h => by
    cases h with
    | cons step rest =>
      obtain ⟨s', first, second⟩ := split rest
      exact ⟨s', .cons step first, second⟩

theorem of_forall_quiet : ∀ {log : List (Occurrence α)},
    (∀ o ∈ log, o.issued? = none ∧ o.landed? = none) → SeekRun id s log s
  | [], _ => .nil
  | o :: log, h => by
    obtain ⟨⟨issue, land⟩, rest⟩ := List.forall_mem_cons.mp h
    exact .cons (.quiet issue land) (of_forall_quiet rest)

theorem of_about : ∀ {s : SeekPhase} {log : List (Occurrence α)},
    SeekRun id s (about id log) s' → SeekRun id s log s'
  | s, [], h => h
  | s, o :: log, h => by
    by_cases here : o.element = id
    · rw [about, List.filter_cons_of_pos (by simpa using here)] at h
      cases h with
      | cons step rest => exact .cons step (of_about rest)
    · rw [about, List.filter_cons_of_neg (by simpa using here)] at h
      exact .cons (.elsewhere here) (of_about h)

theorem balance (h : SeekRun id s log s') :
    s.inFlight.toList ++ issuedTo id log = acceptedOf id log ++ s'.inFlight.toList := by
  induction h with
  | nil => simp [issuedTo, acceptedOf, accepted]
  | @cons s s' s'' o log step _ ih =>
    rw [← List.singleton_append, issuedTo_append, acceptedOf_append, ← List.append_assoc,
      step.balance, List.append_assoc, ih, List.append_assoc]

theorem count (h : SeekRun id s log s') :
    (List.range s'.asked).map (SeekTicket.nth id) =
      (List.range s.asked).map (SeekTicket.nth id) ++ issuedTo id log := by
  induction h with
  | nil => simp [issuedTo]
  | @cons s s' s'' o log step _ ih =>
    rw [← List.singleton_append, issuedTo_append, ← List.append_assoc, ← step.count, ih]

theorem issuedTo_eq (h : SeekRun id .start log s) :
    issuedTo id log = (List.range s.asked).map (SeekTicket.nth id) := by
  simpa [SeekPhase.start] using h.count.symm

/-- What landed was issued, in the same order; only the last seek can be in flight. -/
theorem issuedTo_eq_append (h : SeekRun id .start log s) :
    issuedTo id log = acceptedOf id log ++ s.inFlight.toList := by
  simpa [SeekPhase.start] using h.balance

theorem inFlight_eq (h : SeekRun id .start log s) {ticket : SeekTicket}
    (flying : s.inFlight = some ticket) :
    ∃ n, s.asked = n + 1 ∧ ticket = .nth id n := by
  have tickets := h.issuedTo_eq
  rw [h.issuedTo_eq_append, flying, Option.toList_some] at tickets
  cases asked : s.asked with
  | zero => simp [asked] at tickets
  | succ n =>
    rw [asked, List.range_succ, List.map_append, List.map_singleton] at tickets
    exact ⟨n, rfl, by simpa using (List.append_inj' tickets rfl).2⟩

theorem nodup_issuedTo (h : SeekRun id .start log s)
    (few : (issuedTo id log).length < UInt64.size) : (issuedTo id log).Nodup := by
  rw [h.issuedTo_eq, List.length_map, List.length_range] at few
  rw [h.issuedTo_eq]
  refine (List.nodup_map_iff_inj_on List.nodup_range).mpr fun m hm n hn same => ?_
  have generations : m % UInt64.size = n % UInt64.size := congrArg SeekTicket.generation same
  rw [List.mem_range] at hm hn
  rwa [Nat.mod_eq_of_lt (Nat.lt_trans hm few), Nat.mod_eq_of_lt (Nat.lt_trans hn few)]
    at generations

theorem nodup_acceptedOf (h : SeekRun id .start log s)
    (few : (issuedTo id log).length < UInt64.size) : (acceptedOf id log).Nodup := by
  have tickets := h.nodup_issuedTo few
  rw [h.issuedTo_eq_append] at tickets
  exact List.Nodup.of_append_left tickets

end SeekRun

/-- What a record says of the seeks in it. -/
structure SeekRecord (log : List (Occurrence α)) : Prop where
  /-- A completion is taken only of a seek that was issued before. -/
  issued_before : ∀ before ticket after, log = before ++ .landed ticket :: after →
    ticket ∈ issued before
  /-- Between two successive seeks of one player, the first lands and none else does. -/
  landed_between : ∀ before player request between player' request' after,
    log = before ++ .caused (.seek player request) :: between ++
      .caused (.seek player' request') :: after →
    player'.element = player.element → issuedTo player.element between = [] →
    acceptedOf player.element between = [request.ticket]
  /-- No ticket is issued twice, and no completion is taken twice. -/
  distinct : (issued log).length < UInt64.size → (issued log).Nodup ∧ (accepted log).Nodup

namespace SeekRecord

variable {log : List (Occurrence α)}

private theorem issuedTo_eq_filter
    (own : ∀ player request, .caused (.seek player request) ∈ log →
      request.ticket.element = player.element) (id : ElementId) :
    issuedTo id log = (issued log).filter fun ticket => ticket.element == id := by
  rw [issuedTo, requestsTo, List.map_filterMap, issued, List.filter_filterMap]
  refine List.filterMap_congr fun o ho => ?_
  cases o with
  | landed ticket => rfl
  | caused event =>
    cases event with
    | seek player request =>
      have names := own player request ho
      by_cases here : player.element = id <;>
        simp [Occurrence.requestTo?, Occurrence.issued?, Option.filter, here, names]
    | _ => rfl

private theorem nodup_of_filter {tickets : List SeekTicket}
    (each : ∀ id, (tickets.filter fun ticket => ticket.element == id).Nodup) : tickets.Nodup := by
  refine List.nodup_iff_count_le_one.mpr fun ticket => ?_
  have once := List.nodup_iff_count_le_one.mp (each ticket.element) ticket
  rwa [List.count_filter (by simp)] at once

theorem of_runs (runs : ∀ id, ∃ s, SeekRun id .start log s) : SeekRecord log := by
  -- the tickets of one player are found by their names only because each names its own player
  have own : ∀ player request, .caused (.seek player request) ∈ log →
      request.ticket.element = player.element := by
    intro player request asked
    obtain ⟨before, after, rfl⟩ := List.append_of_mem asked
    obtain ⟨s, run⟩ := runs player.element
    obtain ⟨s', -, rest⟩ := run.split
    cases rest with
    | cons step _ => exact (step.of_seek rfl).2.2
  have filtered := issuedTo_eq_filter own
  refine ⟨?_, ?_, fun few => ?_⟩
  · rintro before ticket after rfl
    obtain ⟨s, run⟩ := runs ticket.element
    obtain ⟨s', first, rest⟩ := run.split
    cases rest with
    | cons step _ =>
      have tickets : ticket ∈ issuedTo ticket.element before := by
        rw [first.issuedTo_eq_append, step.of_landed rfl]
        simp
      rw [issuedTo_eq_filter fun player request asked =>
        own player request (List.mem_append_left _ asked)] at tickets
      exact (List.mem_filter.mp tickets).1
  · rintro before player request between player' request' after rfl same nothing
    obtain ⟨s, run⟩ := runs player.element
    obtain ⟨last, first, rest⟩ := run.split
    obtain ⟨s', -, middle⟩ := first.split
    cases middle with
    | cons asked meanwhile =>
      cases rest with
      | cons again _ =>
        have balance := meanwhile.balance
        rw [(asked.of_seek rfl).2.1, (again.of_seek same).1, nothing] at balance
        simpa using balance.symm
  · have fewer : ∀ id, (issuedTo id log).length < UInt64.size := fun id =>
      Nat.lt_of_le_of_lt (filtered id ▸ List.length_filter_le _ _) few
    refine ⟨nodup_of_filter fun id => ?_, nodup_of_filter fun id => ?_⟩
    · obtain ⟨s, run⟩ := runs id
      exact filtered id ▸ run.nodup_issuedTo (fewer id)
    · obtain ⟨s, run⟩ := runs id
      exact run.nodup_acceptedOf (fewer id)

end SeekRecord

end LayerTree
