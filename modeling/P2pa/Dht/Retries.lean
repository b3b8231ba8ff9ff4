import P2pa.Dht.Ledger

/-!
# The retries of a get

A request is worth as many queries of kad as it has retries, one after the other.  What
a query has found does not count when the next one is issued.
-/

namespace P2pa.Dht

open P2pa.Utils

namespace GetLedger

/-! ## The bound -/

structure Bounded (l : GetLedger) : Prop where
  /-- Every query kad was asked for is entered, under a request for its key. -/
  calls : (l.queries.map fun q => l.requests[q.request]?.map GetRequest.key) =
    (gets l.world.behaviour).map some
  budget : ∀ n r, l.requests[n]? = some r → l.issuedFor n ≤ r.retryCount.toNat
  single : ∀ q ∈ l.queries, ∀ q' ∈ l.queries, q.id ∉ l.ended → q'.id ∉ l.ended →
    q.request = q'.request → q = q'
  /-- An entry is of a query in progress and counts the retries that remain. -/
  entries : ∀ id e, l.world.behaviour.inProgressGetRecordQueries.lookup id = some e →
    ∃ q ∈ l.queries, q.id = id ∧ id ∉ l.ended ∧ ∃ r, l.requests[q.request]? = some r ∧
      e.retryCount.toNat + l.issuedFor q.request = r.retryCount.toNat
  queue : l.world.behaviour.queuedGetRecordQueries = []

def IsLast (a : Act) (id : QueryId) : Prop :=
  ∃ now retryId result,
    a = .kadEvent now retryId (.outboundQueryProgressed id (.getRecord result) true)

structure Sequential (l : GetLedger) (a : Act) (l' : GetLedger) : Prop where
  /-- A further query of a request is issued on the last step of the one in progress. -/
  next : ∀ q ∈ l'.queries, q ∉ l.queries → q.request < l.requests.length →
    ∃ id, IsLast a id ∧ ⟨id, q.request⟩ ∈ l.queries ∧ id ∉ l.ended
  /-- The last step of the last query of a request leaves nothing of it. -/
  spent : ∀ id n r, IsLast a id → ⟨id, n⟩ ∈ l.queries → id ∉ l.ended →
    l.requests[n]? = some r → l.issuedFor n = r.retryCount.toNat →
      l'.queries = l.queries ∧ ∀ q ∈ l'.queries, q.request = n →
        q.id ∈ l'.ended ∧
          l'.world.behaviour.inProgressGetRecordQueries.lookup q.id = none
  unknown : ∀ now retryId id result last,
    a = .kadEvent now retryId (.outboundQueryProgressed id (.getRecord result) last) →
    l.world.behaviour.inProgressGetRecordQueries.lookup id = none →
      l'.world.behaviour = l.world.behaviour ∧ l'.queries = l.queries

section Bound

variable {l l' : GetLedger} {a : Act}

theorem GetInv.bounded (h : GetInv l) : Bounded l where
  calls := h.calls
  budget := h.budget
  single := h.single
  entries := by
    intro id e he
    obtain ⟨hrun, q, hq, rfl⟩ := h.known id e he
    obtain ⟨e', he', ⟨r, hr, -, hcount⟩, -⟩ := h.running q hq hrun
    obtain rfl := Option.some.inj (he.symm.trans he')
    exact ⟨q, hq, rfl, hrun, r, hr, hcount⟩
  queue := h.queue

theorem GetInv.lookup_of_ended (h : GetInv l) {id : QueryId} (hended : id ∈ l.ended) :
    l.world.behaviour.inProgressGetRecordQueries.lookup id = none := by
  cases he : l.world.behaviour.inProgressGetRecordQueries.lookup id with
  | none => rfl
  | some e => exact absurd hended (h.known id e he).1

theorem GetInv.inProgress_of_mem (h : GetInv l) {q : GetQuery} (hq : q ∈ l.queries)
    (hrun : q.id ∉ l.ended) : l.inProgress q.id = some q := by
  cases hsome : l.inProgress q.id with
  | none =>
      obtain ⟨e, he, -⟩ := h.running q hq hrun
      rw [(h.lookup_eq_none_iff q.id).mpr hsome] at he
      cases he
  | some q' =>
      obtain ⟨hq', hid, -⟩ := of_inProgress hsome
      rw [h.ids q' hq' q hq hid]

theorem mem_enter {b : Behaviour} {id : QueryId} {n : Nat} {q : GetQuery}
    (h : q ∈ l.enter b id n) : q ∈ l.queries ∨ q = ⟨id, n⟩ := by
  rcases List.mem_append.mp h with hold | hnew
  · exact Or.inl hold
  · obtain ⟨key, -, rfl⟩ := List.mem_map.mp hnew
    exact Or.inr rfl

/-- A query that a step enters is of the request it makes, or of the one it reports on. -/
theorem request_of_new {b : Behaviour} {q : GetQuery} (h : q ∈ (l.note b a).queries)
    (hnew : q ∉ l.queries) :
    q.request = l.requests.length ∨
      ∃ now retryId id result last q₀,
        a = .kadEvent now retryId (.outboundQueryProgressed id (.getRecord result) last) ∧
          l.inProgress id = some q₀ ∧ q.request = q₀.request := by
  unfold note at h
  split at h
  · rcases mem_enter h with hold | rfl
    · exact absurd hold hnew
    · exact Or.inl rfl
  · rename_i now retryId id result last
    cases hq : l.inProgress id with
    | none =>
        rw [hq] at h
        exact absurd h hnew
    | some q₀ =>
        rw [hq] at h
        rcases mem_enter h with hold | rfl
        · exact absurd hold hnew
        · exact Or.inr ⟨now, retryId, id, result, last, q₀, rfl, hq, rfl⟩
  · exact absurd h hnew

section Reported

variable {now : Instant} {retryId id : QueryId} {result : Except Unit GetRecordOk} {last : Bool}
  (hstep : l.step (.kadEvent now retryId
    (.outboundQueryProgressed id (.getRecord result) last)) = some l')

include hstep

theorem reported_eq :
    l' = { l.note (handleGetQuery l.world.behaviour retryId result id last)
        (.kadEvent now retryId (.outboundQueryProgressed id (.getRecord result) last)) with
      world := { l.world with
        behaviour := handleGetQuery l.world.behaviour retryId result id last
        issued := retryId :: l.world.issued } } := by
  obtain ⟨w, hw, rfl⟩ := Option.map_eq_some_iff.mp hstep
  simp only [Dht.step, Option.ite_none_right_eq_some, Option.some.injEq] at hw
  obtain ⟨-, rfl⟩ := hw
  rfl

theorem reported_unknown (h : GetInv l)
    (hnone : l.world.behaviour.inProgressGetRecordQueries.lookup id = none) :
    l'.world.behaviour = l.world.behaviour ∧ l'.queries = l.queries := by
  rw [reported_eq hstep, note_of_none now _ result last ((h.lookup_eq_none_iff id).mp hnone)]
  exact ⟨handleGetQuery_of_none hnone retryId result last, rfl⟩

theorem last_of_new (h : GetInv l) {q : GetQuery} (hq : q ∈ l'.queries)
    (hnew : q ∉ l.queries) : last = true := by
  cases last with
  | true => rfl
  | false =>
      cases he : l.world.behaviour.inProgressGetRecordQueries.lookup id with
      | none =>
          rw [(reported_unknown hstep h he).2] at hq
          exact absurd hq hnew
      | some e =>
          cases hq₀ : l.inProgress id with
          | none =>
              rw [(h.lookup_eq_none_iff id).mpr hq₀] at he
              cases he
          | some q₀ =>
              have hgets : gets (handleGetQuery l.world.behaviour retryId result id false) =
                  gets l.world.behaviour := by
                rw [handleGetQuery_of_not_last he]
                rfl
              rw [reported_eq hstep, note_of_some now _ result false hq₀,
                enter_of_gets hgets] at hq
              exact absurd hq hnew

theorem reported_last (h : GetInv l) {q : GetQuery} (hq : q ∈ l.queries) (hid : q.id = id)
    (hrun : id ∉ l.ended) (hlast : last = true) {e : KadGetQuery}
    (he : l.world.behaviour.inProgressGetRecordQueries.lookup id = some e)
    (hzero : e.retryCount = 0) :
    l'.queries = l.queries ∧ l'.ended = id :: l.ended := by
  subst hid hlast
  have hgets : gets (handleGetQuery l.world.behaviour retryId result q.id true) =
      gets l.world.behaviour := by
    rw [handleGetQuery_of_last he, hzero, getRecord_of_zero]
    rfl
  rw [reported_eq hstep, note_of_some now _ result true (h.inProgress_of_mem hq hrun)]
  exact ⟨enter_of_gets hgets _ _, rfl⟩

end Reported

theorem sequential_step (h : GetInv l) (hstep : l.step a = some l') : Sequential l a l' where
  next := by
    intro q hq hnew hlt
    obtain ⟨w, -, hl'⟩ := Option.map_eq_some_iff.mp hstep
    rw [← hl'] at hq
    rcases request_of_new hq hnew with heq | ⟨now, retryId, id, result, last, q₀, rfl, hq₀, heq⟩
    · omega
    · rw [hl'] at hq
      obtain rfl := last_of_new hstep h hq hnew
      obtain ⟨hmem, rfl, hrun⟩ := of_inProgress hq₀
      refine ⟨q₀.id, ⟨now, retryId, result, rfl⟩, ?_, hrun⟩
      rw [heq]
      exact hmem
  spent := by
    rintro id n r ⟨now, retryId, result, rfl⟩ hmem hrun hr hcount
    obtain ⟨e, he, ⟨r', hr', -, hleft⟩, -⟩ := h.running ⟨id, n⟩ hmem hrun
    obtain rfl := Option.some.inj (hr.symm.trans hr')
    have hzero : e.retryCount = 0 := by
      apply UInt8.toNat_inj.mp
      rw [hcount] at hleft
      exact Nat.add_eq_right.mp hleft
    obtain ⟨hqueries, hended⟩ := reported_last hstep h hmem rfl hrun rfl he hzero
    have hinv := getInv_step h hstep
    refine ⟨hqueries, fun q hq hrequest => ?_⟩
    rw [hqueries] at hq
    have hq' : q.id ∈ l'.ended := by
      rw [hended]
      by_contra hne
      obtain ⟨hne, hrun'⟩ := List.ne_and_not_mem_of_not_mem_cons hne
      exact hne (congrArg GetQuery.id (h.single q hq ⟨id, n⟩ hmem hrun' hrun hrequest))
    exact ⟨hq', hinv.lookup_of_ended hq'⟩
  unknown := by
    rintro now retryId id result last rfl hnone
    exact reported_unknown hstep h hnone

/-- In every run, with any number of requests at once: a request made with `r` retries is
worth at most `r` queries of kad, one at a time, each after the last step of the one
before; the entries count what is left, and nothing is left after the last. -/
theorem gets_bounded (replicationFactor : Nat) (acts : List Act) :
    Machine.Along step (fun l a l' => Bounded l' ∧ Sequential l a l')
      (start replicationFactor) acts := by
  refine Machine.along_of_step GetInv (fun l a l' h hstep => ?_) acts
    (getInv_start replicationFactor)
  have hinv := getInv_step h hstep
  exact ⟨hinv, hinv.bounded, sequential_step h hstep⟩

end Bound

/-! ## What a query has found -/

/-- No further query is issued for a request when its query in progress ends with a record
found. -/
def OnlyOnFailure (l : GetLedger) (a : Act) (l' : GetLedger) : Prop :=
  ∀ id n, IsLast a id → ⟨id, n⟩ ∈ l.queries → id ∉ l.ended → id ∈ l'.found →
    l'.issuedFor n = l.issuedFor n

def FailsOrSpent (l : GetLedger) : Act → Prop
  | .kadEvent _ _ (.outboundQueryProgressed id (.getRecord result) true) =>
      ∀ e, l.world.behaviour.inProgressGetRecordQueries.lookup id = some e →
        e.retryCount = 0 ∨ (e.records = ∅ ∧ isFound result = false)
  | _ => True

section Found

variable {l l' : GetLedger} {a : Act}

theorem issuedFor_eq {queries : List GetQuery} {n : Nat} (h : l'.queries = queries) :
    l'.issuedFor n = queries.countP fun q => q.request = n := by
  unfold issuedFor
  rw [h]

section Reported

variable {now : Instant} {retryId : QueryId} {q : GetQuery} {e : KadGetQuery}
  {result : Except Unit GetRecordOk}
  (hstep : l.step (.kadEvent now retryId
    (.outboundQueryProgressed q.id (.getRecord result) true)) = some l')
  (h : GetInv l) (hq : q ∈ l.queries) (hrun : q.id ∉ l.ended)
  (he : l.world.behaviour.inProgressGetRecordQueries.lookup q.id = some e)

include hstep h hq hrun he

theorem issuedFor_of_last :
    l'.issuedFor q.request = l.issuedFor q.request ↔ e.retryCount = 0 := by
  constructor
  · intro hsame
    by_contra hne
    have hgets : gets (handleGetQuery l.world.behaviour retryId result q.id true) =
        gets l.world.behaviour ++ [e.key] := by
      rw [handleGetQuery_of_last he, gets_getRecord_of_ne_zero _ _ _ _ hne]
      rfl
    have hqueries : l'.queries = l.queries ++ [⟨retryId, q.request⟩] := by
      rw [reported_eq hstep, note_of_some now _ result true (h.inProgress_of_mem hq hrun)]
      change l.enter _ retryId q.request = _
      unfold enter
      rw [hgets, List.drop_left]
      rfl
    rw [issuedFor_eq hqueries, issuedFor_append, if_pos rfl] at hsame
    exact Nat.succ_ne_self _ hsame
  · intro hzero
    exact issuedFor_eq (reported_last hstep h hq rfl hrun rfl he hzero).1

theorem mem_found_of_last :
    q.id ∉ l'.found ↔ e.records = ∅ ∧ isFound result = false := by
  obtain ⟨e', he', -, hrecords⟩ := h.running q hq hrun
  obtain rfl := Option.some.inj (he.symm.trans he')
  have hfound : l'.found = l.reportFound q.id result := by
    rw [reported_eq hstep, note_of_some now _ result true (h.inProgress_of_mem hq hrun)]
  rw [hfound, hrecords]
  unfold reportFound
  cases isFound result with
  | false => simp
  | true => simp

theorem onlyOnFailure_of_last :
    (q.id ∈ l'.found → l'.issuedFor q.request = l.issuedFor q.request) ↔
      e.retryCount = 0 ∨ (e.records = ∅ ∧ isFound result = false) := by
  rw [issuedFor_of_last hstep h hq hrun he, ← mem_found_of_last hstep h hq hrun he]
  tauto

end Reported

/-- A step keeps the law exactly when it meets the condition. -/
theorem onlyOnFailure_iff (h : GetInv l) (hstep : l.step a = some l') :
    OnlyOnFailure l a l' ↔ FailsOrSpent l a := by
  constructor
  · intro hlaw
    unfold FailsOrSpent
    split
    · rename_i now retryId id result
      intro e he
      obtain ⟨hrun, q, hq, rfl⟩ := h.known id e he
      have hfailed := hlaw q.id q.request ⟨now, retryId, result, rfl⟩ hq hrun
      exact (onlyOnFailure_of_last hstep h hq hrun he).mp hfailed
    · trivial
  · rintro hok id n ⟨now, retryId, result, rfl⟩ hq hrun
    obtain ⟨e, he, -⟩ := h.running ⟨id, n⟩ hq hrun
    exact (onlyOnFailure_of_last hstep h hq hrun he).mpr (hok e he)

/-- In every run a get is retried only on failure exactly when no query that has retries
left ends with a record found. -/
theorem retried_only_on_failure_iff (replicationFactor : Nat) (acts : List Act) :
    Machine.Along step OnlyOnFailure (start replicationFactor) acts ↔
      Machine.Along step (fun l a _ => FailsOrSpent l a) (start replicationFactor) acts :=
  Machine.along_iff_of_invariant GetInv
    (fun _ _ _ h hstep hok => ⟨getInv_step h hstep, (onlyOnFailure_iff h hstep).mpr hok⟩)
    (fun _ _ _ h hstep hlaw => (onlyOnFailure_iff h hstep).mp hlaw)
    (getInv_start replicationFactor)

/-- A get with two retries: the first query finds a record and ends, and the second is
issued. -/
theorem retried_only_on_failure_fails :
    ∃ acts, ¬ Machine.Along step OnlyOnFailure (start 1) acts := by
  refine ⟨[.getRecord 0 [1] 2,
    .kadEvent 0 1 (.outboundQueryProgressed 0 (.getRecord (.ok (.foundRecord [7]))) false),
    .kadEvent 0 2 (.outboundQueryProgressed 0
      (.getRecord (.ok .finishedWithNoAdditionalRecord)) true)], fun h => ?_⟩
  obtain ⟨-, h⟩ := h _ rfl
  obtain ⟨-, h⟩ := h _ rfl
  obtain ⟨h, -⟩ := h _ rfl
  have hissued := h 0 0 ⟨0, 2, .ok .finishedWithNoAdditionalRecord, rfl⟩ (by decide) (by decide)
    (by decide)
  exact absurd hissued (by decide)

end Found

end GetLedger

end P2pa.Dht
