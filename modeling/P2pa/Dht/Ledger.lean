import P2pa.Dht.Gets

/-!
# The ledger of the gets

A ledger beside the run: the requests of clients, the get queries of kad with the request
each was issued for, and what kad has reported about them.  The program keeps only the
entries of the queries in progress.
-/

namespace P2pa.Dht

open P2pa.Utils

/-! ## The ledger -/

structure GetRequest where
  key : Bytes
  retryCount : UInt8
deriving DecidableEq, Repr

structure GetQuery where
  id : QueryId
  request : Nat
deriving DecidableEq, Repr

structure GetLedger where
  world : World
  requests : List GetRequest
  queries : List GetQuery
  /-- The queries whose last step kad has reported. -/
  ended : List QueryId
  /-- The queries a record was reported for. -/
  found : List QueryId

def isFound : Except Unit GetRecordOk → Bool
  | .ok (.foundRecord _) => true
  | _ => false

namespace GetLedger

def start (replicationFactor : Nat) : GetLedger where
  world := initial replicationFactor
  requests := []
  queries := []
  ended := []
  found := []

def inProgress (l : GetLedger) (id : QueryId) : Option GetQuery :=
  if id ∈ l.ended then none else l.queries.find? fun q => q.id = id

def issuedFor (l : GetLedger) (n : Nat) : Nat := l.queries.countP fun q => q.request = n

def enter (l : GetLedger) (b : Behaviour) (id : QueryId) (request : Nat) : List GetQuery :=
  l.queries ++ ((gets b).drop (gets l.world.behaviour).length).map fun _ =>
    GetQuery.mk id request

def note (l : GetLedger) (b : Behaviour) : Act → GetLedger
  | .getRecord queryId key retryCount =>
      { l with
        requests := l.requests ++ [{ key, retryCount }]
        queries := l.enter b queryId l.requests.length }
  | .kadEvent _ retryId (.outboundQueryProgressed id (.getRecord result) last) =>
      match l.inProgress id with
      | none => l
      | some q =>
          { l with
            queries := l.enter b retryId q.request
            ended := if last then id :: l.ended else l.ended
            found := if isFound result then id :: l.found else l.found }
  | _ => l

def step (l : GetLedger) (a : Act) : Option GetLedger :=
  (Dht.step l.world a).map fun w => { l.note w.behaviour a with world := w }

/-- The ledger keeps no step from being taken. -/
theorem run_world (l : GetLedger) (acts : List Act) :
    Machine.run Dht.step l.world acts = (Machine.run step l acts).map world := by
  have h : Machine.run Dht.step l.world (acts.map id) = (Machine.run step l acts).map world := by
    apply Machine.run_map
    intro l a
    unfold step
    rw [Option.map_map]
    exact (Option.map_id' ..).symm
  rwa [List.map_id] at h

/-! ## The invariant -/

structure Entry (l : GetLedger) (q : GetQuery) (e : KadGetQuery) : Prop where
  request : ∃ r, l.requests[q.request]? = some r ∧ e.key = r.key ∧
    e.retryCount.toNat + l.issuedFor q.request = r.retryCount.toNat
  records : e.records = ∅ ↔ q.id ∉ l.found

structure GetInv (l : GetLedger) : Prop where
  queue : l.world.behaviour.queuedGetRecordQueries = []
  calls : (l.queries.map fun q => l.requests[q.request]?.map GetRequest.key) =
    (gets l.world.behaviour).map some
  issued : ∀ q ∈ l.queries, q.id ∈ l.world.issued
  reported : ∀ id, id ∈ l.ended ∨ id ∈ l.found → id ∈ l.world.issued
  running : ∀ q ∈ l.queries, q.id ∉ l.ended →
    ∃ e, l.world.behaviour.inProgressGetRecordQueries.lookup q.id = some e ∧ l.Entry q e
  known : ∀ id e, l.world.behaviour.inProgressGetRecordQueries.lookup id = some e →
    id ∉ l.ended ∧ ∃ q ∈ l.queries, q.id = id
  ids : ∀ q ∈ l.queries, ∀ q' ∈ l.queries, q.id = q'.id → q = q'
  single : ∀ q ∈ l.queries, ∀ q' ∈ l.queries, q.id ∉ l.ended → q'.id ∉ l.ended →
    q.request = q'.request → q = q'
  budget : ∀ n r, l.requests[n]? = some r → l.issuedFor n ≤ r.retryCount.toNat

theorem getInv_start (replicationFactor : Nat) : GetInv (start replicationFactor) where
  queue := rfl
  calls := rfl
  issued := nofun
  reported := by simp [start]
  running := nofun
  known := nofun
  ids := nofun
  single := nofun
  budget := by simp [start]

theorem of_inProgress {l : GetLedger} {id : QueryId} {q : GetQuery}
    (h : l.inProgress id = some q) : q ∈ l.queries ∧ q.id = id ∧ id ∉ l.ended := by
  unfold inProgress at h
  split at h
  · cases h
  · rename_i hended
    exact ⟨List.mem_of_find?_eq_some h, by simpa using List.find?_some h, hended⟩

/-- The behaviour has an entry exactly for the queries in progress. -/
theorem GetInv.lookup_eq_none_iff {l : GetLedger} (h : GetInv l) (id : QueryId) :
    l.world.behaviour.inProgressGetRecordQueries.lookup id = none ↔
      l.inProgress id = none := by
  constructor
  · intro hlookup
    cases hq : l.inProgress id with
    | none => rfl
    | some q =>
        obtain ⟨hmem, rfl, hended⟩ := of_inProgress hq
        obtain ⟨e, he, -⟩ := h.running q hmem hended
        rw [hlookup] at he
        cases he
  · intro hnone
    cases he : l.world.behaviour.inProgressGetRecordQueries.lookup id with
    | none => rfl
    | some e =>
        obtain ⟨hended, q, hq, hid⟩ := h.known id e he
        unfold inProgress at hnone
        rw [if_neg hended, List.find?_eq_none] at hnone
        exact absurd (decide_eq_true hid) (hnone q hq)

theorem GetInv.frame {l : GetLedger} (h : GetInv l) {w : World}
    (hview : getView w.behaviour = getView l.world.behaviour)
    (hissued : ∀ id ∈ l.world.issued, id ∈ w.issued) : GetInv { l with world := w } := by
  obtain ⟨hpart, hgets⟩ := Prod.mk.inj hview
  obtain ⟨hmap, hqueue⟩ := Prod.mk.inj hpart
  refine ⟨hqueue.trans h.queue, ?_, fun q hq => hissued _ (h.issued q hq),
    fun id hid => hissued _ (h.reported id hid), ?_, ?_, h.ids, h.single, h.budget⟩
  · exact h.calls.trans (congrArg (List.map some) hgets.symm)
  · intro q hq hended
    obtain ⟨e, he, hentry⟩ := h.running q hq hended
    exact ⟨e, (congrArg (AList.lookup q.id) hmap).trans he, hentry.request, hentry.records⟩
  · intro id e he
    exact h.known id e ((congrArg (AList.lookup id) hmap).symm.trans he)

/-! ## A query is issued -/

section Issue

variable {l : GetLedger} {n : Nat} {id : QueryId}

theorem issuedFor_append (queries : List GetQuery) (q : GetQuery) (m : Nat) :
    (queries ++ [q]).countP (fun q => q.request = m) =
      queries.countP (fun q => q.request = m) + if q.request = m then 1 else 0 := by
  rw [List.countP_append, List.countP_singleton]
  simp

theorem Entry.append {q new : GetQuery} {e : KadGetQuery} (h : l.Entry q e)
    (hne : new.request ≠ q.request) (w : World) :
    Entry { l with world := w, queries := l.queries ++ [new] } q e := by
  refine ⟨?_, h.records⟩
  obtain ⟨r, hr, hkey, hcount⟩ := h.request
  refine ⟨r, hr, hkey, ?_⟩
  unfold issuedFor
  rw [issuedFor_append, if_neg hne]
  exact hcount

theorem GetInv.not_mem_of_fresh (h : GetInv l) (hfresh : id ∉ l.world.issued) :
    (∀ q ∈ l.queries, q.id ≠ id) ∧ id ∉ l.ended ∧ id ∉ l.found := by
  refine ⟨fun q hq heq => hfresh (heq ▸ h.issued q hq), fun hended => ?_, fun hfound => ?_⟩
  · exact hfresh (h.reported id (Or.inl hended))
  · exact hfresh (h.reported id (Or.inr hfound))

theorem forall_pairs_append {P : GetQuery → GetQuery → Prop} {queries : List GetQuery}
    {new : GetQuery} (hold : ∀ q ∈ queries, ∀ q' ∈ queries, P q q')
    (hnew : ∀ q ∈ queries, P q new ∧ P new q) (hself : P new new) :
    ∀ q ∈ queries ++ [new], ∀ q' ∈ queries ++ [new], P q q' := by
  intro q hq q' hq'
  rcases List.mem_append.mp hq with hmem | hmem
  · rcases List.mem_append.mp hq' with hmem' | hmem'
    · exact hold q hmem q' hmem'
    · rw [List.mem_singleton.mp hmem']
      exact (hnew q hmem).1
  · rw [List.mem_singleton.mp hmem]
    rcases List.mem_append.mp hq' with hmem' | hmem'
    · exact (hnew q' hmem').2
    · rw [List.mem_singleton.mp hmem']
      exact hself

/-- A query is issued for a request none of whose queries is in progress. -/
theorem GetInv.issue (h : GetInv l) {r : GetRequest} (hr : l.requests[n]? = some r)
    (hidle : ∀ q ∈ l.queries, q.request = n → q.id ∈ l.ended) (hfresh : id ∉ l.world.issued)
    {w : World} {entry : KadGetQuery} (hqueue : w.behaviour.queuedGetRecordQueries = [])
    (hgets : gets w.behaviour = gets l.world.behaviour ++ [r.key])
    (hmap : w.behaviour.inProgressGetRecordQueries =
      l.world.behaviour.inProgressGetRecordQueries.insert id entry)
    (hissued : w.issued = id :: l.world.issued) (hkey : entry.key = r.key)
    (hcount : entry.retryCount.toNat + (l.issuedFor n + 1) = r.retryCount.toNat)
    (hrecords : entry.records = ∅) :
    GetInv { l with world := w, queries := l.queries ++ [⟨id, n⟩] } := by
  obtain ⟨hqueries, hended, hfound⟩ := h.not_mem_of_fresh hfresh
  refine {
    queue := hqueue
    calls := ?calls
    issued := ?issued
    reported := ?reported
    running := ?running
    known := ?known
    ids := ?ids
    single := ?single
    budget := ?budget }
  case calls =>
      rw [hgets, List.map_append, List.map_append, List.map_singleton, List.map_singleton,
        hr, Option.map_some]
      exact congrArg (· ++ [some r.key]) h.calls
  case issued =>
      intro q hq
      rw [hissued]
      rcases List.mem_append.mp hq with hold | hnew
      · exact List.mem_cons_of_mem id (h.issued q hold)
      · rw [List.mem_singleton.mp hnew]
        exact List.mem_cons_self
  case reported =>
      intro x hx
      rw [hissued]
      exact List.mem_cons_of_mem id (h.reported x hx)
  case running =>
      intro q hq hrun
      rw [hmap]
      rcases List.mem_append.mp hq with hold | hnew
      · obtain ⟨e, he, hentry⟩ := h.running q hold hrun
        have hne : n ≠ q.request := fun heq => hrun (hidle q hold heq.symm)
        exact ⟨e, (AList.lookup_insert_ne (hqueries q hold)).trans he, hentry.append hne w⟩
      · obtain rfl := List.mem_singleton.mp hnew
        refine ⟨entry, AList.lookup_insert _, ⟨⟨r, hr, hkey, ?_⟩, iff_of_true hrecords hfound⟩⟩
        unfold issuedFor
        rw [issuedFor_append, if_pos rfl]
        exact hcount
  case known =>
      intro x e he
      rw [hmap] at he
      by_cases hx : x = id
      · subst hx
        exact ⟨hended, ⟨x, n⟩, by simp, rfl⟩
      · obtain ⟨hx', q, hq, hid⟩ := h.known x e ((AList.lookup_insert_ne hx).symm.trans he)
        exact ⟨hx', q, List.mem_append_left _ hq, hid⟩
  case ids =>
      apply forall_pairs_append h.ids
      · intro q hq
        exact ⟨fun hid => absurd hid (hqueries q hq), fun hid => absurd hid.symm (hqueries q hq)⟩
      · exact fun _ => rfl
  case single =>
      apply forall_pairs_append h.single
      · intro q hq
        constructor
        · intro hrun _ hrequest
          exact absurd (hidle q hq hrequest) hrun
        · intro _ hrun hrequest
          exact absurd (hidle q hq hrequest.symm) hrun
      · exact fun _ _ _ => rfl
  case budget =>
      intro m r' hr'
      have hbudget := h.budget m r' hr'
      unfold issuedFor at hbudget hcount ⊢
      rw [issuedFor_append]
      by_cases hm : n = m
      · subst hm
        obtain rfl := Option.some.inj (hr.symm.trans hr')
        rw [if_pos rfl]
        omega
      · rw [if_neg hm]
        exact hbudget

theorem GetInv.getRecord (h : GetInv l) {r : GetRequest} (hr : l.requests[n]? = some r)
    (hidle : ∀ q ∈ l.queries, q.request = n → q.id ∈ l.ended) {retryCount : UInt8}
    (hcount : retryCount.toNat + l.issuedFor n = r.retryCount.toNat)
    (hfresh : id ∉ l.world.issued) (backoff : ExponentialBackoff) :
    GetInv { l with
      world := { l.world with
        behaviour := Dht.getRecord l.world.behaviour id r.key backoff retryCount
        issued := id :: l.world.issued }
      queries :=
        l.enter (Dht.getRecord l.world.behaviour id r.key backoff retryCount) id n } := by
  by_cases hzero : retryCount = 0
  · subst hzero
    have henter : l.enter l.world.behaviour id n = l.queries := by
      unfold enter
      rw [List.drop_length, List.map_nil, List.append_nil]
    rw [getRecord_of_zero, henter]
    exact h.frame rfl fun _ => List.mem_cons_of_mem id
  · have hgets := gets_getRecord_of_ne_zero l.world.behaviour id r.key backoff hzero
    have henter : l.enter (Dht.getRecord l.world.behaviour id r.key backoff retryCount) id n =
        l.queries ++ [⟨id, n⟩] := by
      unfold enter
      rw [hgets, List.drop_left]
      rfl
    have hpos : retryCount.toNat ≠ 0 := fun h => hzero (UInt8.toNat_inj.mp h)
    have hpred : (retryCount - 1).toNat = retryCount.toNat - 1 :=
      UInt8.toNat_sub_of_le _ _ (UInt8.le_iff_toNat_le.mpr (Nat.pos_of_ne_zero hpos))
    rw [henter]
    rw [getRecord_of_ne_zero _ _ _ _ hzero] at hgets ⊢
    refine h.issue hr hidle hfresh h.queue hgets rfl rfl rfl ?_ rfl
    change (retryCount - 1).toNat + _ = _
    omega

end Issue

/-! ## A request is made -/

section Request

variable {l : GetLedger}

theorem GetInv.exists_request (h : GetInv l) {q : GetQuery} (hq : q ∈ l.queries) :
    ∃ r, l.requests[q.request]? = some r := by
  have hmem : l.requests[q.request]?.map GetRequest.key ∈
      (gets l.world.behaviour).map some := h.calls ▸ List.mem_map_of_mem hq
  obtain ⟨key, -, hkey⟩ := List.mem_map.mp hmem
  obtain ⟨r, hr, -⟩ := Option.map_eq_some_iff.mp hkey.symm
  exact ⟨r, hr⟩

theorem GetInv.request_lt (h : GetInv l) {q : GetQuery} (hq : q ∈ l.queries) :
    q.request < l.requests.length := by
  obtain ⟨r, hr⟩ := h.exists_request hq
  exact (List.getElem?_eq_some_iff.mp hr).1

theorem GetInv.issuedFor_length (h : GetInv l) : l.issuedFor l.requests.length = 0 := by
  unfold issuedFor
  rw [List.countP_eq_zero]
  intro q hq heq
  exact absurd (h.request_lt hq) (by rw [of_decide_eq_true heq]; exact Nat.lt_irrefl _)

theorem GetInv.append_request (h : GetInv l) (new : GetRequest) :
    GetInv { l with requests := l.requests ++ [new] } := by
  have hold : ∀ q ∈ l.queries, (l.requests ++ [new])[q.request]? = l.requests[q.request]? :=
    fun q hq => List.getElem?_append_left (h.request_lt hq)
  refine { h with
    calls := ?calls
    running := ?running
    budget := ?budget }
  case calls =>
      rw [← h.calls]
      apply List.map_congr_left
      intro q hq
      exact congrArg (Option.map GetRequest.key) (hold q hq)
  case running =>
      intro q hq hrun
      obtain ⟨e, he, ⟨r, hr, hrequest⟩, hrecords⟩ := h.running q hq hrun
      exact ⟨e, he, ⟨r, (hold q hq).trans hr, hrequest⟩, hrecords⟩
  case budget =>
      intro n r hr
      by_cases hn : n < l.requests.length
      · rw [List.getElem?_append_left hn] at hr
        exact h.budget n r hr
      · have hlt := (List.getElem?_eq_some_iff.mp hr).1
        rw [List.length_append, List.length_singleton] at hlt
        obtain rfl : n = l.requests.length := by omega
        have hnone := h.issuedFor_length
        unfold issuedFor at hnone ⊢
        rw [hnone]
        exact Nat.zero_le _

end Request

/-! ## Kad reports -/

section Report

variable {l : GetLedger} {q : GetQuery} {e : KadGetQuery}

def reportFound (l : GetLedger) (id : QueryId) (result : Except Unit GetRecordOk) :
    List QueryId :=
  if isFound result then id :: l.found else l.found

theorem mem_reportFound_of_ne {id x : QueryId} (h : x ≠ id)
    (result : Except Unit GetRecordOk) : x ∈ l.reportFound id result ↔ x ∈ l.found := by
  unfold reportFound
  split
  · simp [h]
  · rfl

theorem insert_ne_empty {α β : Type} [DecidableEq α] (s : AList fun _ : α => β) (a : α)
    (b : β) : s.insert a b ≠ ∅ := by
  intro h
  have hmem : a ∈ s.insert a b := (AList.mem_insert s).mpr (Or.inl rfl)
  rw [h] at hmem
  exact absurd hmem (AList.notMem_empty a)

theorem records_tally (h : e.records = ∅ ↔ q.id ∉ l.found)
    (result : Except Unit GetRecordOk) :
    (tally e result).records = ∅ ↔ q.id ∉ l.reportFound q.id result := by
  unfold tally reportFound isFound
  cases result with
  | error err => exact h
  | ok ok =>
      cases ok with
      | foundRecord value =>
          exact iff_of_false (insert_ne_empty _ _ _) (by simp)
      | finishedWithNoAdditionalRecord => exact h

theorem GetInv.reported_found (h : GetInv l) (hq : q ∈ l.queries)
    (result : Except Unit GetRecordOk) {x : QueryId} (hx : x ∈ l.reportFound q.id result) :
    x ∈ l.world.issued := by
  by_cases hid : x = q.id
  · rw [hid]
    exact h.issued q hq
  · exact h.reported x (Or.inr ((mem_reportFound_of_ne hid result).mp hx))

theorem GetInv.progress (h : GetInv l) (hq : q ∈ l.queries) (hrun : q.id ∉ l.ended)
    (he : l.world.behaviour.inProgressGetRecordQueries.lookup q.id = some e)
    (result : Except Unit GetRecordOk) :
    GetInv { l with
      world := { l.world with
        behaviour := { l.world.behaviour with
          inProgressGetRecordQueries :=
            l.world.behaviour.inProgressGetRecordQueries.insert q.id (tally e result) } }
      found := l.reportFound q.id result } := by
  refine { h with
    reported := ?reported
    running := ?running
    known := ?known }
  case reported =>
      intro x hx
      rcases hx with hx | hx
      · exact h.reported x (Or.inl hx)
      · exact h.reported_found hq result hx
  case running =>
      intro q' hq' hrun'
      obtain ⟨e', he', hrequest, hrecords⟩ := h.running q' hq' hrun'
      by_cases hid : q'.id = q.id
      · rw [hid, he] at he'
        obtain rfl := Option.some.inj he'
        refine ⟨tally e result, ?_, ?_, ?_⟩
        · rw [hid]
          exact AList.lookup_insert _
        · rw [(key_tally e result).1, (key_tally e result).2.2]
          exact hrequest
        · rw [hid] at hrecords ⊢
          exact records_tally hrecords result
      · refine ⟨e', (AList.lookup_insert_ne hid).trans he', hrequest, ?_⟩
        exact hrecords.trans (not_congr (mem_reportFound_of_ne hid result)).symm
  case known =>
      intro x e' he'
      by_cases hx : x = q.id
      · exact ⟨hx ▸ hrun, q, hq, hx.symm⟩
      · exact h.known x e' ((AList.lookup_insert_ne hx).symm.trans he')

theorem GetInv.finish (h : GetInv l) (hq : q ∈ l.queries) (e : KadGetQuery)
    (result : Except Unit GetRecordOk) :
    GetInv { l with
      world := { l.world with
        behaviour := { l.world.behaviour with
          inProgressGetRecordQueries :=
            (l.world.behaviour.inProgressGetRecordQueries.insert q.id e).erase q.id } }
      ended := q.id :: l.ended
      found := l.reportFound q.id result } := by
  have hlookup : ∀ x ≠ q.id, ((l.world.behaviour.inProgressGetRecordQueries.insert q.id e).erase
      q.id).lookup x = l.world.behaviour.inProgressGetRecordQueries.lookup x := by
    intro x hx
    rw [AList.lookup_erase_ne hx, AList.lookup_insert_ne hx]
  refine { h with
    reported := ?reported
    running := ?running
    known := ?known
    single := ?single }
  case reported =>
      intro x hx
      rcases hx with hx | hx
      · rcases List.mem_cons.mp hx with rfl | hx
        · exact h.issued q hq
        · exact h.reported x (Or.inl hx)
      · exact h.reported_found hq result hx
  case running =>
      intro q' hq' hrun'
      obtain ⟨hid, hrun'⟩ := List.ne_and_not_mem_of_not_mem_cons hrun'
      obtain ⟨e', he', hrequest, hrecords⟩ := h.running q' hq' hrun'
      refine ⟨e', (hlookup q'.id hid).trans he', hrequest, ?_⟩
      exact hrecords.trans (not_congr (mem_reportFound_of_ne hid result)).symm
  case known =>
      intro x e' he'
      by_cases hx : x = q.id
      · subst hx
        have hnone := AList.lookup_erase q.id
          (l.world.behaviour.inProgressGetRecordQueries.insert q.id e)
        exact absurd (hnone.symm.trans he') nofun
      · obtain ⟨hrun, q', hq', hid⟩ := h.known x e' ((hlookup x hx).symm.trans he')
        exact ⟨List.not_mem_cons_of_ne_of_not_mem hx hrun, q', hq', hid⟩
  case single =>
      intro q₁ hq₁ q₂ hq₂ hrun₁ hrun₂
      exact h.single q₁ hq₁ q₂ hq₂ (List.not_mem_of_not_mem_cons hrun₁)
        (List.not_mem_of_not_mem_cons hrun₂)

end Report

/-! ## Steps -/

section Step

variable {l l' : GetLedger} {a : Act}

theorem enter_of_gets {b : Behaviour} (h : gets b = gets l.world.behaviour) (id : QueryId)
    (n : Nat) : l.enter b id n = l.queries := by
  unfold enter
  rw [h, List.drop_length, List.map_nil, List.append_nil]

theorem GetInv.request (h : GetInv l) {queryId : QueryId} (hfresh : queryId ∉ l.world.issued)
    (key : Bytes) (retryCount : UInt8) :
    GetInv { l with
      world := { l.world with
        behaviour := Dht.getRecord l.world.behaviour queryId key .default retryCount
        issued := queryId :: l.world.issued }
      requests := l.requests ++ [{ key, retryCount }]
      queries :=
        l.enter (Dht.getRecord l.world.behaviour queryId key .default retryCount) queryId
          l.requests.length } := by
  have hnew := h.append_request { key, retryCount }
  have hidle : ∀ q ∈ l.queries, q.request = l.requests.length → q.id ∈ l.ended :=
    fun q hq heq => absurd (h.request_lt hq) (by omega)
  have hcount : retryCount.toNat + l.issuedFor l.requests.length = retryCount.toNat := by
    rw [h.issuedFor_length, Nat.add_zero]
  exact hnew.getRecord (n := l.requests.length) (r := { key, retryCount }) (by simp) hidle
    hcount hfresh .default

section Note

variable {id retryId : QueryId} {q : GetQuery} (now : Instant) (b : Behaviour)
  (result : Except Unit GetRecordOk) (last : Bool)

theorem note_of_none (h : l.inProgress id = none) :
    l.note b (.kadEvent now retryId
      (.outboundQueryProgressed id (.getRecord result) last)) = l := by
  unfold note
  dsimp only
  rw [h]

theorem note_of_some (h : l.inProgress id = some q) :
    l.note b (.kadEvent now retryId
        (.outboundQueryProgressed id (.getRecord result) last)) =
      { l with
        queries := l.enter b retryId q.request
        ended := if last then id :: l.ended else l.ended
        found := l.reportFound id result } := by
  unfold note
  dsimp only
  rw [h]
  rfl

theorem note_of_ne {event : KadEvent}
    (h : ∀ id result last, event ≠ .outboundQueryProgressed id (.getRecord result) last) :
    l.note b (.kadEvent now retryId event) = l := by
  unfold note
  split
  · rename_i heq
    cases heq
  · rename_i heq
    cases heq
    exact absurd rfl (h _ _ _)
  · rfl

end Note

theorem GetInv.report (h : GetInv l) {retryId : QueryId} (hfresh : retryId ∉ l.world.issued)
    (now : Instant) (id : QueryId) (result : Except Unit GetRecordOk) (last : Bool) :
    GetInv { l.note (handleGetQuery l.world.behaviour retryId result id last)
        (.kadEvent now retryId (.outboundQueryProgressed id (.getRecord result) last)) with
      world := { l.world with
        behaviour := handleGetQuery l.world.behaviour retryId result id last
        issued := retryId :: l.world.issued } } := by
  cases hq : l.inProgress id with
  | none =>
      rw [note_of_none now _ result last hq,
        handleGetQuery_of_none ((h.lookup_eq_none_iff id).mpr hq)]
      exact h.frame rfl fun _ => List.mem_cons_of_mem retryId
  | some q =>
      rw [note_of_some now _ result last hq]
      obtain ⟨hmem, rfl, hrun⟩ := of_inProgress hq
      obtain ⟨e, he, ⟨r, hr, hkey, hcount⟩, -⟩ := h.running q hmem hrun
      cases last with
      | false =>
          have hreport := handleGetQuery_of_not_last he retryId result
          have hprogress := h.progress hmem hrun he result
          have hgets : gets (handleGetQuery l.world.behaviour retryId result q.id false) =
              gets l.world.behaviour := by
            rw [hreport]
            rfl
          rw [if_neg Bool.false_ne_true, enter_of_gets hgets]
          exact hprogress.frame (congrArg getView hreport) fun _ => List.mem_cons_of_mem retryId
      | true =>
          have hfinish := h.finish hmem (tally e result) result
          have hidle : ∀ q' ∈ l.queries, q'.request = q.request →
              q'.id ∈ q.id :: l.ended := by
            intro q' hq' hrequest
            by_contra hrun'
            obtain ⟨hne, hrun'⟩ := List.ne_and_not_mem_of_not_mem_cons hrun'
            exact hne (congrArg GetQuery.id (h.single q' hq' q hmem hrun' hrun hrequest))
          rw [handleGetQuery_of_last he, if_pos rfl, hkey]
          exact hfinish.getRecord hr hidle hcount hfresh e.backoff

theorem getInv_step (h : GetInv l) (hstep : l.step a = some l') : GetInv l' := by
  obtain ⟨w, hw, rfl⟩ := Option.map_eq_some_iff.mp hstep
  cases a with
  | beginBootstrap =>
      cases hw
      exact h.frame rfl fun _ hid => hid
  | addAddress peer address =>
      cases hw
      have hcalls := gets_append l.world.behaviour [KadCall.addAddress peer address] (by simp)
      exact h.frame (congrArg (getPart l.world.behaviour, ·) hcalls) fun _ hid => hid
  | addBootnodes peer address =>
      cases hw
      exact h.frame (addBootnodes_getView _ _ _) fun _ hid => hid
  | putRecord now answer key value =>
      simp only [Dht.step, Option.ite_none_right_eq_some, Option.some.injEq] at hw
      obtain ⟨-, rfl⟩ := hw
      exact h.frame (putRecord_getView _ _ _ _) fun _ => mem_issue l.world answer
  | getRecord queryId key retryCount =>
      simp only [Dht.step, Option.ite_none_right_eq_some, Option.some.injEq] at hw
      obtain ⟨hfresh, rfl⟩ := hw
      exact h.request (of_decide_eq_true hfresh) key retryCount
  | pollBootstrap now answer =>
      simp only [Dht.step, Option.ite_none_right_eq_some, Option.some.injEq] at hw
      obtain ⟨-, rfl⟩ := hw
      exact h.frame (pollBootstrap_getView _ _ _) fun _ => mem_issue l.world answer
  | drainGet now queryId =>
      simp only [Dht.step, Option.ite_none_right_eq_some, Option.map_eq_some_iff] at hw
      obtain ⟨-, b, hb, -⟩ := hw
      -- nothing is ever queued
      unfold drainGet at hb
      rw [h.queue] at hb
      cases hb
  | drainPut now answer =>
      simp only [Dht.step, Option.ite_none_right_eq_some, Option.map_eq_some_iff] at hw
      obtain ⟨-, b, hb, rfl⟩ := hw
      exact h.frame (drainPut_getView hb) fun _ => mem_issue l.world answer
  | kadEvent now retryId event =>
      simp only [Dht.step, Option.ite_none_right_eq_some, Option.some.injEq,
        Bool.and_eq_true] at hw
      obtain ⟨⟨hfresh, -⟩, rfl⟩ := hw
      by_cases hget : ∃ id result last,
          event = .outboundQueryProgressed id (.getRecord result) last
      · obtain ⟨id, result, last, rfl⟩ := hget
        exact h.report (of_decide_eq_true hfresh) now id result last
      · push Not at hget
        rw [note_of_ne now _ hget]
        refine h.frame (handleEvent_getView _ _ _ hget) fun _ hid => ?_
        exact mem_issue l.world (.ok retryId) hid

end Step

end GetLedger

end P2pa.Dht
