import P2pa.Dht.Run
import P2pa.Support.Assoc

/-!
# No put is lost or duplicated

A submitted record is in one of three places: with a put query in progress, in the
queue, or with a query that has finished with success.  The invariant links the
program's map of put queries to the queries kad runs.
-/

namespace P2pa.Dht

open P2pa.Utils

def record (q : KadPutQuery) : Bytes × Bytes := (q.key, q.value)

def held (b : Behaviour) : Multiset (Bytes × Bytes) :=
  b.inProgressPutRecordQueries.image record +
    (b.queuedPutRecordQueries.map record : List (Bytes × Bytes))

def Conserved (w : World) : Prop :=
  w.submitted =
    w.behaviour.inProgressPutRecordQueries.image record +
      (w.behaviour.queuedPutRecordQueries.map record : List (Bytes × Bytes)) +
      w.succeeded

/-- An event about a query that is no put in progress changes none of the three. -/
def UnknownIdKept (w : World) (a : Act) (w' : World) : Prop :=
  ∀ now retryId id result last,
    a = .kadEvent now retryId (.outboundQueryProgressed id result last) →
    id ∉ w.behaviour.inProgressPutRecordQueries →
    w'.behaviour.inProgressPutRecordQueries = w.behaviour.inProgressPutRecordQueries ∧
      w'.behaviour.queuedPutRecordQueries = w.behaviour.queuedPutRecordQueries ∧
      w'.succeeded = w.succeeded

private theorem coe_concat {α : Type*} (l : List α) (a : α) :
    ((l ++ [a] : List α) : Multiset α) = a ::ₘ l :=
  Multiset.coe_eq_coe.mpr (List.perm_append_singleton a l)

structure PutInv (w : World) : Prop where
  conserved : w.submitted = held w.behaviour + w.succeeded
  /-- The program's map and kad agree on the queries in progress. -/
  running : ∀ id, w.runningPuts.lookup id =
    (w.behaviour.inProgressPutRecordQueries.lookup id).map record
  issued : ∀ id ∈ w.behaviour.inProgressPutRecordQueries, id ∈ w.issued

theorem putInv_initial (replicationFactor : Nat) : PutInv (initial replicationFactor) where
  conserved := rfl
  running := fun _ => rfl
  issued := fun _ h => absurd h (AList.notMem_empty _)

theorem PutInv.frame {w w' : World} (h : PutInv w)
    (hpart : putPart w'.behaviour = putPart w.behaviour)
    (hrunning : w'.runningPuts = w.runningPuts)
    (hsubmitted : w'.submitted = w.submitted) (hsucceeded : w'.succeeded = w.succeeded)
    (hissued : ∀ id ∈ w.issued, id ∈ w'.issued) : PutInv w' := by
  simp only [putPart, Prod.mk.injEq] at hpart
  refine ⟨?_, fun id => ?_, fun id hid => hissued id (h.issued id ?_)⟩
  · rw [hsubmitted, hsucceeded, held, hpart.1, hpart.2]
    exact h.conserved
  · rw [hrunning, hpart.1]
    exact h.running id
  · rwa [hpart.1] at hid

/-! ## Handing a put over -/

/-- What `putRecord` does with a request that no map or queue holds: it ends up in
the one or the other, and in the map exactly when kad runs a query for it. -/
theorem putRecord_hands_over {w : World} (h : PutInv w) {b : Behaviour}
    (hmap : b.inProgressPutRecordQueries = w.behaviour.inProgressPutRecordQueries)
    (hflag : b.beginBootstrap = w.behaviour.beginBootstrap) {answer : PutAnswer}
    (hfresh : w.Fresh answer = true) (now : Instant) (q : KadPutQuery) :
    held (putRecord b now answer q) = record q ::ₘ held b ∧
      (∀ id, (w.startPut answer q.key q.value).lookup id =
        ((putRecord b now answer q).inProgressPutRecordQueries.lookup id).map record) ∧
      ∀ id ∈ (putRecord b now answer q).inProgressPutRecordQueries,
        id ∈ w.issue answer := by
  have hqueue : ∀ q' : KadPutQuery, record q' = record q →
      held { b with queuedPutRecordQueries := b.queuedPutRecordQueries ++ [q'] } =
        record q ::ₘ held b := by
    intro q' hq'
    unfold held
    rw [List.map_append, List.map_singleton, hq', coe_concat, Multiset.add_cons]
  cases hbegin : b.beginBootstrap with
  | true =>
      refine ⟨?_, fun id => ?_, fun id hid => ?_⟩
      · simpa [putRecord, hbegin] using hqueue q rfl
      · rw [hbegin] at hflag
        simpa [putRecord, hbegin, World.startPut, ← hflag, hmap] using h.running id
      · exact mem_issue w answer (h.issued id (by simpa [putRecord, hbegin, hmap] using hid))
  | false =>
      rw [hbegin] at hflag
      cases answer with
      | error e =>
          refine ⟨?_, fun id => ?_, fun id hid => h.issued id ?_⟩
          · simpa [putRecord, hbegin, held] using
              hqueue { q with backoff := q.backoff.startNext now false } rfl
          · simpa [putRecord, hbegin, World.startPut, hmap] using h.running id
          · simpa [putRecord, hbegin, hmap] using hid
      | ok queryId =>
          have hnew : queryId ∉ b.inProgressPutRecordQueries := by
            intro hmem
            have := h.issued queryId (hmap ▸ hmem)
            simp [World.Fresh, this] at hfresh
          refine ⟨?_, fun id => ?_, fun id hid => ?_⟩
          · simp only [putRecord, hbegin, held, Bool.not_false, if_true]
            rw [AList.image_insert_of_notMem record hnew, Multiset.cons_add]
          · simp only [putRecord, hbegin, World.startPut, ← hflag, Bool.not_false, if_true,
              hmap]
            by_cases hid : id = queryId
            · subst hid
              simp [record]
            · rw [AList.lookup_insert_ne hid, AList.lookup_insert_ne hid]
              exact h.running id
          · simp only [putRecord, hbegin, Bool.not_false, if_true, AList.mem_insert] at hid
            rcases hid with rfl | hid
            · exact List.mem_cons_self
            · exact List.mem_cons_of_mem _ (h.issued id (hmap ▸ hid))

/-! ## Results of put queries -/

theorem putInv_handlePutQuery {w : World} (h : PutInv w) (now : Instant)
    (result : Except Unit Unit) (id : QueryId) :
    PutInv { w.endPut id result with
      behaviour := handlePutQuery w.behaviour now result id } := by
  cases hlookup : w.behaviour.inProgressPutRecordQueries.lookup id with
  | none =>
      have hrunning : w.runningPuts.lookup id = none := by
        rw [h.running id, hlookup]
        rfl
      simpa [handlePutQuery, World.endPut, hlookup, hrunning] using h
  | some q =>
      have hrunning : w.runningPuts.lookup id = some (record q) := by
        rw [h.running id, hlookup]
        rfl
      have hbalance := AList.image_eq_cons_erase record hlookup
      have herase : ∀ id', (w.runningPuts.erase id).lookup id' =
          ((w.behaviour.inProgressPutRecordQueries.erase id).lookup id').map record := by
        intro id'
        by_cases hid : id' = id
        · subst hid
          rw [AList.lookup_erase, AList.lookup_erase]
          rfl
        · rw [AList.lookup_erase_ne hid, AList.lookup_erase_ne hid]
          exact h.running id'
      have hissued : ∀ id' ∈ w.behaviour.inProgressPutRecordQueries.erase id,
          id' ∈ w.issued := fun id' hid' => h.issued id' (AList.mem_erase.mp hid').2
      have hconserved := h.conserved
      unfold held at hconserved
      rw [hbalance] at hconserved
      cases result with
      | ok u =>
          refine ⟨?_, ?_, ?_⟩
          · simp only [World.endPut, hrunning, handlePutQuery, hlookup, held]
            rw [hconserved, Multiset.cons_add, Multiset.cons_add, Multiset.add_cons]
          · simpa [World.endPut, hrunning, handlePutQuery, hlookup] using herase
          · simpa [World.endPut, hrunning, handlePutQuery, hlookup] using hissued
      | error e =>
          refine ⟨?_, ?_, ?_⟩
          · simp only [World.endPut, hrunning, handlePutQuery, hlookup, held]
            rw [hconserved, List.map_append, List.map_singleton, coe_concat,
              Multiset.add_cons, Multiset.cons_add]
            rfl
          · simpa [World.endPut, hrunning, handlePutQuery, hlookup] using herase
          · simpa [World.endPut, hrunning, handlePutQuery, hlookup] using hissued

/-- Every event but a final put result leaves the puts alone. -/
theorem handleEvent_putPart (b : Behaviour) (now : Instant) (retryId : QueryId)
    {event : KadEvent}
    (h : ∀ id result, event ≠ .outboundQueryProgressed id (.putRecord result) true) :
    putPart (handleEvent b now retryId event) = putPart b := by
  unfold handleEvent
  split
  · exact absurd rfl (h _ _)
  · exact handleClosestPeers_putPart _ _ _
  · exact handleGetQuery_putPart _ _ _ _ _
  · exact handleBootstrapOk_putPart _ _
  · exact handleBootstrapErr_putPart _ _ _
  · rfl

theorem observe_puts (w : World) {event : KadEvent}
    (h : ∀ id result, event ≠ .outboundQueryProgressed id (.putRecord result) true) :
    (w.observe event).runningPuts = w.runningPuts ∧
      (w.observe event).submitted = w.submitted ∧
      (w.observe event).succeeded = w.succeeded := by
  unfold World.observe
  split
  · exact absurd rfl (h _ _)
  · exact ⟨rfl, rfl, rfl⟩
  · exact ⟨rfl, rfl, rfl⟩

theorem endPut_frame (w : World) (id : QueryId) (result : Except Unit Unit) :
    (w.endPut id result).issued = w.issued ∧
      (w.runningPuts.lookup id = none → (w.endPut id result).succeeded = w.succeeded) := by
  cases hrunning : w.runningPuts.lookup id with
  | none => simp [World.endPut, hrunning]
  | some record => cases result <;> simp [World.endPut, hrunning]

/-! ## The queued puts -/

theorem putInv_drainPut {w : World} (h : PutInv w) {now : Instant} {answer : PutAnswer}
    (hfresh : w.Fresh answer = true) {b : Behaviour}
    (hb : drainPut w.behaviour now answer = some b) :
    PutInv { w with
      behaviour := b
      issued := w.issue answer
      runningPuts :=
        match w.behaviour.queuedPutRecordQueries with
        | req :: _ =>
            if req.backoff.isExpired now then w.startPut answer req.key req.value
            else w.runningPuts
        | [] => w.runningPuts } := by
  obtain ⟨req, rest, hqueue, hcases⟩ := drainPut_cases hb
  -- the request is out of the queue while the iteration runs
  have hheld : held w.behaviour =
      record req ::ₘ held { w.behaviour with queuedPutRecordQueries := rest } := by
    unfold held
    rw [hqueue, List.map_cons, ← Multiset.cons_coe, Multiset.add_cons]
  have hconserved := h.conserved
  rw [hheld] at hconserved
  rw [hqueue]
  dsimp only
  rcases hcases with ⟨hexp, rfl⟩ | ⟨hexp, rfl⟩
  · obtain ⟨hput, hrunning, hissued⟩ := putRecord_hands_over h
      (b := { w.behaviour with queuedPutRecordQueries := rest }) rfl rfl hfresh now req
    rw [if_pos hexp]
    refine ⟨?_, hrunning, hissued⟩
    rw [hput]
    exact hconserved
  · rw [if_neg (by simp [hexp])]
    refine ⟨?_, h.running, fun id hid => mem_issue w answer (h.issued id hid)⟩
    rw [hconserved]
    unfold held
    rw [List.map_append, List.map_singleton, coe_concat, Multiset.add_cons]

/-! ## Steps and runs -/

theorem putInv_step {w w' : World} {a : Act} (h : PutInv w) (hstep : step w a = some w') :
    PutInv w' := by
  cases a with
  | beginBootstrap =>
      cases hstep
      exact h.frame rfl rfl rfl rfl fun _ hid => hid
  | addAddress peer address =>
      cases hstep
      exact h.frame rfl rfl rfl rfl fun _ hid => hid
  | addBootnodes peer address =>
      cases hstep
      exact h.frame (addBootnodes_putPart _ _ _) rfl rfl rfl fun _ hid => hid
  | putRecord now answer key value =>
      simp only [step, Option.ite_none_right_eq_some, Option.some.injEq] at hstep
      obtain ⟨hfresh, rfl⟩ := hstep
      obtain ⟨hheld, hrunning, hissued⟩ := putRecord_hands_over h rfl rfl hfresh now
        { backoff := .default, key, value }
      refine ⟨?_, hrunning, hissued⟩
      rw [hheld, Multiset.cons_add, ← h.conserved]
      rfl
  | getRecord queryId key retryCount =>
      simp only [step, Option.ite_none_right_eq_some, Option.some.injEq] at hstep
      obtain ⟨-, rfl⟩ := hstep
      exact h.frame (getRecord_putPart _ _ _ _ _) rfl rfl rfl fun _ =>
        mem_issue w (.ok queryId)
  | pollBootstrap now answer =>
      simp only [step, Option.ite_none_right_eq_some, Option.some.injEq] at hstep
      obtain ⟨-, rfl⟩ := hstep
      exact h.frame (pollBootstrap_putPart _ _ _) rfl rfl rfl fun _ => mem_issue w answer
  | drainGet now queryId =>
      simp only [step, Option.ite_none_right_eq_some, Option.map_eq_some_iff] at hstep
      obtain ⟨-, b, hb, rfl⟩ := hstep
      exact h.frame (drainGet_frame hb).2 rfl rfl rfl fun _ => mem_issue w (.ok queryId)
  | drainPut now answer =>
      simp only [step, Option.ite_none_right_eq_some, Option.map_eq_some_iff] at hstep
      obtain ⟨hfresh, b, hb, rfl⟩ := hstep
      exact putInv_drainPut h hfresh hb
  | kadEvent now retryId event =>
      simp only [step, Option.ite_none_right_eq_some, Option.some.injEq] at hstep
      obtain ⟨-, rfl⟩ := hstep
      by_cases hput : ∃ id result,
          event = .outboundQueryProgressed id (.putRecord result) true
      · obtain ⟨id, result, rfl⟩ := hput
        refine (putInv_handlePutQuery h now result id).frame rfl rfl rfl rfl fun i hi => ?_
        rw [(endPut_frame w id result).1] at hi
        exact mem_issue w (.ok retryId) hi
      · push Not at hput
        obtain ⟨hrunning, hsubmitted, hsucceeded⟩ := observe_puts w hput
        exact h.frame (handleEvent_putPart _ _ _ hput) hrunning hsubmitted hsucceeded
          fun _ => mem_issue w (.ok retryId)

theorem unknownIdKept_step {w w' : World} {a : Act} (h : PutInv w)
    (hstep : step w a = some w') : UnknownIdKept w a w' := by
  rintro now retryId id result last rfl hid
  simp only [step, Option.ite_none_right_eq_some, Option.some.injEq] at hstep
  obtain ⟨-, rfl⟩ := hstep
  by_cases hput : ∃ id' result',
      KadEvent.outboundQueryProgressed id result last =
        .outboundQueryProgressed id' (.putRecord result') true
  · obtain ⟨id', result', heq⟩ := hput
    cases heq
    have hlookup : w.behaviour.inProgressPutRecordQueries.lookup id = none :=
      AList.lookup_eq_none.mpr hid
    have hrunning : w.runningPuts.lookup id = none := by
      rw [h.running id, hlookup]
      rfl
    have hkept : handlePutQuery w.behaviour now result' id = w.behaviour := by
      simp [handlePutQuery, hlookup]
    simp only [handleEvent, hkept, World.observe]
    exact ⟨trivial, trivial, (endPut_frame w id result').2 hrunning⟩
  · push Not at hput
    have hpart := handleEvent_putPart w.behaviour now retryId hput
    simp only [putPart, Prod.mk.injEq] at hpart
    exact ⟨hpart.1, hpart.2, (observe_puts w hput).2.2⟩

/-- In every state of every run the submitted records are those in progress, those
queued and those stored with success, and an event about an unknown query changes
none of the three. -/
theorem puts_conserved (replicationFactor : Nat) (acts : List Act) :
    Machine.Along step (fun w a w' => Conserved w' ∧ UnknownIdKept w a w')
      (initial replicationFactor) acts := by
  refine Machine.along_of_step PutInv (fun w a w' h hstep => ?_) acts
    (putInv_initial replicationFactor)
  have hinv := putInv_step h hstep
  exact ⟨hinv, hinv.conserved, unknownIdKept_step h hstep⟩

end P2pa.Dht
