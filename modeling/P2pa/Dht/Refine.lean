import P2pa.Dht.Poll
import P2pa.Dht.Run

/-!
# A poll is a run of its parts

The runs of `Run` take the parts of `poll` and the events of kad one by one.  Each poll as a
whole is such a run; only the events that wait for the swarm are not taken out there.
-/

namespace P2pa.Dht

open P2pa.Utils

/-- The two differ at most in the events that wait. -/
def Same (b b' : Behaviour) : Prop := ∃ queue, b' = { b with eventQueue := queue }

namespace Same

variable {b b' : Behaviour} (h : Same b b')

include h

theorem dequeue (queue : List Event) : Same { b with eventQueue := queue } b' := by
  obtain ⟨waiting, rfl⟩ := h
  exact ⟨waiting, rfl⟩

theorem beginBootstrap : Same (beginBootstrap b) (Dht.beginBootstrap b') := by
  obtain ⟨waiting, rfl⟩ := h
  exact ⟨waiting, rfl⟩

theorem addAddress (peer : PeerId) (address : Multiaddr) :
    Same (addAddress b peer address) (Dht.addAddress b' peer address) := by
  obtain ⟨waiting, rfl⟩ := h
  exact ⟨waiting, rfl⟩

theorem addBootnodes (peer : PeerId) (address : Multiaddr) :
    Same (addBootnodes b peer address) (Dht.addBootnodes b' peer address) := by
  obtain ⟨waiting, rfl⟩ := h
  refine ⟨waiting, ?_⟩
  unfold Dht.addBootnodes
  dsimp only
  split <;> rfl

theorem putRecord (now : Instant) (answer : PutAnswer) (query : KadPutQuery) :
    Same (putRecord b now answer query) (Dht.putRecord b' now answer query) := by
  obtain ⟨waiting, rfl⟩ := h
  refine ⟨waiting, ?_⟩
  unfold Dht.putRecord
  dsimp only
  split
  · cases answer <;> rfl
  · rfl

theorem getRecord (queryId : QueryId) (key : Bytes) (backoff : ExponentialBackoff)
    (retryCount : UInt8) :
    Same (getRecord b queryId key backoff retryCount)
      (Dht.getRecord b' queryId key backoff retryCount) := by
  obtain ⟨waiting, rfl⟩ := h
  refine ⟨waiting, ?_⟩
  unfold Dht.getRecord
  split <;> rfl

theorem readdBootnodes : Same (readdBootnodes b) (Dht.readdBootnodes b') := by
  obtain ⟨waiting, rfl⟩ := h
  exact ⟨waiting, rfl⟩

theorem pollBootstrap (now : Instant) (answer : BootstrapAnswer) :
    Same (pollBootstrap b now answer) (Dht.pollBootstrap b' now answer) := by
  obtain ⟨waiting, rfl⟩ := h
  refine ⟨waiting, ?_⟩
  have hstarts : startsBootstrap { b with eventQueue := waiting } now = startsBootstrap b now :=
    rfl
  unfold Dht.pollBootstrap
  rw [hstarts]
  split
  · cases answer <;> rfl
  · rfl

theorem drainGet {now : Instant} {queryId : QueryId} {b₁ : Behaviour}
    (hdrain : drainGet b now queryId = some b₁) :
    ∃ b₁', Dht.drainGet b' now queryId = some b₁' ∧ Same b₁ b₁' := by
  obtain ⟨waiting, rfl⟩ := h
  obtain ⟨req, rest, hqueue, hcases⟩ := drainGet_cases hdrain
  have hmid : Same { b with queuedGetRecordQueries := rest }
      { b with queuedGetRecordQueries := rest, eventQueue := waiting } := ⟨waiting, rfl⟩
  unfold Dht.drainGet
  rw [hqueue]
  dsimp only
  rcases hcases with ⟨hexpired, rfl⟩ | ⟨hexpired, rfl⟩
  · rw [hexpired]
    exact ⟨_, rfl, hmid.getRecord _ _ _ _⟩
  · rw [hexpired]
    exact ⟨_, rfl, waiting, rfl⟩

theorem drainPut {now : Instant} {answer : PutAnswer} {b₁ : Behaviour}
    (hdrain : drainPut b now answer = some b₁) :
    ∃ b₁', Dht.drainPut b' now answer = some b₁' ∧ Same b₁ b₁' := by
  obtain ⟨waiting, rfl⟩ := h
  obtain ⟨req, rest, hqueue, hcases⟩ := drainPut_cases hdrain
  have hmid : Same { b with queuedPutRecordQueries := rest }
      { b with queuedPutRecordQueries := rest, eventQueue := waiting } := ⟨waiting, rfl⟩
  unfold Dht.drainPut
  rw [hqueue]
  dsimp only
  rcases hcases with ⟨hexpired, rfl⟩ | ⟨hexpired, rfl⟩
  · rw [hexpired]
    exact ⟨_, rfl, hmid.putRecord _ _ _⟩
  · rw [hexpired]
    exact ⟨_, rfl, waiting, rfl⟩

theorem handlePutQuery (now : Instant) (result : Except Unit Unit) (id : QueryId) :
    Same (handlePutQuery b now result id) (Dht.handlePutQuery b' now result id) := by
  obtain ⟨waiting, rfl⟩ := h
  refine ⟨waiting, ?_⟩
  unfold Dht.handlePutQuery
  dsimp only
  split
  · cases result <;> rfl
  · rfl

theorem handleGetQuery (retryId : QueryId) (result : Except Unit GetRecordOk) (id : QueryId)
    (last : Bool) :
    Same (handleGetQuery b retryId result id last)
      (Dht.handleGetQuery b' retryId result id last) := by
  obtain ⟨waiting, rfl⟩ := h
  cases hentry : b.inProgressGetRecordQueries.lookup id with
  | none =>
      rw [handleGetQuery_of_none hentry, handleGetQuery_of_none (by exact hentry)]
      exact ⟨waiting, rfl⟩
  | some entry =>
      cases last with
      | false =>
          rw [handleGetQuery_of_not_last hentry, handleGetQuery_of_not_last (by exact hentry)]
          exact ⟨waiting, rfl⟩
      | true =>
          rw [handleGetQuery_of_last hentry, handleGetQuery_of_last (by exact hentry)]
          have hmid : Same { b with
              inProgressGetRecordQueries :=
                (b.inProgressGetRecordQueries.insert id (tally entry result)).erase id }
            { b with
              eventQueue := waiting
              inProgressGetRecordQueries :=
                (b.inProgressGetRecordQueries.insert id (tally entry result)).erase id } :=
            ⟨waiting, rfl⟩
          exact hmid.getRecord _ _ _ _

theorem handleClosestPeers (now : Instant) (id : QueryId) :
    Same (handleClosestPeers b now id) (Dht.handleClosestPeers b' now id) := by
  obtain ⟨waiting, rfl⟩ := h
  refine ⟨waiting, ?_⟩
  unfold Dht.handleClosestPeers
  dsimp only
  split <;> rfl

theorem handleBootstrapOk (numRemaining : Nat) :
    Same (handleBootstrapOk b numRemaining) (Dht.handleBootstrapOk b' numRemaining) := by
  obtain ⟨waiting, rfl⟩ := h
  unfold Dht.handleBootstrapOk
  split
  · exact ⟨_, rfl⟩
  · exact ⟨waiting, rfl⟩

theorem handleBootstrapErr (now : Instant) (e : BootstrapError) :
    Same (handleBootstrapErr b now e) (Dht.handleBootstrapErr b' now e) := by
  obtain ⟨waiting, rfl⟩ := h
  refine ⟨waiting, ?_⟩
  unfold Dht.handleBootstrapErr
  cases e.numRemaining <;> rfl

theorem handleEvent (now : Instant) (retryId : QueryId) (event : KadEvent) :
    Same (handleEvent b now retryId event) (Dht.handleEvent b' now retryId event) := by
  unfold Dht.handleEvent
  split
  · exact h.handlePutQuery _ _ _
  · exact h.handleClosestPeers _ _
  · exact h.handleGetQuery _ _ _ _
  · exact h.handleBootstrapOk _
  · exact h.handleBootstrapErr _ _
  · exact h

end Same

/-! ## The steps of a poll -/

variable {P : Type}

def drainAct (now : Instant) (answer : Answer) : Request → Act
  | .get _ => .drainGet now answer.getRecord
  | .put _ => .drainPut now answer.putRecord

def drainActs (now : Instant) (answers : Nat → Answer) : Nat → Nat → Behaviour → List Act
  | 0, _, _ => []
  | fuel + 1, i, b =>
      match drainStep b now (answers i) with
      | none => []
      | some (req, b) => drainAct now (answers i) req :: drainActs now answers fuel (i + 1) b

/-- The loop ends once an event waits. -/
def eventActs : Behaviour → Stream' (Instant × QueryId) → List (ToSwarm KadEvent P) → List Act
  | b, reads, .generateEvent event :: rest =>
      let b := handleEvent b reads.head.1 reads.head.2 event
      .kadEvent reads.head.1 reads.head.2 event ::
        if b.eventQueue.isEmpty then eventActs b reads.tail rest else []
  | _, _, _ => []

def pollActs (b : Behaviour) (now : Instant) (answer : BootstrapAnswer) (drainNow : Instant)
    (answers : Nat → Answer) (fuel : Nat) (reads : Stream' (Instant × QueryId))
    (yields : List (ToSwarm KadEvent P)) : List Act :=
  let b := pollBootstrap b now answer
  .pollBootstrap now answer :: drainActs drainNow answers fuel 0 b ++
    (drain drainNow answers fuel 0 b).elim [] fun drained => eventActs drained.2 reads yields

section Steps

variable {b : Behaviour} {w w' : World}

theorem same_step_drain (h : Same b w.behaviour) {now : Instant} {answer : Answer}
    {req : Request} {b' : Behaviour} (hdrain : drainStep b now answer = some (req, b'))
    (hstep : step w (drainAct now answer req) = some w') : Same b' w'.behaviour := by
  unfold drainStep at hdrain
  split at hdrain
  · obtain ⟨b₁, hb₁, heq⟩ := Option.map_eq_some_iff.mp hdrain
    cases heq
    obtain ⟨b₂, hb₂, hsame⟩ := h.drainGet hb₁
    obtain ⟨-, hrest⟩ := Option.ite_none_right_eq_some.mp hstep
    rw [hb₂] at hrest
    cases hrest
    exact hsame
  · obtain ⟨b₁, hb₁, heq⟩ := Option.map_eq_some_iff.mp hdrain
    cases heq
    obtain ⟨b₂, hb₂, hsame⟩ := h.drainPut hb₁
    obtain ⟨-, hrest⟩ := Option.ite_none_right_eq_some.mp hstep
    rw [hb₂] at hrest
    cases hrest
    exact hsame
  · cases hdrain

theorem same_drain (h : Same b w.behaviour) {now : Instant} {answers : Nat → Answer}
    {fuel i : Nat} {drained : List Request × Behaviour}
    (hdrain : drain now answers fuel i b = some drained)
    (hrun : Machine.run step w (drainActs now answers fuel i b) = some w') :
    Same drained.2 w'.behaviour := by
  induction fuel generalizing i b w drained with
  | zero =>
      unfold drain at hdrain
      split at hdrain
      · cases hdrain
        cases hrun
        exact h
      · cases hdrain
  | succ fuel ih =>
      unfold drain at hdrain
      unfold drainActs at hrun
      cases hfirst : drainStep b now (answers i) with
      | none =>
          rw [hfirst] at hdrain hrun
          cases hdrain
          cases hrun
          exact h
      | some taken =>
          rw [hfirst] at hdrain hrun
          obtain ⟨r, hr, rfl⟩ := Option.map_eq_some_iff.mp hdrain
          obtain ⟨w₁, hw₁, hrest⟩ := Option.bind_eq_some_iff.mp hrun
          have hsame : Same r.2 w'.behaviour := ih (same_step_drain h hfirst hw₁) hr hrest
          exact hsame

theorem same_forwardEvents (h : Same b w.behaviour) (reads : Stream' (Instant × QueryId))
    {yields : List (ToSwarm KadEvent P)}
    (hrun : Machine.run step w (eventActs b reads yields) = some w') :
    Same (forwardEvents b reads yields).state w'.behaviour := by
  induction yields generalizing b reads w with
  | nil =>
      cases hrun
      exact h
  | cons action rest ih =>
      cases action with
      | generateEvent event =>
          obtain ⟨w₁, hw₁, hrest⟩ := Option.bind_eq_some_iff.mp hrun
          obtain ⟨-, heq⟩ := Option.ite_none_right_eq_some.mp hw₁
          cases heq
          have hevent := h.handleEvent reads.head.1 reads.head.2 event
          unfold forwardEvents
          dsimp only at hrest ⊢
          split
          · next first queue hqueue =>
              rw [hqueue] at hrest
              cases hrest
              exact hevent.dequeue queue
          · next hqueue =>
              rw [hqueue] at hrest
              exact ih hevent reads.tail hrest
      | _ =>
          cases hrun
          exact h

/-- A poll as a whole, where kad does what it does in the run. -/
theorem same_poll (h : Same b w.behaviour) {now : Instant} {answer : BootstrapAnswer}
    {drainNow : Instant} {answers : Nat → Answer} {fuel : Nat}
    {reads : Stream' (Instant × QueryId)} {yields : List (ToSwarm KadEvent P)}
    {polled : Polled Behaviour KadEvent Event P}
    (hpoll : poll b now answer drainNow answers fuel reads yields = some polled)
    (hrun : Machine.run step w (pollActs b now answer drainNow answers fuel reads yields) =
      some w') : Same polled.state w'.behaviour := by
  obtain ⟨drained, hdrained, rfl⟩ := Option.map_eq_some_iff.mp hpoll
  unfold pollActs at hrun
  dsimp only at hrun
  rw [hdrained, Option.elim_some, List.cons_append, Machine.run_cons,
    Option.bind_eq_some_iff] at hrun
  obtain ⟨w₁, hw₁, hrest⟩ := hrun
  rw [Machine.run_append, Option.bind_eq_some_iff] at hrest
  obtain ⟨w₂, hw₂, hevents⟩ := hrest
  obtain ⟨-, heq⟩ := Option.ite_none_right_eq_some.mp hw₁
  cases heq
  exact same_forwardEvents (same_drain (h.pollBootstrap now answer) hdrained hw₂) reads hevents

end Steps

/-! ## What is submitted -/

def submits : Act → Option (Bytes × Bytes)
  | .putRecord _ _ key value => some (key, value)
  | _ => none

theorem observe_submitted (w : World) (event : KadEvent) :
    (w.observe event).submitted = w.submitted := by
  unfold World.observe
  split
  · unfold World.endPut
    split <;> rfl
  · rfl
  · rfl

theorem step_submitted {w w' : World} {a : Act} (hstep : step w a = some w') :
    w'.submitted = (submits a).toList + w.submitted := by
  have hnone : w.submitted = ([] : List (Bytes × Bytes)) + w.submitted := (zero_add _).symm
  cases a with
  | beginBootstrap =>
      cases hstep
      exact hnone
  | addAddress peer address =>
      cases hstep
      exact hnone
  | addBootnodes peer address =>
      cases hstep
      exact hnone
  | putRecord now answer key value =>
      obtain ⟨-, heq⟩ := Option.ite_none_right_eq_some.mp hstep
      cases heq
      exact (Multiset.singleton_add _ _).symm
  | getRecord queryId key retryCount =>
      obtain ⟨-, heq⟩ := Option.ite_none_right_eq_some.mp hstep
      cases heq
      exact hnone
  | pollBootstrap now answer =>
      obtain ⟨-, heq⟩ := Option.ite_none_right_eq_some.mp hstep
      cases heq
      exact hnone
  | drainGet now queryId =>
      obtain ⟨-, heq⟩ := Option.ite_none_right_eq_some.mp hstep
      obtain ⟨b, hb, rfl⟩ := Option.map_eq_some_iff.mp heq
      exact hnone
  | drainPut now answer =>
      obtain ⟨-, heq⟩ := Option.ite_none_right_eq_some.mp hstep
      obtain ⟨b, hb, rfl⟩ := Option.map_eq_some_iff.mp heq
      exact hnone
  | kadEvent now retryId event =>
      obtain ⟨-, heq⟩ := Option.ite_none_right_eq_some.mp hstep
      cases heq
      exact (observe_submitted w event).trans hnone

theorem run_submitted {w w' : World} {acts : List Act}
    (hrun : Machine.run step w acts = some w') :
    w'.submitted = acts.filterMap submits + w.submitted := by
  induction acts generalizing w with
  | nil =>
      cases hrun
      exact (zero_add _).symm
  | cons a acts ih =>
      obtain ⟨w₁, hw₁, hrest⟩ := Option.bind_eq_some_iff.mp hrun
      have hcons : (a :: acts).filterMap submits =
          (submits a).toList ++ acts.filterMap submits := by
        cases ha : submits a with
        | none => rw [List.filterMap_cons_none ha, Option.toList_none, List.nil_append]
        | some record => rw [List.filterMap_cons_some ha, Option.toList_some, List.singleton_append]
      rw [ih hrest, step_submitted hw₁, hcons, ← Multiset.coe_add, add_left_comm, add_assoc]

theorem drainActs_submits (now : Instant) (answers : Nat → Answer) (fuel i : Nat)
    (b : Behaviour) : (drainActs now answers fuel i b).filterMap submits = [] := by
  induction fuel generalizing i b with
  | zero => rfl
  | succ fuel ih =>
      unfold drainActs
      split
      · rfl
      · next req b' hstep =>
          have hnone : submits (drainAct now (answers i) req) = none := by cases req <;> rfl
          rw [List.filterMap_cons_none hnone]
          exact ih _ _

theorem eventActs_submits (b : Behaviour) (reads : Stream' (Instant × QueryId))
    (yields : List (ToSwarm KadEvent P)) :
    (eventActs b reads yields).filterMap submits = [] := by
  induction yields generalizing b reads with
  | nil => rfl
  | cons action rest ih =>
      cases action with
      | generateEvent event =>
          unfold eventActs
          dsimp only
          rw [List.filterMap_cons_none rfl]
          split
          · exact ih _ _
          · rfl
      | _ => rfl

theorem pollActs_submits (b : Behaviour) (now : Instant) (answer : BootstrapAnswer)
    (drainNow : Instant) (answers : Nat → Answer) (fuel : Nat)
    (reads : Stream' (Instant × QueryId)) (yields : List (ToSwarm KadEvent P)) :
    (pollActs b now answer drainNow answers fuel reads yields).filterMap submits = [] := by
  unfold pollActs
  dsimp only
  rw [List.cons_append, List.filterMap_cons_none rfl, List.filterMap_append, drainActs_submits,
    List.nil_append]
  cases drain drainNow answers fuel 0 (pollBootstrap b now answer) with
  | none => rfl
  | some drained => exact eventActs_submits _ _ _

end P2pa.Dht
