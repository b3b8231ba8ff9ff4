import P2pa.Dht.Drain
import P2pa.Swarm

/-!
# The DHT wrapper passes on what kad yields

`poll` as a whole, and runs of the calls of the node and of `poll`.  Unlike its
siblings the loop looks at the queue of events after each event of kad, so it returns
an event before it asks kad again.
-/

namespace P2pa.Dht

open P2pa.Utils

variable {P : Type}

/-- The loop over what kad yields.  `reads` has, for each event handled, the instant
read and the id kad gives a query that the handler may start. -/
def forwardEvents : Behaviour → Stream' (Instant × QueryId) → List (ToSwarm KadEvent P) →
    Polled Behaviour KadEvent Event P
  | b, _, [] => ⟨b, none, []⟩
  | b, reads, .generateEvent event :: rest =>
      let b := handleEvent b reads.head.1 reads.head.2 event
      match b.eventQueue with
      | event :: queue => ⟨{ b with eventQueue := queue }, some (.generateEvent event), rest⟩
      | [] => forwardEvents b reads.tail rest
  | b, _, .dial opts :: rest => ⟨b, some (.dial opts), rest⟩
  | b, _, .notifyHandler peerId handler event :: rest =>
      ⟨b, some (.notifyHandler peerId handler event), rest⟩
  | b, _, .closeConnection peerId connection :: rest =>
      ⟨b, some (.closeConnection peerId connection), rest⟩
  | b, _, .listenOn opts :: rest => ⟨b, some (.listenOn opts), rest⟩
  | b, _, .removeListener id :: rest => ⟨b, some (.removeListener id), rest⟩
  | b, _, .newExternalAddrCandidate c :: rest =>
      ⟨b, some (.newExternalAddrCandidate c), rest⟩
  | b, _, .externalAddrConfirmed c :: rest => ⟨b, some (.externalAddrConfirmed c), rest⟩
  | b, _, .externalAddrExpired c :: rest => ⟨b, some (.externalAddrExpired c), rest⟩

/-- `answer` and `answers` are kad's to the bootstrap and to the calls of the draining
loops; `none` means that these loops do not end within the fuel. -/
def poll (b : Behaviour) (now : Instant) (answer : BootstrapAnswer)
    (drainNow : Instant) (answers : Nat → Answer) (fuel : Nat)
    (reads : Stream' (Instant × QueryId)) (yields : List (ToSwarm KadEvent P)) :
    Option (Polled Behaviour KadEvent Event P) :=
  (drain drainNow answers fuel 0 (pollBootstrap b now answer)).map fun drained =>
    forwardEvents drained.2 reads yields

inductive Input (P : Type)
  | beginBootstrap
  | lookupPeer (peer : PeerId) (queryId : QueryId)
  | addAddress (peer : PeerId) (address : Multiaddr)
  | addBootnodes (peer : PeerId) (address : Multiaddr)
  | putRecord (now : Instant) (answer : PutAnswer) (query : KadPutQuery)
  | getRecord (queryId : QueryId) (key : Bytes) (backoff : ExponentialBackoff)
      (retryCount : UInt8)
  | poll (now : Instant) (answer : BootstrapAnswer) (drainNow : Instant)
      (answers : Nat → Answer) (fuel : Nat) (reads : Stream' (Instant × QueryId))
      (yields : List (ToSwarm KadEvent P))

structure Wrapper (P : Type) where
  behaviour : Behaviour
  ledger : Ledger KadEvent Event P

namespace Wrapper

def start (replicationFactor : Nat) : Wrapper P where
  behaviour := new replicationFactor
  ledger := .empty

def step (w : Wrapper P) : Input P → Option (Wrapper P)
  | .beginBootstrap => some { w with behaviour := beginBootstrap w.behaviour }
  | .lookupPeer peer queryId =>
      some { w with behaviour := lookupPeer w.behaviour peer queryId }
  | .addAddress peer address =>
      some { w with behaviour := addAddress w.behaviour peer address }
  | .addBootnodes peer address =>
      some { w with behaviour := addBootnodes w.behaviour peer address }
  | .putRecord now answer query =>
      some { w with behaviour := putRecord w.behaviour now answer query }
  | .getRecord queryId key backoff retryCount =>
      some { w with behaviour := getRecord w.behaviour queryId key backoff retryCount }
  | .poll now answer drainNow answers fuel reads yields =>
      (poll w.behaviour now answer drainNow answers fuel reads yields).map fun polled =>
        { behaviour := polled.state, ledger := w.ledger.record yields polled }

end Wrapper

/-- One `IsBootstrapped` for a final successful bootstrap result with nothing
remaining. -/
def image : KadEvent → List Event
  | .outboundQueryProgressed _ (.bootstrap (.ok numRemaining)) true =>
      if numRemaining = 0 then [.isBootstrapped] else []
  | _ => []

/-! ## What touches the queue of events -/

theorem addBootnodes_eventQueue (b : Behaviour) (peer : PeerId) (address : Multiaddr) :
    (addBootnodes b peer address).eventQueue = b.eventQueue := by
  unfold addBootnodes
  split <;> rfl

theorem putRecord_eventQueue (b : Behaviour) (now : Instant) (answer : PutAnswer)
    (query : KadPutQuery) : (putRecord b now answer query).eventQueue = b.eventQueue := by
  unfold putRecord
  split
  · cases answer <;> rfl
  · rfl

theorem getRecord_eventQueue (b : Behaviour) (queryId : QueryId) (key : Bytes)
    (backoff : ExponentialBackoff) (retryCount : UInt8) :
    (getRecord b queryId key backoff retryCount).eventQueue = b.eventQueue := by
  unfold getRecord
  split <;> rfl

theorem pollBootstrap_eventQueue (b : Behaviour) (now : Instant) (answer : BootstrapAnswer) :
    (pollBootstrap b now answer).eventQueue = b.eventQueue := by
  unfold pollBootstrap
  split
  · cases answer <;> rfl
  · rfl

theorem drainStep_eventQueue {b b' : Behaviour} {now : Instant} {answer : Answer}
    {req : Request} (h : drainStep b now answer = some (req, b')) :
    b'.eventQueue = b.eventQueue := by
  unfold drainStep at h
  split at h
  · next q rest hget =>
      obtain ⟨b₁, hb₁, heq⟩ := Option.map_eq_some_iff.mp h
      cases heq
      obtain ⟨req, rest', -, ⟨-, rfl⟩ | ⟨-, rfl⟩⟩ := drainGet_cases hb₁
      · exact getRecord_eventQueue _ _ _ _ _
      · rfl
  · next q rest hget hput =>
      obtain ⟨b₁, hb₁, heq⟩ := Option.map_eq_some_iff.mp h
      cases heq
      obtain ⟨req, rest', -, ⟨-, rfl⟩ | ⟨-, rfl⟩⟩ := drainPut_cases hb₁
      · exact putRecord_eventQueue _ _ _ _
      · rfl
  · cases h

theorem drain_eventQueue {now : Instant} {answers : Nat → Answer} {fuel i : Nat}
    {b : Behaviour} {drained : List Request × Behaviour}
    (h : drain now answers fuel i b = some drained) :
    drained.2.eventQueue = b.eventQueue := by
  induction fuel generalizing i b drained with
  | zero =>
      unfold drain at h
      split at h
      · cases h
        rfl
      · cases h
  | succ fuel ih =>
      unfold drain at h
      split at h
      · cases h
        rfl
      · next req b₁ hstep =>
          obtain ⟨r, hr, rfl⟩ := Option.map_eq_some_iff.mp h
          exact (ih hr).trans (drainStep_eventQueue hstep)

theorem handlePutQuery_eventQueue (b : Behaviour) (now : Instant) (result : Except Unit Unit)
    (id : QueryId) : (handlePutQuery b now result id).eventQueue = b.eventQueue := by
  unfold handlePutQuery
  split
  · cases result <;> rfl
  · rfl

theorem handleGetQuery_eventQueue (b : Behaviour) (retryId : QueryId)
    (result : Except Unit GetRecordOk) (id : QueryId) (last : Bool) :
    (handleGetQuery b retryId result id last).eventQueue = b.eventQueue := by
  cases hentry : b.inProgressGetRecordQueries.lookup id with
  | none => rw [handleGetQuery_of_none hentry]
  | some entry =>
      cases last with
      | false => rw [handleGetQuery_of_not_last hentry]
      | true => rw [handleGetQuery_of_last hentry, getRecord_eventQueue]

theorem handleClosestPeers_eventQueue (b : Behaviour) (now : Instant) (id : QueryId) :
    (handleClosestPeers b now id).eventQueue = b.eventQueue := by
  unfold handleClosestPeers
  split <;> rfl

theorem handleBootstrapErr_eventQueue (b : Behaviour) (now : Instant) (e : BootstrapError) :
    (handleBootstrapErr b now e).eventQueue = b.eventQueue := by
  unfold handleBootstrapErr
  dsimp only
  split <;> rfl

theorem handleBootstrapOk_eventQueue (b : Behaviour) (numRemaining : Nat) :
    (handleBootstrapOk b numRemaining).eventQueue =
      b.eventQueue ++ if numRemaining = 0 then [.isBootstrapped] else [] := by
  unfold handleBootstrapOk
  split
  · rfl
  · exact (List.append_nil _).symm

theorem handleEvent_eventQueue (b : Behaviour) (now : Instant) (retryId : QueryId)
    (event : KadEvent) :
    (handleEvent b now retryId event).eventQueue = b.eventQueue ++ image event := by
  unfold handleEvent
  split
  · rw [handlePutQuery_eventQueue]
    exact (List.append_nil _).symm
  · rw [handleClosestPeers_eventQueue]
    exact (List.append_nil _).symm
  · rw [handleGetQuery_eventQueue]
    exact (List.append_nil _).symm
  · exact handleBootstrapOk_eventQueue b _
  · rw [handleBootstrapErr_eventQueue]
    exact (List.append_nil _).symm
  · next _ _ _ hother _ =>
      have himage : image event = [] := by
        unfold image
        split
        · exact absurd rfl (hother _ _)
        · rfl
      rw [himage, List.append_nil]

theorem passes_forwardEvents {b : Behaviour} {reads : Stream' (Instant × QueryId)}
    {yields : List (ToSwarm KadEvent P)} {polled : Polled Behaviour KadEvent Event P}
    (h : forwardEvents b reads yields = polled) :
    ∃ taken, yields = taken ++ polled.rest ∧
      Ledger.Passes image b.eventQueue polled.state.eventQueue taken polled.returned := by
  induction yields generalizing b reads with
  | nil =>
      subst h
      exact ⟨[], rfl, rfl, (List.append_nil _).symm⟩
  | cons action rest ih =>
      cases action with
      | generateEvent event =>
          have hqueue := handleEvent_eventQueue b reads.head.1 reads.head.2 event
          unfold forwardEvents at h
          dsimp only at h
          split at h
          · next first queue hfirst =>
              subst h
              refine ⟨[.generateEvent event], rfl, rfl, ?_⟩
              rw [hfirst] at hqueue
              exact hqueue.trans (by simp [ToSwarm.event])
          · next hempty =>
              obtain ⟨taken, hrest, hpasses⟩ := ih h
              rw [hqueue] at hpasses
              refine ⟨.generateEvent event :: taken, ?_, hpasses.actions, ?_⟩
              · rw [hrest, List.cons_append]
              · rw [hpasses.events, List.append_assoc]
                rfl
      | _ =>
          subst h
          exact ⟨[_], rfl, rfl, (List.append_nil _).symm⟩

/-! ## Runs -/

def Wrapper.Transparent (w : Wrapper P) : Prop :=
  w.ledger.Balanced image w.behaviour.eventQueue

theorem Wrapper.Transparent.of_eventQueue {w : Wrapper P} (h : w.Transparent) {b : Behaviour}
    (hb : b.eventQueue = w.behaviour.eventQueue) :
    Wrapper.Transparent { w with behaviour := b } := by
  unfold Wrapper.Transparent
  rw [hb]
  exact h

theorem transparent_start (replicationFactor : Nat) :
    (Wrapper.start replicationFactor : Wrapper P).Transparent := Ledger.balanced_empty _

theorem transparent_step {w w' : Wrapper P} {input : Input P} (h : w.Transparent)
    (hstep : w.step input = some w') : w'.Transparent := by
  cases input with
  | beginBootstrap =>
      cases hstep
      exact h.of_eventQueue rfl
  | lookupPeer peer queryId =>
      cases hstep
      exact h.of_eventQueue rfl
  | addAddress peer address =>
      cases hstep
      exact h.of_eventQueue rfl
  | addBootnodes peer address =>
      cases hstep
      exact h.of_eventQueue (addBootnodes_eventQueue _ _ _)
  | putRecord now answer query =>
      cases hstep
      exact h.of_eventQueue (putRecord_eventQueue _ _ _ _)
  | getRecord queryId key backoff retryCount =>
      cases hstep
      exact h.of_eventQueue (getRecord_eventQueue _ _ _ _ _)
  | poll now answer drainNow answers fuel reads yields =>
      obtain ⟨polled, hpolled, rfl⟩ := Option.map_eq_some_iff.mp hstep
      obtain ⟨drained, hdrained, hforward⟩ := Option.map_eq_some_iff.mp hpolled
      have hqueue : drained.2.eventQueue = w.behaviour.eventQueue :=
        (drain_eventQueue hdrained).trans (pollBootstrap_eventQueue _ _ _)
      obtain ⟨taken, hyields, hpasses⟩ := passes_forwardEvents hforward
      rw [hqueue] at hpasses
      exact Ledger.Balanced.record h hyields hpasses

end P2pa.Dht
