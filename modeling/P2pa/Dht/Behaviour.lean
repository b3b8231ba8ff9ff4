import P2pa.Libp2p
import P2pa.Utils.Backoff

/-!
# The DHT behaviour

`behaviours/dht_bhv.rs`.  The wrapped `kad::Behaviour` appears as the list of the
calls made on it and, where a call returns something, as an argument that holds
the answer.  A function that reads the clock takes the instant it reads.
-/

namespace P2pa.Dht

open P2pa.Utils

abbrev QueryId := Nat

abbrev Bytes := List UInt8

inductive Event
  | isBootstrapped
deriving DecidableEq, Repr

inductive State
  | notStarted
  | started
  | finished
deriving DecidableEq, Repr

structure Bootstrap where
  state : State
  backoff : ExponentialBackoff
deriving DecidableEq, Repr

structure RandomWalk where
  state : State
  backoff : ExponentialBackoff
deriving DecidableEq, Repr

structure KadGetQuery where
  backoff : ExponentialBackoff
  key : Bytes
  retryCount : UInt8
  records : AList fun _ : Bytes => Nat

structure KadPutQuery where
  backoff : ExponentialBackoff
  key : Bytes
  value : Bytes
deriving DecidableEq, Repr

/-- The calls the behaviour makes on `kad::Behaviour`. -/
inductive KadCall
  | getClosestPeers (peer : PeerId)
  | addAddress (peer : PeerId) (address : Multiaddr)
  | putRecord (key value : Bytes) (quorum : Nat)
  | getRecord (key : Bytes)
  | bootstrap
deriving DecidableEq, Repr

/-- What `kad::Behaviour::put_record` returns; the store error's kind is only
logged. -/
abbrev PutAnswer := Except Unit QueryId

/-- What `kad::Behaviour::bootstrap` returns; the error is `NoKnownPeers`. -/
abbrev BootstrapAnswer := Except Unit QueryId

structure Behaviour where
  beginBootstrap : Bool
  /-- `HashMap<PeerId, HashSet<Multiaddr>>`. -/
  bootnodes : AList fun _ : PeerId => List Multiaddr
  eventQueue : List Event
  /-- The senders are only used to report completion. -/
  inProgressGetClosestPeers : AList fun _ : QueryId => Unit
  inProgressPutRecordQueries : AList fun _ : QueryId => KadPutQuery
  inProgressGetRecordQueries : AList fun _ : QueryId => KadGetQuery
  queuedPutRecordQueries : List KadPutQuery
  queuedGetRecordQueries : List KadGetQuery
  kadDht : List KadCall
  bootstrap : Bootstrap
  randomWalk : RandomWalk
  replicationFactor : Nat

def initialBackoff : ExponentialBackoff :=
  (ExponentialBackoff.new 2 (.fromSecs 1)).get (by decide)

def new (replicationFactor : Nat) : Behaviour where
  beginBootstrap := false
  bootnodes := ∅
  eventQueue := []
  inProgressGetClosestPeers := ∅
  inProgressPutRecordQueries := ∅
  inProgressGetRecordQueries := ∅
  queuedPutRecordQueries := []
  queuedGetRecordQueries := []
  kadDht := []
  bootstrap := { state := .notStarted, backoff := initialBackoff }
  randomWalk := { state := .notStarted, backoff := initialBackoff }
  replicationFactor

/-! ## The calls of the node -/

def beginBootstrap (b : Behaviour) : Behaviour := { b with beginBootstrap := true }

/-- `peer` is the requested peer or the random one drawn in its place, `queryId`
what kad returns. -/
def lookupPeer (b : Behaviour) (peer : PeerId) (queryId : QueryId) : Behaviour :=
  { b with
    kadDht := b.kadDht ++ [KadCall.getClosestPeers peer]
    inProgressGetClosestPeers := b.inProgressGetClosestPeers.insert queryId () }

def addAddress (b : Behaviour) (peer : PeerId) (address : Multiaddr) : Behaviour :=
  { b with kadDht := b.kadDht ++ [KadCall.addAddress peer address] }

def addBootnodes (b : Behaviour) (peer : PeerId) (address : Multiaddr) : Behaviour :=
  match b.bootnodes.lookup peer with
  | some addrs =>
      { b with bootnodes := b.bootnodes.insert peer (List.insert address addrs) }
  | none => { b with bootnodes := b.bootnodes.insert peer [address] }

def readdBootnodes (b : Behaviour) : Behaviour :=
  { b with
    kadDht := b.kadDht ++ b.bootnodes.entries.flatMap fun entry =>
      entry.2.map (KadCall.addAddress entry.1) }

def putRecord (b : Behaviour) (now : Instant) (answer : PutAnswer)
    (query : KadPutQuery) : Behaviour :=
  if !b.beginBootstrap then
    let b := { b with
      kadDht := b.kadDht ++ [KadCall.putRecord query.key query.value b.replicationFactor] }
    match answer with
    | .ok queryId =>
        { b with
          inProgressPutRecordQueries := b.inProgressPutRecordQueries.insert queryId query }
    | .error _ =>
        let query := { query with backoff := query.backoff.startNext now false }
        { b with queuedPutRecordQueries := b.queuedPutRecordQueries ++ [query] }
  else
    { b with queuedPutRecordQueries := b.queuedPutRecordQueries ++ [query] }

def getRecord (b : Behaviour) (queryId : QueryId) (key : Bytes)
    (backoff : ExponentialBackoff) (retryCount : UInt8) : Behaviour :=
  if retryCount == 0 then b
  else
    let query : KadGetQuery :=
      { backoff, key, retryCount := retryCount - 1, records := ∅ }
    { b with
      kadDht := b.kadDht ++ [KadCall.getRecord key]
      inProgressGetRecordQueries := b.inProgressGetRecordQueries.insert queryId query }

/-! ## Results of kad queries -/

/-- `GetRecordOk`; of a found record only the value is used. -/
inductive GetRecordOk
  | foundRecord (value : Bytes)
  | finishedWithNoAdditionalRecord
deriving DecidableEq, Repr

structure BootstrapError where
  numRemaining : Option Nat
deriving DecidableEq, Repr

/-- `kad::QueryResult`.  The error of a record query is only logged. -/
inductive QueryResult
  | putRecord (result : Except Unit Unit)
  | getClosestPeers (result : Except Unit Unit)
  | getRecord (result : Except Unit GetRecordOk)
  | bootstrap (result : Except BootstrapError Nat)
  | other

inductive KadEvent
  | outboundQueryProgressed (id : QueryId) (result : QueryResult) (last : Bool)
  | routingUpdated (peer : PeerId)
  | other

def handlePutQuery (b : Behaviour) (now : Instant) (result : Except Unit Unit)
    (id : QueryId) : Behaviour :=
  match b.inProgressPutRecordQueries.lookup id with
  | some query =>
      let b := { b with
        inProgressPutRecordQueries := b.inProgressPutRecordQueries.erase id }
      match result with
      | .ok _ => b
      | .error _ =>
          let query := { query with backoff := query.backoff.startNext now false }
          { b with queuedPutRecordQueries := b.queuedPutRecordQueries ++ [query] }
  | none => b

def tally (query : KadGetQuery) (result : Except Unit GetRecordOk) : KadGetQuery :=
  match result with
  | .ok (.foundRecord value) =>
      { query with
        records := query.records.insert value ((query.records.lookup value).getD 0 + 1) }
  | _ => query

/-- `retryId` is the id kad gives the query a final step may start. -/
def handleGetQuery (b : Behaviour) (retryId : QueryId)
    (result : Except Unit GetRecordOk) (id : QueryId) (last : Bool) : Behaviour :=
  match b.inProgressGetRecordQueries.lookup id with
  | none => b
  | some query =>
      let b := { b with
        inProgressGetRecordQueries :=
          b.inProgressGetRecordQueries.insert id (tally query result) }
      if last then
        match b.inProgressGetRecordQueries.lookup id with
        | some query =>
            getRecord
              { b with
                inProgressGetRecordQueries := b.inProgressGetRecordQueries.erase id }
              retryId query.key query.backoff query.retryCount
        | none => b
      else b

/-- The arm of a final `GetClosestPeers`: both results do the same. -/
def handleClosestPeers (b : Behaviour) (now : Instant) (id : QueryId) : Behaviour :=
  match b.inProgressGetClosestPeers.lookup id with
  | some _ =>
      { b with inProgressGetClosestPeers := b.inProgressGetClosestPeers.erase id }
  | none =>
      { b with
        randomWalk :=
          { state := .notStarted, backoff := b.randomWalk.backoff.startNext now true } }

def handleBootstrapOk (b : Behaviour) (numRemaining : Nat) : Behaviour :=
  if numRemaining = 0 then
    { b with
      bootstrap := { b.bootstrap with state := .finished }
      eventQueue := b.eventQueue ++ [.isBootstrapped]
      beginBootstrap := false }
  else b

def handleBootstrapErr (b : Behaviour) (now : Instant) (e : BootstrapError) : Behaviour :=
  let b := if e.numRemaining.isNone then readdBootnodes b else b
  { b with
    bootstrap :=
      { state := .notStarted, backoff := b.bootstrap.backoff.startNext now true } }

def handleEvent (b : Behaviour) (now : Instant) (retryId : QueryId) :
    KadEvent → Behaviour
  | .outboundQueryProgressed id (.putRecord result) true => handlePutQuery b now result id
  | .outboundQueryProgressed id (.getClosestPeers _) true => handleClosestPeers b now id
  | .outboundQueryProgressed id (.getRecord result) last =>
      handleGetQuery b retryId result id last
  | .outboundQueryProgressed _ (.bootstrap (.ok numRemaining)) true =>
      handleBootstrapOk b numRemaining
  | .outboundQueryProgressed _ (.bootstrap (.error e)) _ => handleBootstrapErr b now e
  | _ => b

/-! ## The parts of `poll` before the events of kad are forwarded -/

/-- The condition under which `poll` calls `kad::Behaviour::bootstrap`. -/
def startsBootstrap (b : Behaviour) (now : Instant) : Bool :=
  b.bootstrap.state == .notStarted && b.bootstrap.backoff.isExpired now &&
    b.beginBootstrap

def pollBootstrap (b : Behaviour) (now : Instant) (answer : BootstrapAnswer) : Behaviour :=
  if startsBootstrap b now then
    let b := { b with kadDht := b.kadDht ++ [KadCall.bootstrap] }
    match answer with
    | .ok _ => { b with bootstrap := { b.bootstrap with state := .started } }
    | .error _ => readdBootnodes b
  else b

/-- One iteration of the loop over the queued gets, `none` once the queue is
empty. -/
def drainGet (b : Behaviour) (now : Instant) (queryId : QueryId) : Option Behaviour :=
  match b.queuedGetRecordQueries with
  | [] => none
  | req :: rest =>
      let b := { b with queuedGetRecordQueries := rest }
      if req.backoff.isExpired now then
        some (getRecord b queryId req.key req.backoff req.retryCount)
      else
        some { b with queuedGetRecordQueries := b.queuedGetRecordQueries ++ [req] }

/-- One iteration of the loop over the queued puts, `none` once the queue is
empty. -/
def drainPut (b : Behaviour) (now : Instant) (answer : PutAnswer) : Option Behaviour :=
  match b.queuedPutRecordQueries with
  | [] => none
  | req :: rest =>
      let b := { b with queuedPutRecordQueries := rest }
      if req.backoff.isExpired now then
        some (putRecord b now answer req)
      else
        some { b with queuedPutRecordQueries := b.queuedPutRecordQueries ++ [req] }

/-! ## What a report about a get does -/

theorem key_tally (entry : KadGetQuery) (result : Except Unit GetRecordOk) :
    (tally entry result).key = entry.key ∧ (tally entry result).backoff = entry.backoff ∧
      (tally entry result).retryCount = entry.retryCount := by
  unfold tally
  split <;> exact ⟨rfl, rfl, rfl⟩

section Report

variable {b : Behaviour} {id : QueryId} {entry : KadGetQuery}
  (h : b.inProgressGetRecordQueries.lookup id = some entry) (retryId : QueryId)
  (result : Except Unit GetRecordOk)

include h

theorem handleGetQuery_of_not_last :
    handleGetQuery b retryId result id false =
      { b with
        inProgressGetRecordQueries :=
          b.inProgressGetRecordQueries.insert id (tally entry result) } := by
  unfold handleGetQuery
  rw [h]
  rfl

theorem handleGetQuery_of_last :
    handleGetQuery b retryId result id true =
      getRecord
        { b with
          inProgressGetRecordQueries :=
            (b.inProgressGetRecordQueries.insert id (tally entry result)).erase id }
        retryId entry.key entry.backoff entry.retryCount := by
  obtain ⟨hkey, hbackoff, hretry⟩ := key_tally entry result
  unfold handleGetQuery
  simp only [h, AList.lookup_insert, if_true, hkey, hbackoff, hretry]

end Report

theorem handleGetQuery_of_none {b : Behaviour} {id : QueryId}
    (hentry : b.inProgressGetRecordQueries.lookup id = none) (retryId : QueryId)
    (result : Except Unit GetRecordOk) (last : Bool) :
    handleGetQuery b retryId result id last = b := by
  unfold handleGetQuery
  rw [hentry]

/-! ## What each function leaves alone

The state of the bootstrap and the state of the puts are changed by few of the
functions; for the others one equation says so.
-/

def bootstrapPart (b : Behaviour) : Bool × Bootstrap := (b.beginBootstrap, b.bootstrap)

def putPart (b : Behaviour) : (AList fun _ : QueryId => KadPutQuery) × List KadPutQuery :=
  (b.inProgressPutRecordQueries, b.queuedPutRecordQueries)

def getPart (b : Behaviour) : (AList fun _ : QueryId => KadGetQuery) × List KadGetQuery :=
  (b.inProgressGetRecordQueries, b.queuedGetRecordQueries)

@[simp] theorem addBootnodes_bootstrapPart (b : Behaviour) (peer : PeerId)
    (address : Multiaddr) :
    bootstrapPart (addBootnodes b peer address) = bootstrapPart b := by
  unfold addBootnodes
  split <;> rfl

@[simp] theorem addBootnodes_putPart (b : Behaviour) (peer : PeerId)
    (address : Multiaddr) : putPart (addBootnodes b peer address) = putPart b := by
  unfold addBootnodes
  split <;> rfl

@[simp] theorem putRecord_bootstrapPart (b : Behaviour) (now : Instant)
    (answer : PutAnswer) (query : KadPutQuery) :
    bootstrapPart (putRecord b now answer query) = bootstrapPart b := by
  unfold putRecord
  split
  · cases answer <;> rfl
  · rfl

@[simp] theorem putRecord_getPart (b : Behaviour) (now : Instant)
    (answer : PutAnswer) (query : KadPutQuery) :
    getPart (putRecord b now answer query) = getPart b := by
  unfold putRecord
  split
  · cases answer <;> rfl
  · rfl

@[simp] theorem getRecord_bootstrapPart (b : Behaviour) (id : QueryId) (key : Bytes)
    (backoff : ExponentialBackoff) (retry : UInt8) :
    bootstrapPart (getRecord b id key backoff retry) = bootstrapPart b := by
  unfold getRecord
  split <;> rfl

@[simp] theorem getRecord_putPart (b : Behaviour) (id : QueryId) (key : Bytes)
    (backoff : ExponentialBackoff) (retry : UInt8) :
    putPart (getRecord b id key backoff retry) = putPart b := by
  unfold getRecord
  split <;> rfl

@[simp] theorem getRecord_queuedGet (b : Behaviour) (id : QueryId) (key : Bytes)
    (backoff : ExponentialBackoff) (retry : UInt8) :
    (getRecord b id key backoff retry).queuedGetRecordQueries =
      b.queuedGetRecordQueries := by
  unfold getRecord
  split <;> rfl

@[simp] theorem handlePutQuery_bootstrapPart (b : Behaviour) (now : Instant)
    (result : Except Unit Unit) (id : QueryId) :
    bootstrapPart (handlePutQuery b now result id) = bootstrapPart b := by
  unfold handlePutQuery
  split
  · cases result <;> rfl
  · rfl

theorem handleGetQuery_frame (b : Behaviour) (retryId : QueryId)
    (result : Except Unit GetRecordOk) (id : QueryId) (last : Bool) :
    bootstrapPart (handleGetQuery b retryId result id last) = bootstrapPart b ∧
      putPart (handleGetQuery b retryId result id last) = putPart b := by
  cases hentry : b.inProgressGetRecordQueries.lookup id with
  | none =>
      rw [handleGetQuery_of_none hentry]
      exact ⟨rfl, rfl⟩
  | some entry =>
      cases last with
      | false =>
          rw [handleGetQuery_of_not_last hentry]
          exact ⟨rfl, rfl⟩
      | true =>
          rw [handleGetQuery_of_last hentry, getRecord_bootstrapPart, getRecord_putPart]
          exact ⟨rfl, rfl⟩

@[simp] theorem handleGetQuery_bootstrapPart (b : Behaviour) (retryId : QueryId)
    (result : Except Unit GetRecordOk) (id : QueryId) (last : Bool) :
    bootstrapPart (handleGetQuery b retryId result id last) = bootstrapPart b :=
  (handleGetQuery_frame b retryId result id last).1

@[simp] theorem handleGetQuery_putPart (b : Behaviour) (retryId : QueryId)
    (result : Except Unit GetRecordOk) (id : QueryId) (last : Bool) :
    putPart (handleGetQuery b retryId result id last) = putPart b :=
  (handleGetQuery_frame b retryId result id last).2

@[simp] theorem handleClosestPeers_bootstrapPart (b : Behaviour) (now : Instant)
    (id : QueryId) : bootstrapPart (handleClosestPeers b now id) = bootstrapPart b := by
  unfold handleClosestPeers
  split <;> rfl

@[simp] theorem handleClosestPeers_putPart (b : Behaviour) (now : Instant)
    (id : QueryId) : putPart (handleClosestPeers b now id) = putPart b := by
  unfold handleClosestPeers
  split <;> rfl

@[simp] theorem handleBootstrapOk_putPart (b : Behaviour) (numRemaining : Nat) :
    putPart (handleBootstrapOk b numRemaining) = putPart b := by
  unfold handleBootstrapOk
  split <;> rfl

@[simp] theorem handleBootstrapErr_putPart (b : Behaviour) (now : Instant)
    (e : BootstrapError) : putPart (handleBootstrapErr b now e) = putPart b := by
  unfold handleBootstrapErr
  cases e.numRemaining <;> rfl

@[simp] theorem pollBootstrap_putPart (b : Behaviour) (now : Instant)
    (answer : BootstrapAnswer) : putPart (pollBootstrap b now answer) = putPart b := by
  unfold pollBootstrap
  split
  · cases answer <;> rfl
  · rfl

/-- A failed bootstrap result always leaves a bootstrap that may be started again. -/
theorem handleBootstrapErr_bootstrapPart (b : Behaviour) (now : Instant)
    (e : BootstrapError) :
    bootstrapPart (handleBootstrapErr b now e) =
      (b.beginBootstrap,
        { state := .notStarted, backoff := b.bootstrap.backoff.startNext now true }) := by
  unfold handleBootstrapErr
  cases e.numRemaining <;> rfl

theorem drainGet_cases {b b' : Behaviour} {now : Instant} {queryId : QueryId}
    (h : drainGet b now queryId = some b') :
    ∃ req rest, b.queuedGetRecordQueries = req :: rest ∧
      ((req.backoff.isExpired now = true ∧
          b' = getRecord { b with queuedGetRecordQueries := rest } queryId req.key
            req.backoff req.retryCount) ∨
        (req.backoff.isExpired now = false ∧
          b' = { b with queuedGetRecordQueries := rest ++ [req] })) := by
  unfold drainGet at h
  cases hqueue : b.queuedGetRecordQueries with
  | nil =>
      rw [hqueue] at h
      cases h
  | cons req rest =>
      rw [hqueue] at h
      refine ⟨req, rest, rfl, ?_⟩
      cases hexp : req.backoff.isExpired now with
      | true => exact Or.inl ⟨rfl, by simpa [hexp] using h.symm⟩
      | false => exact Or.inr ⟨rfl, by simpa [hexp] using h.symm⟩

theorem drainPut_cases {b b' : Behaviour} {now : Instant} {answer : PutAnswer}
    (h : drainPut b now answer = some b') :
    ∃ req rest, b.queuedPutRecordQueries = req :: rest ∧
      ((req.backoff.isExpired now = true ∧
          b' = putRecord { b with queuedPutRecordQueries := rest } now answer req) ∨
        (req.backoff.isExpired now = false ∧
          b' = { b with queuedPutRecordQueries := rest ++ [req] })) := by
  unfold drainPut at h
  cases hqueue : b.queuedPutRecordQueries with
  | nil =>
      rw [hqueue] at h
      cases h
  | cons req rest =>
      rw [hqueue] at h
      refine ⟨req, rest, rfl, ?_⟩
      cases hexp : req.backoff.isExpired now with
      | true => exact Or.inl ⟨rfl, by simpa [hexp] using h.symm⟩
      | false => exact Or.inr ⟨rfl, by simpa [hexp] using h.symm⟩

theorem drainGet_frame {b b' : Behaviour} {now : Instant} {queryId : QueryId}
    (h : drainGet b now queryId = some b') :
    bootstrapPart b' = bootstrapPart b ∧ putPart b' = putPart b := by
  obtain ⟨req, rest, -, ⟨-, rfl⟩ | ⟨-, rfl⟩⟩ := drainGet_cases h
  · rw [getRecord_bootstrapPart, getRecord_putPart]
    exact ⟨rfl, rfl⟩
  · exact ⟨rfl, rfl⟩

theorem drainPut_bootstrapPart {b b' : Behaviour} {now : Instant} {answer : PutAnswer}
    (h : drainPut b now answer = some b') : bootstrapPart b' = bootstrapPart b := by
  obtain ⟨req, rest, -, ⟨-, rfl⟩ | ⟨-, rfl⟩⟩ := drainPut_cases h
  · exact putRecord_bootstrapPart _ _ _ _
  · rfl

end P2pa.Dht
