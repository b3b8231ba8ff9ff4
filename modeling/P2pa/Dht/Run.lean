import P2pa.Dht.Behaviour
import P2pa.Support.Machine

/-!
# Runs of the DHT behaviour

The behaviour together with what its environment knows: the query ids kad has
handed out, the record of every put query kad still runs, the bootstrap queries
it runs, and what clients have submitted.  A step is one call of the node, one
part of `poll` or one event of kad; the iterations of the draining loops are steps
of their own, so a run may also stop in the middle of a `poll`.
-/

namespace P2pa.Dht

open P2pa.Utils

structure World where
  behaviour : Behaviour
  /-- Every query id kad has returned. -/
  issued : List QueryId
  /-- The put queries kad runs, with their key and value. -/
  runningPuts : AList fun _ : QueryId => Bytes × Bytes
  /-- The bootstrap queries kad runs. -/
  runningBootstraps : List QueryId
  /-- What clients have submitted. -/
  submitted : Multiset (Bytes × Bytes)
  /-- What queries that finished with success have stored. -/
  succeeded : Multiset (Bytes × Bytes)

inductive Act
  | beginBootstrap
  | addAddress (peer : PeerId) (address : Multiaddr)
  | addBootnodes (peer : PeerId) (address : Multiaddr)
  | putRecord (now : Instant) (answer : PutAnswer) (key value : Bytes)
  | getRecord (queryId : QueryId) (key : Bytes) (retryCount : UInt8)
  | pollBootstrap (now : Instant) (answer : BootstrapAnswer)
  | drainGet (now : Instant) (queryId : QueryId)
  | drainPut (now : Instant) (answer : PutAnswer)
  | kadEvent (now : Instant) (retryId : QueryId) (event : KadEvent)

def initial (replicationFactor : Nat) : World where
  behaviour := new replicationFactor
  issued := []
  runningPuts := ∅
  runningBootstraps := []
  submitted := 0
  succeeded := 0

/-- Kad returns fresh query ids. -/
def World.Fresh (w : World) : Except Unit QueryId → Bool
  | .ok id => id ∉ w.issued
  | .error _ => true

/-- The ids issued once kad has given this answer.  An answer counts as given even
where the step ends without asking for it. -/
def World.issue (w : World) : Except Unit QueryId → List QueryId
  | .ok id => id :: w.issued
  | .error _ => w.issued

theorem mem_issue (w : World) (answer : Except Unit QueryId)
    {id : QueryId} (h : id ∈ w.issued) : id ∈ w.issue answer := by
  cases answer with
  | ok _ => exact List.mem_cons_of_mem _ h
  | error _ => exact h

/-- A put handed to kad starts a query there if kad accepts it. -/
def World.startPut (w : World) (answer : PutAnswer) (key value : Bytes) :
    AList fun _ : QueryId => Bytes × Bytes :=
  match answer, w.behaviour.beginBootstrap with
  | .ok id, false => w.runningPuts.insert id (key, value)
  | _, _ => w.runningPuts

def World.endPut (w : World) (id : QueryId) (result : Except Unit Unit) : World :=
  match w.runningPuts.lookup id, result with
  | some record, .ok _ =>
      { w with
        runningPuts := w.runningPuts.erase id
        succeeded := record ::ₘ w.succeeded }
  | some _, .error _ => { w with runningPuts := w.runningPuts.erase id }
  | none, _ => w

def World.observe (w : World) : KadEvent → World
  | .outboundQueryProgressed id (.putRecord result) true => w.endPut id result
  | .outboundQueryProgressed id (.bootstrap _) true =>
      { w with runningBootstraps := w.runningBootstraps.erase id }
  | _ => w

def World.Reports (w : World) : KadEvent → Bool
  | .outboundQueryProgressed id (.bootstrap _) _ => id ∈ w.runningBootstraps
  | _ => true

def step (w : World) : Act → Option World
  | .beginBootstrap => some { w with behaviour := beginBootstrap w.behaviour }
  | .addAddress peer address =>
      some { w with behaviour := addAddress w.behaviour peer address }
  | .addBootnodes peer address =>
      some { w with behaviour := addBootnodes w.behaviour peer address }
  | .putRecord now answer key value =>
      if w.Fresh answer then
        some { w with
          behaviour := putRecord w.behaviour now answer { backoff := .default, key, value }
          issued := w.issue answer
          runningPuts := w.startPut answer key value
          submitted := (key, value) ::ₘ w.submitted }
      else none
  | .getRecord queryId key retryCount =>
      if w.Fresh (.ok queryId) then
        some { w with
          behaviour := getRecord w.behaviour queryId key .default retryCount
          issued := w.issue (.ok queryId) }
      else none
  | .pollBootstrap now answer =>
      if w.Fresh answer then
        some { w with
          behaviour := pollBootstrap w.behaviour now answer
          issued := w.issue answer
          runningBootstraps :=
            match answer with
            | .ok id =>
                if startsBootstrap w.behaviour now then id :: w.runningBootstraps
                else w.runningBootstraps
            | .error _ => w.runningBootstraps }
      else none
  | .drainGet now queryId =>
      if w.Fresh (.ok queryId) then
        (drainGet w.behaviour now queryId).map fun b =>
          { w with behaviour := b, issued := w.issue (.ok queryId) }
      else none
  | .drainPut now answer =>
      if w.Fresh answer then
        (drainPut w.behaviour now answer).map fun b =>
          { w with
            behaviour := b
            issued := w.issue answer
            runningPuts :=
              match w.behaviour.queuedPutRecordQueries with
              | req :: _ =>
                  if req.backoff.isExpired now then w.startPut answer req.key req.value
                  else w.runningPuts
              | [] => w.runningPuts }
      else none
  | .kadEvent now retryId event =>
      if w.Fresh (.ok retryId) && w.Reports event then
        some { w.observe event with
          behaviour := handleEvent w.behaviour now retryId event
          issued := w.issue (.ok retryId) }
      else none

end P2pa.Dht
