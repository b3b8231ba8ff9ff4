import P2pa.Dht.Run

/-!
# The gets of the DHT behaviour

The entries of the gets in progress, the queue of gets and the queries kad was asked for.
Only a get of a client and a report about a get in progress change them.
-/

namespace P2pa.Dht

open P2pa.Utils

/-! ## The part of the behaviour that gets are kept in -/

def getKey : KadCall → Option Bytes
  | .getRecord key => some key
  | _ => none

def gets (b : Behaviour) : List Bytes := b.kadDht.filterMap getKey

def getView (b : Behaviour) :
    ((AList fun _ : QueryId => KadGetQuery) × List KadGetQuery) × List Bytes :=
  (getPart b, gets b)

theorem gets_append (b : Behaviour) (calls : List KadCall)
    (h : ∀ key, KadCall.getRecord key ∉ calls) :
    gets { b with kadDht := b.kadDht ++ calls } = gets b := by
  have hnone : calls.filterMap getKey = [] := by
    rw [List.filterMap_eq_nil_iff]
    intro call hcall
    cases call with
    | getRecord key => exact absurd hcall (h key)
    | _ => rfl
  unfold gets
  rw [List.filterMap_append, hnone, List.append_nil]

theorem readdBootnodes_getView (b : Behaviour) : getView (readdBootnodes b) = getView b := by
  have hcalls := gets_append b (b.bootnodes.entries.flatMap fun entry =>
    entry.2.map (KadCall.addAddress entry.1)) (by simp)
  exact congrArg (getPart b, ·) hcalls

theorem addBootnodes_getView (b : Behaviour) (peer : PeerId) (address : Multiaddr) :
    getView (addBootnodes b peer address) = getView b := by
  unfold addBootnodes
  split <;> rfl

theorem putRecord_getView (b : Behaviour) (now : Instant) (answer : PutAnswer)
    (query : KadPutQuery) : getView (putRecord b now answer query) = getView b := by
  have hcalls := gets_append b
    [KadCall.putRecord query.key query.value b.replicationFactor] (by simp)
  unfold putRecord
  split
  · cases answer with
    | ok id => exact congrArg (getPart b, ·) hcalls
    | error e => exact congrArg (getPart b, ·) hcalls
  · rfl

theorem pollBootstrap_getView (b : Behaviour) (now : Instant) (answer : BootstrapAnswer) :
    getView (pollBootstrap b now answer) = getView b := by
  have hcalls := gets_append b [KadCall.bootstrap] (by simp)
  unfold pollBootstrap
  split
  · cases answer with
    | ok id => exact congrArg (getPart b, ·) hcalls
    | error e => exact (readdBootnodes_getView _).trans (congrArg (getPart b, ·) hcalls)
  · rfl

theorem drainPut_getView {b b' : Behaviour} {now : Instant} {answer : PutAnswer}
    (h : drainPut b now answer = some b') : getView b' = getView b := by
  obtain ⟨req, rest, -, ⟨-, rfl⟩ | ⟨-, rfl⟩⟩ := drainPut_cases h
  · exact putRecord_getView _ _ _ _
  · rfl

theorem handleEvent_getView (b : Behaviour) (now : Instant) (retryId : QueryId)
    {event : KadEvent}
    (h : ∀ id result last, event ≠ .outboundQueryProgressed id (.getRecord result) last) :
    getView (handleEvent b now retryId event) = getView b := by
  unfold handleEvent
  split
  · unfold handlePutQuery
    split
    · split <;> rfl
    · rfl
  · unfold handleClosestPeers
    split <;> rfl
  · exact absurd rfl (h _ _ _)
  · unfold handleBootstrapOk
    split <;> rfl
  · rename_i e _
    unfold handleBootstrapErr
    by_cases hremaining : e.numRemaining.isNone = true
    · rw [if_pos hremaining]
      exact readdBootnodes_getView b
    · rw [if_neg hremaining]
      rfl
  · rfl

/-! ## Asking kad -/

theorem getRecord_of_zero (b : Behaviour) (queryId : QueryId) (key : Bytes)
    (backoff : ExponentialBackoff) : getRecord b queryId key backoff 0 = b := rfl

theorem getRecord_of_ne_zero (b : Behaviour) (queryId : QueryId) (key : Bytes)
    (backoff : ExponentialBackoff) {retryCount : UInt8} (h : retryCount ≠ 0) :
    getRecord b queryId key backoff retryCount =
      { b with
        kadDht := b.kadDht ++ [KadCall.getRecord key]
        inProgressGetRecordQueries := b.inProgressGetRecordQueries.insert queryId
          { backoff, key, retryCount := retryCount - 1, records := ∅ } } := by
  unfold getRecord
  rw [if_neg (by simpa using h)]

theorem gets_getRecord_of_ne_zero (b : Behaviour) (queryId : QueryId) (key : Bytes)
    (backoff : ExponentialBackoff) {retryCount : UInt8} (h : retryCount ≠ 0) :
    gets (getRecord b queryId key backoff retryCount) = gets b ++ [key] := by
  rw [getRecord_of_ne_zero b queryId key backoff h]
  unfold gets
  rw [List.filterMap_append]
  rfl

end P2pa.Dht
