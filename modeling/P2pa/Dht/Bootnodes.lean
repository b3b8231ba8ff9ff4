import P2pa.Dht.Poll
import P2pa.Support.Multimap

/-!
# The boot nodes

The behaviour remembers the boot nodes and hands them to kad again whenever a bootstrap has
failed for want of a peer.
-/

namespace P2pa.Dht

open P2pa.Utils

def given (calls : List KadCall) : List (PeerId × Multiaddr) :=
  calls.filterMap fun
    | .addAddress peer address => some (peer, address)
    | _ => none

/-- What is called on kad between two states, and that the boot nodes stay. -/
structure Hands (b b' : Behaviour) (addresses : List (PeerId × Multiaddr)) : Prop where
  bootnodes : b'.bootnodes = b.bootnodes
  calls : ∃ calls, b'.kadDht = b.kadDht ++ calls ∧ given calls = addresses

/-! ## What each function hands to kad -/

section Functions

variable {b b' b'' : Behaviour}

theorem Hands.nothing (hbootnodes : b'.bootnodes = b.bootnodes) (hkad : b'.kadDht = b.kadDht) :
    Hands b b' [] :=
  ⟨hbootnodes, [], hkad.trans (List.append_nil _).symm, rfl⟩

theorem Hands.trans {first second : List (PeerId × Multiaddr)} (h : Hands b b' first)
    (h' : Hands b' b'' second) : Hands b b'' (first ++ second) := by
  obtain ⟨calls, hcalls, hfirst⟩ := h.calls
  obtain ⟨calls', hcalls', hsecond⟩ := h'.calls
  refine ⟨h'.bootnodes.trans h.bootnodes, calls ++ calls', ?_, ?_⟩
  · rw [hcalls', hcalls, List.append_assoc]
  · unfold given at hfirst hsecond ⊢
    rw [List.filterMap_append, hfirst, hsecond]

/-- Fields that the boot nodes have nothing to do with may change as well. -/
theorem Hands.of_eq {addresses : List (PeerId × Multiaddr)} (h : Hands b b' addresses)
    (hbootnodes : b''.bootnodes = b'.bootnodes) (hkad : b''.kadDht = b'.kadDht) :
    Hands b b'' addresses :=
  ⟨hbootnodes.trans h.bootnodes, hkad ▸ h.calls⟩

theorem hands_readdBootnodes (b : Behaviour) : Hands b (readdBootnodes b) b.bootnodes.pairs := by
  refine ⟨rfl, _, rfl, ?_⟩
  unfold given AList.pairs
  rw [List.filterMap_flatMap]
  apply congrArg List.flatten
  apply List.map_congr_left
  intro entry hentry
  rw [List.filterMap_map]
  exact congrFun List.filterMap_eq_map' entry.2

theorem hands_addAddress (b : Behaviour) (peer : PeerId) (address : Multiaddr) :
    Hands b (addAddress b peer address) [(peer, address)] := ⟨rfl, _, rfl, rfl⟩

theorem hands_putRecord (b : Behaviour) (now : Instant) (answer : PutAnswer)
    (query : KadPutQuery) : Hands b (putRecord b now answer query) [] := by
  unfold putRecord
  split
  · cases answer <;> exact ⟨rfl, _, rfl, rfl⟩
  · exact .nothing rfl rfl

theorem hands_getRecord (b : Behaviour) (queryId : QueryId) (key : Bytes)
    (backoff : ExponentialBackoff) (retryCount : UInt8) :
    Hands b (getRecord b queryId key backoff retryCount) [] := by
  unfold getRecord
  split
  · exact .nothing rfl rfl
  · exact ⟨rfl, _, rfl, rfl⟩

theorem hands_handlePutQuery (b : Behaviour) (now : Instant) (result : Except Unit Unit)
    (id : QueryId) : Hands b (handlePutQuery b now result id) [] := by
  unfold handlePutQuery
  split
  · cases result <;> exact .nothing rfl rfl
  · exact .nothing rfl rfl

theorem hands_handleGetQuery (b : Behaviour) (retryId : QueryId)
    (result : Except Unit GetRecordOk) (id : QueryId) (last : Bool) :
    Hands b (handleGetQuery b retryId result id last) [] := by
  cases hentry : b.inProgressGetRecordQueries.lookup id with
  | none =>
      rw [handleGetQuery_of_none hentry]
      exact .nothing rfl rfl
  | some entry =>
      cases last with
      | false =>
          rw [handleGetQuery_of_not_last hentry]
          exact .nothing rfl rfl
      | true =>
          rw [handleGetQuery_of_last hentry]
          have hget := hands_getRecord { b with
            inProgressGetRecordQueries :=
              (b.inProgressGetRecordQueries.insert id (tally entry result)).erase id }
            retryId entry.key entry.backoff entry.retryCount
          exact ⟨hget.bootnodes, hget.calls⟩

theorem hands_handleClosestPeers (b : Behaviour) (now : Instant) (id : QueryId) :
    Hands b (handleClosestPeers b now id) [] := by
  unfold handleClosestPeers
  split <;> exact .nothing rfl rfl

theorem hands_handleBootstrapOk (b : Behaviour) (numRemaining : Nat) :
    Hands b (handleBootstrapOk b numRemaining) [] := by
  unfold handleBootstrapOk
  split <;> exact .nothing rfl rfl

theorem hands_handleBootstrapErr (b : Behaviour) (now : Instant) (e : BootstrapError) :
    Hands b (handleBootstrapErr b now e)
      (if e.numRemaining.isNone then b.bootnodes.pairs else []) := by
  unfold handleBootstrapErr
  dsimp only
  split
  · exact (hands_readdBootnodes b).of_eq rfl rfl
  · exact .nothing rfl rfl

def wantsPeers : KadEvent → Bool
  | .outboundQueryProgressed _ (.bootstrap (.error e)) _ => e.numRemaining.isNone
  | _ => false

theorem hands_handleEvent (b : Behaviour) (now : Instant) (retryId : QueryId)
    (event : KadEvent) :
    Hands b (handleEvent b now retryId event)
      (if wantsPeers event then b.bootnodes.pairs else []) := by
  unfold handleEvent
  split
  · exact hands_handlePutQuery b _ _ _
  · exact hands_handleClosestPeers b _ _
  · exact hands_handleGetQuery b _ _ _ _
  · exact hands_handleBootstrapOk b _
  · exact hands_handleBootstrapErr b _ _
  · next hother =>
      have hwants : wantsPeers event = false := by
        unfold wantsPeers
        split
        · exact absurd rfl (hother _ _ _)
        · rfl
      rw [hwants]
      exact .nothing rfl rfl

def startFails (b : Behaviour) (now : Instant) : BootstrapAnswer → Bool
  | .ok _ => false
  | .error _ => startsBootstrap b now

theorem hands_pollBootstrap (b : Behaviour) (now : Instant) (answer : BootstrapAnswer) :
    Hands b (pollBootstrap b now answer)
      (if startFails b now answer then b.bootnodes.pairs else []) := by
  have hcall : Hands b { b with kadDht := b.kadDht ++ [KadCall.bootstrap] } [] :=
    ⟨rfl, _, rfl, rfl⟩
  unfold pollBootstrap
  cases answer with
  | ok id =>
      split
      · exact hcall.of_eq rfl rfl
      · exact .nothing rfl rfl
  | error e =>
      change Hands b _ (if startsBootstrap b now then b.bootnodes.pairs else [])
      split
      · exact hcall.trans (hands_readdBootnodes _)
      · exact .nothing rfl rfl

theorem hands_drainGet {now : Instant} {queryId : QueryId}
    (h : drainGet b now queryId = some b') : Hands b b' [] := by
  obtain ⟨req, rest, -, ⟨-, rfl⟩ | ⟨-, rfl⟩⟩ := drainGet_cases h
  · have hget := hands_getRecord { b with queuedGetRecordQueries := rest } queryId req.key
      req.backoff req.retryCount
    exact ⟨hget.bootnodes, hget.calls⟩
  · exact .nothing rfl rfl

theorem hands_drainPut {now : Instant} {answer : PutAnswer}
    (h : drainPut b now answer = some b') : Hands b b' [] := by
  obtain ⟨req, rest, -, ⟨-, rfl⟩ | ⟨-, rfl⟩⟩ := drainPut_cases h
  · have hput := hands_putRecord { b with queuedPutRecordQueries := rest } now answer req
    exact ⟨hput.bootnodes, hput.calls⟩
  · exact .nothing rfl rfl

theorem addBootnodes_bootnodes (b : Behaviour) (peer : PeerId) (address : Multiaddr) :
    (addBootnodes b peer address).bootnodes = b.bootnodes.addPair peer address := by
  unfold addBootnodes AList.addPair
  cases b.bootnodes.lookup peer <;> rfl

theorem addBootnodes_kadDht (b : Behaviour) (peer : PeerId) (address : Multiaddr) :
    (addBootnodes b peer address).kadDht = b.kadDht := by
  unfold addBootnodes
  split <;> rfl

end Functions

/-! ## A whole `poll` -/

section Poll

variable {P : Type} {b : Behaviour}

theorem drain_keeps {R : Behaviour → Behaviour → Prop} (hrefl : ∀ b, R b b)
    (htrans : ∀ {b b' b''}, R b b' → R b' b'' → R b b'')
    (hget : ∀ {b b' now queryId}, drainGet b now queryId = some b' → R b b')
    (hput : ∀ {b b' now answer}, drainPut b now answer = some b' → R b b')
    {now : Instant} {answers : Nat → Answer} {fuel i : Nat} {drained : List Request × Behaviour}
    (h : drain now answers fuel i b = some drained) : R b drained.2 := by
  have hstep : ∀ {b b' answer req}, drainStep b now answer = some (req, b') → R b b' := by
    intro b b' answer req h
    unfold drainStep at h
    split at h
    · obtain ⟨b₁, hb₁, heq⟩ := Option.map_eq_some_iff.mp h
      cases heq
      exact hget hb₁
    · obtain ⟨b₁, hb₁, heq⟩ := Option.map_eq_some_iff.mp h
      cases heq
      exact hput hb₁
    · cases h
  induction fuel generalizing i b drained with
  | zero =>
      unfold drain at h
      split at h
      · cases h
        exact hrefl _
      · cases h
  | succ fuel ih =>
      unfold drain at h
      split at h
      · cases h
        exact hrefl _
      · next req b₁ hfirst =>
          obtain ⟨r, hr, rfl⟩ := Option.map_eq_some_iff.mp h
          have hrest : R b₁ r.2 := ih hr
          exact htrans (hstep hfirst) hrest

theorem hands_drain {now : Instant} {answers : Nat → Answer} {fuel i : Nat}
    {drained : List Request × Behaviour} (h : drain now answers fuel i b = some drained) :
    Hands b drained.2 [] :=
  drain_keeps (R := fun b b' => Hands b b' []) (fun _ => .nothing rfl rfl)
    (fun h h' => h.trans h') hands_drainGet hands_drainPut h

theorem hands_forwardEvents (b : Behaviour) (reads : Stream' (Instant × QueryId))
    (yields : List (ToSwarm KadEvent P)) :
    ∃ addresses ⊆ b.bootnodes.pairs, Hands b (forwardEvents b reads yields).state addresses := by
  induction yields generalizing b reads with
  | nil => exact ⟨[], List.nil_subset _, .nothing rfl rfl⟩
  | cons action rest ih =>
      cases action with
      | generateEvent event =>
          have hevent := hands_handleEvent b reads.head.1 reads.head.2 event
          have hsub : (if wantsPeers event then b.bootnodes.pairs else []) ⊆
              b.bootnodes.pairs := by
            split
            · exact List.Subset.refl _
            · exact List.nil_subset _
          unfold forwardEvents
          dsimp only
          split
          · exact ⟨_, hsub, hevent.of_eq rfl rfl⟩
          · obtain ⟨addresses, haddresses, hrest⟩ :=
              ih (handleEvent b reads.head.1 reads.head.2 event) reads.tail
            rw [hevent.bootnodes] at haddresses
            exact ⟨_, List.append_subset.mpr ⟨hsub, haddresses⟩, hevent.trans hrest⟩
      | _ => exact ⟨[], List.nil_subset _, .nothing rfl rfl⟩

theorem hands_poll {now : Instant} {answer : BootstrapAnswer} {drainNow : Instant}
    {answers : Nat → Answer} {fuel : Nat} {reads : Stream' (Instant × QueryId)}
    {yields : List (ToSwarm KadEvent P)} {polled : Polled Behaviour KadEvent Event P}
    (h : poll b now answer drainNow answers fuel reads yields = some polled) :
    ∃ addresses ⊆ b.bootnodes.pairs, Hands b polled.state addresses := by
  obtain ⟨drained, hdrained, rfl⟩ := Option.map_eq_some_iff.mp h
  have hstart := (hands_pollBootstrap b now answer).trans (hands_drain hdrained)
  obtain ⟨addresses, haddresses, hforward⟩ := hands_forwardEvents drained.2 reads yields
  rw [hstart.bootnodes] at haddresses
  refine ⟨_, List.append_subset.mpr ⟨?_, haddresses⟩, hstart.trans hforward⟩
  rw [List.append_nil]
  split
  · exact List.Subset.refl _
  · exact List.nil_subset _

end Poll

/-! ## Runs -/

/-- A bootstrap fails for want of a peer. -/
def failsForPeers (w : World) : Act → Bool
  | .pollBootstrap now answer => startFails w.behaviour now answer
  | .kadEvent _ _ event => wantsPeers event
  | _ => false

def givenIn (w : World) : Act → List (PeerId × Multiaddr)
  | .addAddress peer address => [(peer, address)]
  | a => if failsForPeers w a then w.behaviour.bootnodes.pairs else []

def bootnodeOf : Act → Option (PeerId × Multiaddr)
  | .addBootnodes peer address => some (peer, address)
  | _ => none

theorem step_hands {w w' : World} {a : Act} (hstep : step w a = some w') :
    (∃ calls, w'.behaviour.kadDht = w.behaviour.kadDht ++ calls ∧ given calls = givenIn w a) ∧
      w'.behaviour.bootnodes = (bootnodeOf a).elim w.behaviour.bootnodes
        fun pair => w.behaviour.bootnodes.addPair pair.1 pair.2 := by
  have hhands : ∀ b', Hands w.behaviour b' (givenIn w a) → bootnodeOf a = none →
      (∃ calls, b'.kadDht = w.behaviour.kadDht ++ calls ∧ given calls = givenIn w a) ∧
        b'.bootnodes = (bootnodeOf a).elim w.behaviour.bootnodes
          fun pair => w.behaviour.bootnodes.addPair pair.1 pair.2 := by
    intro b' h hnone
    rw [hnone]
    exact ⟨h.calls, h.bootnodes⟩
  cases a with
  | beginBootstrap =>
      cases hstep
      exact hhands _ (.nothing rfl rfl) rfl
  | addAddress peer address =>
      cases hstep
      exact hhands _ (hands_addAddress _ _ _) rfl
  | addBootnodes peer address =>
      cases hstep
      refine ⟨⟨[], ?_, rfl⟩, addBootnodes_bootnodes _ _ _⟩
      exact (addBootnodes_kadDht _ _ _).trans (List.append_nil _).symm
  | putRecord now answer key value =>
      obtain ⟨-, heq⟩ := Option.ite_none_right_eq_some.mp hstep
      cases heq
      exact hhands _ (hands_putRecord _ _ _ _) rfl
  | getRecord queryId key retryCount =>
      obtain ⟨-, heq⟩ := Option.ite_none_right_eq_some.mp hstep
      cases heq
      exact hhands _ (hands_getRecord _ _ _ _ _) rfl
  | pollBootstrap now answer =>
      obtain ⟨-, heq⟩ := Option.ite_none_right_eq_some.mp hstep
      cases heq
      exact hhands _ (hands_pollBootstrap _ _ _) rfl
  | drainGet now queryId =>
      obtain ⟨-, heq⟩ := Option.ite_none_right_eq_some.mp hstep
      obtain ⟨b, hb, rfl⟩ := Option.map_eq_some_iff.mp heq
      exact hhands _ (hands_drainGet hb) rfl
  | drainPut now answer =>
      obtain ⟨-, heq⟩ := Option.ite_none_right_eq_some.mp hstep
      obtain ⟨b, hb, rfl⟩ := Option.map_eq_some_iff.mp heq
      exact hhands _ (hands_drainPut hb) rfl
  | kadEvent now retryId event =>
      obtain ⟨-, heq⟩ := Option.ite_none_right_eq_some.mp hstep
      cases heq
      exact hhands _ (hands_handleEvent _ _ _ _) rfl

structure BootInv (acts : List Act) (w : World) : Prop where
  simple : w.behaviour.bootnodes.Simple
  added : ∀ pair, pair ∈ w.behaviour.bootnodes.pairs ↔ pair ∈ acts.filterMap bootnodeOf

theorem bootInv_step {acts : List Act} {w w' : World} {a : Act} (h : BootInv acts w)
    (hstep : step w a = some w') : BootInv (acts ++ [a]) w' := by
  obtain ⟨-, hbootnodes⟩ := step_hands hstep
  constructor
  · rw [hbootnodes]
    cases bootnodeOf a with
    | none => exact h.simple
    | some pair => exact h.simple.addPair pair.1 pair.2
  · intro pair
    rw [hbootnodes, List.filterMap_append, List.mem_append, ← h.added]
    cases ha : bootnodeOf a with
    | none =>
        rw [List.filterMap_cons_none ha, List.filterMap_nil, or_iff_left List.not_mem_nil]
        rfl
    | some added =>
        rw [List.filterMap_cons_some ha, List.filterMap_nil, List.mem_singleton, Option.elim_some,
          AList.mem_pairs_addPair_iff, or_comm]

/-- What a step hands to kad: the address that it adds, or each boot node once. -/
theorem mem_givenIn_iff {acts : List Act} {w : World} (h : BootInv acts w) (a : Act)
    (peer : PeerId) (address : Multiaddr) :
    (peer, address) ∈ givenIn w a ↔ a = .addAddress peer address ∨
      failsForPeers w a = true ∧ .addBootnodes peer address ∈ acts := by
  have hbootnode : (peer, address) ∈ w.behaviour.bootnodes.pairs ↔
      .addBootnodes peer address ∈ acts := by
    rw [h.added, List.mem_filterMap]
    constructor
    · rintro ⟨a, ha, heq⟩
      cases a with
      | addBootnodes peer address =>
          cases heq
          exact ha
      | _ => cases heq
    · intro ha
      exact ⟨_, ha, rfl⟩
  have hother : (∀ peer address, a ≠ .addAddress peer address) → ((peer, address) ∈
      (if failsForPeers w a then w.behaviour.bootnodes.pairs else []) ↔
        a = .addAddress peer address ∨
          failsForPeers w a = true ∧ .addBootnodes peer address ∈ acts) := by
    intro hne
    rw [or_iff_right (hne peer address)]
    split
    · next hfails => rw [hbootnode, and_iff_right hfails]
    · next hfails => exact iff_of_false List.not_mem_nil fun h => hfails h.1
  cases a with
  | addAddress peer' address' =>
      have hfails : ¬ (failsForPeers w (.addAddress peer' address') = true ∧
          .addBootnodes peer address ∈ acts) := fun h => nomatch h.1
      rw [or_iff_left hfails, Act.addAddress.injEq]
      change (peer, address) ∈ [(peer', address')] ↔ _
      rw [List.mem_singleton, Prod.mk.injEq, eq_comm, @eq_comm _ address]
  | _ => exact hother nofun

theorem nodup_givenIn {acts : List Act} {w : World} (h : BootInv acts w) (a : Act) :
    (givenIn w a).Nodup := by
  unfold givenIn
  split
  · exact List.nodup_singleton _
  · split
    · exact h.simple.nodup_pairs
    · exact List.nodup_nil

theorem mem_given_iff (calls : List KadCall) (peer : PeerId) (address : Multiaddr) :
    (peer, address) ∈ given calls ↔ .addAddress peer address ∈ calls := by
  unfold given
  rw [List.mem_filterMap]
  constructor
  · rintro ⟨call, hcall, heq⟩
    cases call with
    | addAddress peer address =>
        cases heq
        exact hcall
    | _ => cases heq
  · intro hcall
    exact ⟨_, hcall, rfl⟩

/-- In every run the behaviour hands to kad the address of each `addAddress`, and every boot
node added so far, once, whenever a bootstrap has failed for want of a peer, and nothing
else. -/
theorem bootnodes_readded {replicationFactor : Nat} {acts : List Act} {w w' : World} {a : Act}
    (hrun : Machine.run step (initial replicationFactor) acts = some w)
    (hstep : step w a = some w') :
    ∃ calls, w'.behaviour.kadDht = w.behaviour.kadDht ++ calls ∧ (given calls).Nodup ∧
      ∀ peer address, .addAddress peer address ∈ calls ↔
        a = .addAddress peer address ∨
          failsForPeers w a = true ∧ .addBootnodes peer address ∈ acts := by
  have hinv : BootInv acts w :=
    Machine.run_trace BootInv (fun _ _ _ _ h hstep => bootInv_step h hstep)
      ⟨AList.simple_empty, fun _ => Iff.rfl⟩ hrun
  obtain ⟨⟨calls, hcalls, hgiven⟩, -⟩ := step_hands hstep
  refine ⟨calls, hcalls, ?_, fun peer address => ?_⟩
  · rw [hgiven]
    exact nodup_givenIn hinv a
  · rw [← mem_given_iff, hgiven]
    exact mem_givenIn_iff hinv a peer address

def readdActs : List Act := [.addBootnodes samplePeerId sampleAddr, .beginBootstrap]

theorem bootnodes_readded_sample :
    ∃ w w' a, a = .pollBootstrap 1 (.error ()) ∧ failsForPeers w a = true ∧
      Machine.run step (initial 1) readdActs = some w ∧ step w a = some w' ∧
      ∃ calls, w'.behaviour.kadDht = w.behaviour.kadDht ++ calls ∧ (given calls).Nodup ∧
        ∀ peer address, .addAddress peer address ∈ calls ↔
          a = .addAddress peer address ∨
            failsForPeers w a = true ∧ .addBootnodes peer address ∈ readdActs :=
  ⟨_, _, _, rfl, by decide, rfl, rfl, bootnodes_readded
    (show Machine.run step (initial 1) readdActs = some _ from rfl)
    (show step _ (.pollBootstrap 1 (.error ())) = some _ from rfl)⟩

end P2pa.Dht
