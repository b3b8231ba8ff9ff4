import P2pa.Node.EventLoop

/-!
# Which addresses a node announces

The external addresses of the swarm, from the first event of `start_listen` on.  The
filter `is_loopback` knows one loopback address, and of the places where an address is
added only those for a new listen address ask it.
-/

namespace P2pa.Node

/-- The loopback addresses of an interface: `127.0.0.0/8` and `::1`. -/
def isLoopbackIp : Protocol → Bool
  | .ip4 addr => addr >>> 24 == 127
  | .ip6 addr => addr == 1
  | _ => false

def HasLoopback (address : Multiaddr) : Prop := ∃ p ∈ address, isLoopbackIp p = true

/-- No loopback address has been handed to `Swarm::add_external_address`. -/
def NoLoopback (n : NodeInner) : Prop := ∀ addr ∈ n.swarm.externalAddresses, ¬ HasLoopback addr

/-! ## The first listen addresses -/

def listenAddr : Multiaddr := [.ip4 0, .tcp 0]

def listenEvent (n : NodeInner) : SwarmEvent → NodeInner
  | .newListenAddr address => if !isLoopback address then n.addExternalAddress address else n
  | _ => n

/-- `events` are those the loop receives before a second passes without one. -/
def startListen (o : Oracle) (n : NodeInner) (events : List SwarmEvent) :
    Except Error NodeInner :=
  let n := n.listenOn listenAddr
  if o.listenOn listenAddr then .ok (events.foldl listenEvent n) else .error .listen

/-! ## What must hold of the addresses -/

/-- The filter recognises the address if it has a loopback component. -/
def ListenOk : SwarmEvent → Prop
  | .newListenAddr address => HasLoopback address → isLoopback address = true
  | _ => True

def Completes (hs : Handshake) : SwarmEvent → Bool
  | .behaviour (.identifySent _) => hs.learnedObservedAddr
  | .behaviour (.identifyReceived _ _) => hs.toldRelayObservedAddr
  | _ => hs.learnedObservedAddr && hs.toldRelayObservedAddr

/-- The relay does not report a loopback address, and is not reached at one itself. -/
structure HandshakeOk (o : Oracle) (hs : Handshake) (event : SwarmEvent) : Prop where
  observed : ∀ peer observedAddr,
    event = .behaviour (.identifyReceived peer observedAddr) → ¬ HasLoopback observedAddr
  relay : Completes hs event = true → o.listenOn (hs.address.push .p2pCircuit) = true →
    ¬ HasLoopback hs.address

/-- The condition on a step: on the address the event brings, and on the relay's. -/
def AnnounceOk (w : World) : Act → Prop
  | .event o event =>
      match w.mode with
      | .selecting => ListenOk event
      | .relaying hs => HandshakeOk o hs event
      | .stopped _ => True
  | _ => True

theorem hasLoopback_circuit_iff (address : Multiaddr) :
    HasLoopback (address.push .p2pCircuit) ↔ HasLoopback address := by
  unfold HasLoopback Multiaddr.push
  constructor
  · rintro ⟨p, hp, hloop⟩
    rcases List.mem_append.mp hp with hin | hlast
    · exact ⟨p, hin, hloop⟩
    · rw [List.mem_singleton.mp hlast] at hloop
      cases hloop
  · rintro ⟨p, hp, hloop⟩
    exact ⟨p, List.mem_append_left _ hp, hloop⟩

theorem noLoopback_addExternalAddress_iff (n : NodeInner) (addr : Multiaddr) :
    NoLoopback (n.addExternalAddress addr) ↔ NoLoopback n ∧ ¬ HasLoopback addr := by
  unfold NoLoopback NodeInner.addExternalAddress
  constructor
  · intro h
    refine ⟨fun a ha => h a (List.mem_append_left _ ha), ?_⟩
    exact h addr (List.mem_append_right _ (List.mem_singleton_self addr))
  · rintro ⟨h, haddr⟩ a ha
    rcases List.mem_append.mp ha with hin | hlast
    · exact h a hin
    · rw [List.mem_singleton.mp hlast]
      exact haddr

theorem noLoopback_filtered_iff (n : NodeInner) (address : Multiaddr) :
    NoLoopback (if !isLoopback address then n.addExternalAddress address else n) ↔
      NoLoopback n ∧ (HasLoopback address → isLoopback address = true) := by
  cases hfilter : isLoopback address with
  | true => simp
  | false =>
      rw [Bool.not_false, if_pos rfl, noLoopback_addExternalAddress_iff]
      simp

/-! ## Steps that announce nothing -/

def addresses (n : NodeInner) : List Multiaddr × List Multiaddr :=
  (n.swarm.listening, n.swarm.externalAddresses)

section Frame

variable {lib : Libp2p} {o : Oracle}

theorem withDht_addresses (n : NodeInner)
    (f : Dht.Behaviour → Except Error Dht.Behaviour) :
    addresses (withDht n f).1 = addresses n :=
  (withDht_ifEnabled n f).keeps addresses fun _ => rfl

theorem withRdvz_addresses (n : NodeInner)
    (f : Rendezvous.Behaviour → Except Error Rendezvous.Behaviour) :
    addresses (withRdvz n f).1 = addresses n :=
  (withRdvz_ifEnabled n f).keeps addresses fun _ => rfl

theorem handleCommand_addresses (n : NodeInner) (cmd : Command) :
    addresses (handleCommand lib o n cmd).1 = addresses n := by
  cases cmd with
  | dial addr =>
      simp only [handleCommand, parseAddr, NodeInner.dial]
      cases lib.multiaddrFromStr addr <;> rfl
  | listenViaRelay address =>
      simp only [handleCommand, parseAddr, NodeInner.dial]
      cases lib.multiaddrFromStr address <;> rfl
  | publish topic contents => rfl
  | subscribe topic => rfl
  | unsubscribe topic => rfl
  | _ => simp [handleCommand, withDht_addresses, withRdvz_addresses]

theorem dialDiscovered_addresses (n : NodeInner) (found : List (PeerId × Multiaddr)) :
    addresses (dialDiscovered lib o n found).1 = addresses n := by
  induction found generalizing n with
  | nil => rfl
  | cons peer rest ih =>
      rw [dialDiscovered]
      dsimp only
      split
      · rw [ih]
        rfl
      · rfl

theorem handleEvent_addresses (clientAlive : Bool) (n : NodeInner)
    (event : BehaviourEvent) :
    addresses (handleEvent lib o clientAlive n event).1 = addresses n := by
  unfold handleEvent
  split
  · split <;> rfl
  · rfl
  · exact dialDiscovered_addresses n _
  · split <;> rfl
  · rfl

end Frame

/-! ## One step -/

theorem noLoopback_congr {n n' : NodeInner}
    (h : n'.swarm.externalAddresses = n.swarm.externalAddresses) :
    NoLoopback n' ↔ NoLoopback n := by
  unfold NoLoopback
  rw [h]

theorem noLoopback_kept {n n' : NodeInner}
    (h : n'.swarm.externalAddresses = n.swarm.externalAddresses) {ok : Prop} (hok : ok) :
    NoLoopback n' ↔ NoLoopback n ∧ ok :=
  (noLoopback_congr h).trans (and_iff_left hok).symm

theorem noLoopback_listenEvent_iff (n : NodeInner) (event : SwarmEvent) :
    NoLoopback (listenEvent n event) ↔ NoLoopback n ∧ ListenOk event := by
  cases event with
  | newListenAddr address => exact noLoopback_filtered_iff n address
  | _ => exact noLoopback_kept rfl trivial

theorem noLoopback_handleSwarmEvent_iff (lib : Libp2p) (o : Oracle) (clientAlive : Bool)
    (n : NodeInner) (event : SwarmEvent) :
    NoLoopback (handleSwarmEvent lib o clientAlive n event).1 ↔
      NoLoopback n ∧ ListenOk event := by
  cases event with
  | newListenAddr address => exact noLoopback_filtered_iff n address
  | behaviour event =>
      exact noLoopback_kept (congrArg Prod.snd (handleEvent_addresses clientAlive n event))
        trivial
  | connectionEstablished endpoint => cases endpoint <;> exact noLoopback_kept rfl trivial
  | connectionClosed endpoint =>
      simp only [handleSwarmEvent]
      split <;> exact noLoopback_kept rfl trivial
  | other => exact noLoopback_kept rfl trivial

theorem completes_iff (n : NodeInner) (hs : Handshake) (event : SwarmEvent) :
    ((handshakeEvent n hs event).2.learnedObservedAddr &&
      (handshakeEvent n hs event).2.toldRelayObservedAddr) = Completes hs event := by
  cases event with
  | behaviour event =>
      cases event with
      | identifySent peer => exact Bool.and_true _
      | identifyReceived peer observedAddr => exact Bool.true_and _
      | _ => rfl
  | _ => rfl

theorem noLoopback_handshakeEvent_iff (n : NodeInner) (hs : Handshake)
    (event : SwarmEvent) :
    NoLoopback (handshakeEvent n hs event).1 ↔
      NoLoopback n ∧ ∀ peer observedAddr,
        event = .behaviour (.identifyReceived peer observedAddr) →
          ¬ HasLoopback observedAddr := by
  unfold handshakeEvent
  split
  · simp
  · rw [noLoopback_addExternalAddress_iff]
    simp
  · rename_i hreceived
    refine ⟨fun h => ⟨h, fun peer addr heq => absurd heq (hreceived peer addr)⟩, ?_⟩
    exact fun h => h.1

theorem noLoopback_listenViaRelay_iff (o : Oracle) (n : NodeInner) (address : Multiaddr) :
    NoLoopback (listenViaRelay o n address) ↔ NoLoopback n ∧
      (o.listenOn (address.push .p2pCircuit) = true → ¬ HasLoopback address) := by
  unfold listenViaRelay
  dsimp only
  split
  · rename_i haccepted
    rw [noLoopback_addExternalAddress_iff, hasLoopback_circuit_iff]
    simp only [haccepted, true_imp_iff]
    exact and_congr_left fun _ => noLoopback_congr rfl
  · rename_i hrefused
    exact noLoopback_kept rfl fun haccepted => absurd haccepted hrefused

theorem noLoopback_shake_iff (o : Oracle) (w : World) (hs : Handshake)
    (event : SwarmEvent) :
    NoLoopback (w.shake o hs event).inner ↔
      NoLoopback w.inner ∧ HandshakeOk o hs event := by
  have hcompletes := completes_iff w.inner hs event
  have hevent := noLoopback_handshakeEvent_iff w.inner hs event
  unfold World.shake
  dsimp only
  rw [hcompletes]
  cases hlast : Completes hs event with
  | true =>
      rw [if_pos rfl]
      dsimp only
      rw [noLoopback_listenViaRelay_iff, hevent, handshakeEvent_address, and_assoc]
      apply and_congr_right
      intro _
      exact ⟨fun h => ⟨h.1, fun _ => h.2⟩, fun h => ⟨h.observed, h.relay hlast⟩⟩
  | false =>
      rw [if_neg (by simp)]
      dsimp only
      rw [hevent]
      apply and_congr_right
      intro _
      refine ⟨fun h => ⟨h, fun htrue => ?_⟩, fun h => h.observed⟩
      rw [hlast] at htrue
      cases htrue

theorem noLoopback_step_iff {lib : Libp2p} {w w' : World} {a : Act}
    (hstep : step lib w a = some w') :
    NoLoopback w'.inner ↔ NoLoopback w.inner ∧ AnnounceOk w a := by
  cases step_transition hstep with
  | send cmd _ =>
      unfold World.send
      split <;> exact noLoopback_kept rfl trivial
  | dropNode _ => exact noLoopback_kept rfl trivial
  | recvError _ => exact noLoopback_kept rfl trivial
  | timeout hs _ => exact noLoopback_kept rfl trivial
  | command o cmd rest _ _ =>
      exact noLoopback_kept (congrArg Prod.snd (handleCommand_addresses w.inner cmd)) trivial
  | receive o event hmode =>
      simp only [AnnounceOk, hmode]
      exact noLoopback_handleSwarmEvent_iff lib o w.nodeAlive w.inner event
  | shake o event hs hmode =>
      simp only [AnnounceOk, hmode]
      exact noLoopback_shake_iff o w hs event

/-! ## Runs -/

theorem noLoopback_foldl_iff (n : NodeInner) (events : List SwarmEvent) :
    NoLoopback (events.foldl listenEvent n) ↔
      NoLoopback n ∧ ∀ event ∈ events, ListenOk event := by
  induction events generalizing n with
  | nil => simp
  | cons event rest ih =>
      rw [List.foldl_cons, ih, noLoopback_listenEvent_iff, and_assoc, List.forall_mem_cons]

theorem noLoopback_startListen_iff {o : Oracle} {n n' : NodeInner}
    {events : List SwarmEvent} (h : startListen o n events = .ok n') :
    NoLoopback n' ↔ NoLoopback n ∧ ∀ event ∈ events, ListenOk event := by
  unfold startListen at h
  dsimp only at h
  split at h
  · cases h
    rw [noLoopback_foldl_iff]
    exact and_congr_left fun _ => noLoopback_congr rfl
  · cases h

/-- A node that has been built announces no loopback address, in any state it gets to,
exactly when every new listen address with a loopback component is one the filter
recognises, no relay reports a loopback address, and no relay is reached at one. -/
theorem loopback_never_announced_iff (lib : Libp2p) {gossip : Gossip.Behaviour}
    {rdvz : Option Rendezvous.Behaviour} {dht : Option Dht.Behaviour} {o : Oracle}
    {events : List SwarmEvent} {inner : NodeInner}
    (hstart : startListen o { swarm := .build gossip rdvz dht, dialingRelays := [] } events =
      .ok inner) (acts : List Act) :
    (NoLoopback inner ∧
      Machine.Along (step lib) (fun _ _ w' => NoLoopback w'.inner) (initial inner) acts) ↔
      (∀ event ∈ events, ListenOk event) ∧
        Machine.Along (step lib) (fun w a _ => AnnounceOk w a) (initial inner) acts := by
  have hbuilt : NoLoopback { swarm := .build gossip rdvz dht, dialingRelays := [] } := by
    intro addr haddr
    cases haddr
  have hlisten : NoLoopback inner ↔ ∀ event ∈ events, ListenOk event := by
    rw [noLoopback_startListen_iff hstart]
    exact and_iff_right hbuilt
  rw [hlisten]
  apply and_congr_right
  intro hevents
  apply Machine.along_iff_of_invariant fun w => NoLoopback w.inner
  · intro w a w' hw hstep hok
    have hw' := (noLoopback_step_iff hstep).mpr ⟨hw, hok⟩
    exact ⟨hw', hw'⟩
  · intro w a w' hw hstep hw'
    exact ((noLoopback_step_iff hstep).mp hw').2
  · exact hlisten.mpr hevents

/-! ## A node on two interfaces, and a relay on the same host -/

def loopbackAddr : Multiaddr := [.ip4 0x7f000001, .tcp 5000]

def listenEvents : List SwarmEvent := [.newListenAddr loopbackAddr, .newListenAddr sampleAddr]

theorem loopback_never_announced_iff_two :
    ∃ inner, startListen sampleOracle sampleInner listenEvents = .ok inner ∧
      ((NoLoopback inner ∧ Machine.Along (step sampleLibp2p)
          (fun _ _ w' => NoLoopback w'.inner) (initial inner) [.dropNode]) ↔
        (∀ event ∈ listenEvents, ListenOk event) ∧
          Machine.Along (step sampleLibp2p) (fun w a _ => AnnounceOk w a) (initial inner)
            [.dropNode]) :=
  ⟨_, rfl, loopback_never_announced_iff sampleLibp2p
    (show startListen sampleOracle sampleInner listenEvents = .ok _ from rfl) _⟩

/-- A relay that reports to have seen the node at `127.0.0.1`. -/
theorem loopback_never_announced_fails :
    ¬ ∀ (lib : Libp2p) (gossip : Gossip.Behaviour) (rdvz : Option Rendezvous.Behaviour)
      (dht : Option Dht.Behaviour) (o : Oracle) (events : List SwarmEvent)
      (inner : NodeInner),
      startListen o { swarm := .build gossip rdvz dht, dialingRelays := [] } events =
        .ok inner → ∀ acts : List Act, NoLoopback inner ∧
          Machine.Along (step lib) (fun _ _ w' => NoLoopback w'.inner) (initial inner)
            acts := by
  intro h
  obtain ⟨-, hrun⟩ := h sampleLibp2p (Gossip.new samplePeerId true) none none sampleOracle []
    _ rfl
    [.send (.listenViaRelay
      "/ip4/1.2.3.4/tcp/5000/p2p/QmYyQSo1c1Ym7orWxLYvCrM2EmxFTANf8wXmmE7DWjhx5N"),
      .command sampleOracle,
      .event sampleOracle (.behaviour (.identifyReceived samplePeerId loopbackAddr))]
  obtain ⟨-, hrun⟩ := hrun _ rfl
  obtain ⟨-, hrun⟩ := hrun _ rfl
  obtain ⟨hlast, -⟩ := hrun _ rfl
  apply hlast loopbackAddr
  · decide
  · exact ⟨.ip4 0x7f000001, by decide, by decide⟩

end P2pa.Node
