import P2pa.Dht.Bootstrap
import P2pa.Node.SpinUp
import P2pa.Node.Whole.Provenance
import P2pa.Node.Whole.Requests
import P2pa.Rendezvous.Registrations

/-!
# What `spin_up` brings about

The commands of `spin_up` go through the channel.  Once the event loop has handled them, the
relays and the rendezvous points are dialed, and every later connection to a point registers
there under every namespace.
-/

namespace P2pa.Node.Whole

open Utils

/-! ## The bootstrap -/

section Bootstrap

variable {P : Type} {lib : Libp2p} {inner : NodeInner} {s s' : System}

/-- A bootstrap is requested, or its end is to be told. -/
def Bootstraps (b : Dht.Behaviour) : Prop :=
  b.beginBootstrap = true ∨ .isBootstrapped ∈ b.eventQueue

theorem Bootstraps.of_eq {b b' : Dht.Behaviour} (h : Bootstraps b)
    (hpart : Dht.bootstrapPart b' = Dht.bootstrapPart b)
    (hqueue : b'.eventQueue = b.eventQueue) : Bootstraps b' := by
  have hflag : b'.beginBootstrap = b.beginBootstrap := congrArg Prod.fst hpart
  unfold Bootstraps
  rw [hflag, hqueue]
  exact h

theorem bootstraps_dhtAfter {b : Dht.Behaviour} (h : Bootstraps b) (o : Oracle) (cmd : Command) :
    Bootstraps (dhtAfter lib o b cmd) := by
  cases cmd with
  | beginBootstrap => exact .inl rfl
  | addKnownPeer peer address =>
      change Bootstraps ((peerOf lib peer address).elim b _)
      cases peerOf lib peer address <;> exact h
  | addBootNode peer address =>
      change Bootstraps ((peerOf lib peer address).elim b _)
      cases peerOf lib peer address with
      | none => exact h
      | some pair =>
          exact h.of_eq (Dht.addBootnodes_bootstrapPart _ _ _) (Dht.addBootnodes_eventQueue _ _ _)
  | putRecord key value =>
      exact h.of_eq (Dht.putRecord_bootstrapPart _ _ _ _) (Dht.putRecord_eventQueue _ _ _ _)
  | getRecord key retry =>
      exact h.of_eq (Dht.getRecord_bootstrapPart _ _ _ _ _) (Dht.getRecord_eventQueue _ _ _ _ _)
  | _ => exact h

theorem bootstraps_handleEvent {b : Dht.Behaviour} (h : Bootstraps b) (now : Instant)
    (retryId : Dht.QueryId) (event : Dht.KadEvent) :
    Bootstraps (Dht.handleEvent b now retryId event) := by
  have hqueue := Dht.handleEvent_eventQueue b now retryId event
  by_cases hboot : ∃ id result last,
      event = .outboundQueryProgressed id (.bootstrap result) last
  · obtain ⟨id, result, last, rfl⟩ := hboot
    cases result with
    | error e =>
        have hpart := Dht.handleBootstrapErr_bootstrapPart b now e
        have hflag : (Dht.handleBootstrapErr b now e).beginBootstrap = b.beginBootstrap :=
          congrArg Prod.fst hpart
        rw [show Dht.image (.outboundQueryProgressed id (.bootstrap (.error e)) last) = [] from rfl,
          List.append_nil] at hqueue
        change (Dht.handleBootstrapErr b now e).eventQueue = b.eventQueue at hqueue
        change Bootstraps (Dht.handleBootstrapErr b now e)
        unfold Bootstraps
        rw [hflag, hqueue]
        exact h
    | ok numRemaining =>
        cases last with
        | false => exact h
        | true =>
            change Bootstraps (Dht.handleBootstrapOk b numRemaining)
            unfold Dht.handleBootstrapOk
            split
            · exact .inr (List.mem_append_right _ (List.mem_singleton.mpr rfl))
            · exact h
  · push Not at hboot
    have hpart := Dht.handleEvent_bootstrapPart b now retryId hboot
    have hnone : Dht.image event = [] := by
      unfold Dht.image
      split
      · exact absurd rfl (hboot _ _ _)
      · rfl
    rw [hnone, List.append_nil] at hqueue
    exact h.of_eq hpart hqueue

theorem bootstraps_forwardEvents {b : Dht.Behaviour} (h : Bootstraps b)
    (reads : Stream' (Instant × Dht.QueryId)) (yields : List (ToSwarm Dht.KadEvent P)) :
    (returnedEvent (Dht.forwardEvents b reads yields)).isSome ∨
      Bootstraps (Dht.forwardEvents b reads yields).state := by
  induction yields generalizing b reads with
  | nil => exact .inr h
  | cons action rest ih =>
      cases action with
      | generateEvent event =>
          unfold Dht.forwardEvents
          dsimp only
          split
          · exact .inl rfl
          · exact ih (bootstraps_handleEvent h _ _ _) _
      | _ => exact .inr h

theorem bootstraps_poll {b : Dht.Behaviour} (h : Bootstraps b) {now : Instant}
    {answer : Dht.BootstrapAnswer} {drainNow : Instant} {answers : Nat → Dht.Answer} {fuel : Nat}
    {reads : Stream' (Instant × Dht.QueryId)} {yields : List (ToSwarm Dht.KadEvent P)}
    {polled : Polled Dht.Behaviour Dht.KadEvent Dht.Event P}
    (hpoll : Dht.poll b now answer drainNow answers fuel reads yields = some polled) :
    (returnedEvent polled).isSome ∨ Bootstraps polled.state := by
  obtain ⟨drained, hdrained, rfl⟩ := Option.map_eq_some_iff.mp hpoll
  apply bootstraps_forwardEvents
  have hstart : Bootstraps (Dht.pollBootstrap b now answer) := by
    have hflag : (Dht.pollBootstrap b now answer).beginBootstrap = b.beginBootstrap := by
      unfold Dht.pollBootstrap
      split
      · cases answer <;> rfl
      · rfl
    unfold Bootstraps
    rw [hflag, Dht.pollBootstrap_eventQueue]
    exact h
  have hpart : Dht.bootstrapPart drained.2 = Dht.bootstrapPart (Dht.pollBootstrap b now answer) :=
    Dht.drain_keeps (R := fun b b' => Dht.bootstrapPart b' = Dht.bootstrapPart b) (fun _ => rfl)
      (fun h h' => h'.trans h) (fun h => (Dht.drainGet_frame h).1) Dht.drainPut_bootstrapPart
      hdrained
  exact hstart.of_eq hpart (Dht.drain_eventQueue hdrained)

/-- A bootstrap that a command has asked for is still requested, or its end is to be told, or
has been told. -/
def BootstrapAsked (w : World) : Prop :=
  .beginBootstrap ∈ w.handled → ∀ b, w.inner.swarm.dht = some b →
    Bootstraps b ∨ .behaviour (.dht .isBootstrapped) ∈ w.yielded

theorem bootstrapAsked_loop {w w' : World} (h : BootstrapAsked w) {a : Node.Act}
    (hstep : Node.step lib w a = some w') : BootstrapAsked w' := by
  have hyielded : w.yielded ⊆ w'.yielded := by
    rw [step_yielded hstep]
    exact List.subset_append_left _ _
  rcases step_dht hstep with ⟨o, cmd, rest, rfl, hcommands, hhandled, hdht⟩ | ⟨hother, hdht⟩
  · intro hasked b' hb'
    rw [hdht] at hb'
    obtain ⟨b, hb, rfl⟩ := Option.map_eq_some_iff.mp hb'
    rw [hhandled] at hasked
    rcases List.mem_append.mp hasked with hbefore | hlast
    · rcases h hbefore b hb with hboot | htold
      · exact .inl (bootstraps_dhtAfter hboot o cmd)
      · exact .inr (hyielded htold)
    · cases List.mem_singleton.mp hlast
      exact .inl (.inl rfl)
  · intro hasked b hb
    rw [step_handled hstep hother] at hasked
    rw [hdht] at hb
    exact (h hasked b hb).imp_right fun htold => hyielded htold

theorem BootstrapAsked.delivers (h : BootstrapAsked s.loop) {o : Oracle}
    {event : Option BehaviourEvent} (hs' : Delivers lib s o event s') :
    BootstrapAsked s'.loop := by
  cases hs' with
  | nothing => exact h
  | event event loop hstep => exact bootstrapAsked_loop h hstep

theorem bootstrapAsked_step (h : BootstrapAsked s.loop) {a : Act P}
    (hstep : step lib s a = some s') : BootstrapAsked s'.loop := by
  cases transition hstep with
  | loop a loop helse hloop => exact bootstrapAsked_loop h hloop
  | fromSwarm event => exact h
  | pollGossip o now answers yields polled hpolled _ hs' =>
      refine BootstrapAsked.delivers ?_ hs'
      exact h
  | pollRdvz o ticks yields b hb polled hpolled _ hs' =>
      refine BootstrapAsked.delivers ?_ hs'
      exact h
  | pollMdns o a w w' hw hpolled _ hs' =>
      refine BootstrapAsked.delivers ?_ hs'
      exact h
  | pollDht o now answer drainNow answers fuel reads yields b hb polled hpolled _ hs' =>
      cases hevent : returnedEvent polled with
      | none =>
          rw [hevent] at hs'
          cases hs' with
          | nothing =>
              intro hasked b' hb'
              cases hb'
              refine (h hasked b hb).imp_left fun hboot => ?_
              rcases bootstraps_poll hboot hpolled with hreturned | hboot
              · rw [hevent] at hreturned
                cases hreturned
              · exact hboot
      | some event =>
          rw [hevent] at hs'
          cases hs' with
          | event event' loop hloop =>
              -- the only event of the DHT is that the bootstrap has ended
              intro hasked b' hb'
              refine .inr ?_
              rw [step_yielded hloop]
              exact List.mem_append_right _ (List.mem_singleton.mpr rfl)

end Bootstrap

/-! ## Once the commands of `spin_up` are handled -/

section Commands

variable {lib : Libp2p} {config : Config}

/-- The text of an address with its peer is parsed as it was written. -/
def Reparsed (lib : Libp2p) (nodes : List (PeerId × Multiaddr)) : Prop :=
  ∀ node ∈ nodes, lib.multiaddrFromStr (addrWithPeer lib node) = some (node.2.push (.p2p node.1))

structure StartedUp (lib : Libp2p) (config : Config) (w : World) : Prop where
  relays : config.enableRelay = true → ∀ node ∈ config.relayNodes,
    node.2.push (.p2p node.1) ∈ w.inner.swarm.dialed
  points : config.enableRendezvous = true → ∀ node ∈ config.rendezvousNodes,
    node.2.push (.p2p node.1) ∈ w.inner.swarm.dialed
  registers : config.enableRendezvous = true → ∀ b, w.inner.swarm.rdvz = some b →
    ∀ node ∈ config.rendezvousNodes, ∀ ns ∈ config.rendezvousNamespaces, ∀ value,
      lib.namespaceNew ns = some value → (node.2.push (.p2p node.1), value) ∈ b.registrations
  discovers : config.enableRendezvous = true → ∀ b, w.inner.swarm.rdvz = some b →
    ∀ pair ∈ config.rendezvousNodes.zip config.rendezvousNamespaces, ∀ value,
      lib.namespaceNew pair.2 = some value →
        (pair.1.2.push (.p2p pair.1.1), value) ∈ b.discovery
  bootstraps : config.enableDht = true → ∀ b, w.inner.swarm.dht = some b →
    Bootstraps b ∨ .behaviour (.dht .isBootstrapped) ∈ w.yielded

theorem relay_mem (hrelay : config.enableRelay = true) {node : PeerId × Multiaddr}
    (hnode : node ∈ config.relayNodes) :
    .listenViaRelay (addrWithPeer lib node) ∈ spinUpCommands lib config := by
  unfold spinUpCommands
  rw [if_pos hrelay]
  exact List.mem_append_left _ (List.mem_map_of_mem hnode)

theorem dial_mem (hrdvz : config.enableRendezvous = true) {node : PeerId × Multiaddr}
    (hnode : node ∈ config.rendezvousNodes) :
    .dial (addrWithPeer lib node) ∈ spinUpCommands lib config := by
  unfold spinUpCommands rendezvousCommands
  rw [if_pos hrdvz]
  apply List.mem_append_right
  apply List.mem_append_left
  exact List.mem_append_left _ (List.mem_map_of_mem hnode)

theorem discoverPair_mem (hrdvz : config.enableRendezvous = true)
    {pair : (PeerId × Multiaddr) × String}
    (hpair : pair ∈ config.rendezvousNodes.zip config.rendezvousNamespaces) :
    .discover (addrWithPeer lib pair.1) pair.2 ∈ spinUpCommands lib config := by
  unfold spinUpCommands rendezvousCommands
  rw [if_pos hrdvz]
  apply List.mem_append_right
  apply List.mem_append_left
  apply List.mem_append_right
  exact List.mem_append_right _ (List.mem_map_of_mem (f := fun pair =>
    Command.discover (addrWithPeer lib pair.1) pair.2) hpair)

theorem beginBootstrap_mem (hdht : config.enableDht = true) :
    .beginBootstrap ∈ spinUpCommands lib config := by
  unfold spinUpCommands
  rw [if_pos hdht]
  apply List.mem_append_right
  exact List.mem_append_right _ (List.mem_singleton.mpr rfl)

theorem startedUp {inner : NodeInner} {w : World} (hcaused : Caused lib inner w)
    (hstored : Stored lib inner w) (hboot : BootstrapAsked w)
    (hhandled : spinUpCommands lib config ⊆ w.handled)
    (hrelays : Reparsed lib config.relayNodes) (hpoints : Reparsed lib config.rendezvousNodes) :
    StartedUp lib config w where
  relays hrelay node hnode :=
    hcaused.asked _ (hhandled (relay_mem hrelay hnode)) _ (hrelays node hnode)
  points hrdvz node hnode :=
    hcaused.asked _ (hhandled (dial_mem hrdvz hnode)) _ (hpoints node hnode)
  registers hrdvz b hb node hnode ns hns value hvalue := by
    have hcmd : .register (addrWithPeer lib node) ns ∈ spinUpCommands lib config :=
      (register_mem_iff hrdvz _ _).mpr ⟨List.mem_map_of_mem hnode, hns⟩
    have hrel := hstored.rdvz
    rw [hb] at hrel
    generalize inner.swarm.rdvz = start at hrel
    cases hrel with
    | some hab =>
        refine (hab.registrations _).mpr (.inr (List.mem_filterMap.mpr ⟨_, hhandled hcmd, ?_⟩))
        simp only [registerOf, pointOf, hpoints node hnode, hvalue, Option.bind_some,
          Option.map_some]
  discovers hrdvz b hb pair hpair value hvalue := by
    have hcmd : .discover (addrWithPeer lib pair.1) pair.2 ∈ spinUpCommands lib config :=
      discoverPair_mem hrdvz hpair
    have hrel := hstored.rdvz
    rw [hb] at hrel
    generalize inner.swarm.rdvz = start at hrel
    cases hrel with
    | some hab =>
        refine (hab.discovery _).mpr (.inr (List.mem_filterMap.mpr ⟨_, hhandled hcmd, ?_⟩))
        have hpoint := hpoints pair.1 (List.of_mem_zip hpair).1
        simp only [discoverOf, pointOf, hpoint, hvalue, Option.bind_some, Option.map_some]
  bootstraps hdht b hb := hboot (hhandled (beginBootstrap_mem hdht)) b hb

end Commands

/-! ## The next connection to a point -/

section Connection

variable {lib : Libp2p} {config : Config} {w : World}

/-- The calls that a connection to the point adds: it registers there under every namespace,
and asks for those that stand at its position. -/
structure Connects (lib : Libp2p) (config : Config) (node : PeerId × Multiaddr) (peerId : PeerId)
    (b b' : Rendezvous.Behaviour) : Prop where
  calls : ∃ calls, b'.rdvz = b.rdvz ++ calls ∧
    (∀ ns ∈ config.rendezvousNamespaces, ∀ value, lib.namespaceNew ns = some value →
      .register value peerId b.ttl ∈ calls) ∧
    ∀ ns, (node, ns) ∈ config.rendezvousNodes.zip config.rendezvousNamespaces →
      ∀ value, lib.namespaceNew ns = some value →
        .discover (some value) b.cookie none peerId ∈ calls

theorem StartedUp.connected (h : StartedUp lib config w)
    (hrdvz : config.enableRendezvous = true) {b : Rendezvous.Behaviour}
    (hb : w.inner.swarm.rdvz = some b) {node : PeerId × Multiaddr}
    (hnode : node ∈ config.rendezvousNodes) (peerId : PeerId) :
    Connects lib config node peerId b (Rendezvous.onSwarmEvent b
      (.connectionEstablished peerId (.dialer (node.2.push (.p2p node.1))))) := by
  refine ⟨Rendezvous.dialedCalls b peerId (node.2.push (.p2p node.1)) ++
    [.onSwarmEvent (.connectionEstablished peerId (.dialer (node.2.push (.p2p node.1))))],
    ?_, ?_, ?_⟩
  · unfold Rendezvous.dialedCalls
    rw [← List.append_assoc, ← List.append_assoc]
    rfl
  · intro ns hns value hvalue
    apply List.mem_append_left
    rw [Rendezvous.mem_dialedCalls_iff]
    exact ⟨⟨h.registers hrdvz b hb node hnode ns hns value hvalue, rfl⟩, rfl⟩
  · intro ns hpair value hvalue
    apply List.mem_append_left
    apply List.mem_append_right
    have hstored := h.discovers hrdvz b hb (node, ns) hpair value hvalue
    exact List.mem_map.mpr ⟨_, List.mem_filter.mpr ⟨hstored, decide_eq_true rfl⟩, rfl⟩

end Connection

/-- Once the event loop has handled what `spin_up` has sent, all that it is for is brought
about and stays so: the relays and points are dialed, a bootstrap is requested until it has
ended, and a connection to a rendezvous point, whenever it comes, registers there under every
namespace and asks for those that stand at its position. -/
theorem spin_up_takes_effect {P : Type} {lib : Libp2p} {inner : NodeInner}
    {mdns : Option Mdns.World} {config : Config} {receiving : List Command → Bool}
    {sent : List Command} (hspin : (spinUp receiving lib config).outcome [] = (.ok (), sent))
    (hrelays : Reparsed lib config.relayNodes) (hpoints : Reparsed lib config.rendezvousNodes)
    {acts : List (Act P)} {s : System}
    (hrun : Machine.run (step lib) (initial inner mdns) acts = some s)
    (hhandled : sent ⊆ s.loop.handled) :
    StartedUp lib config s.loop ∧
      ∀ node ∈ config.rendezvousNodes, ∀ peerId s' b', config.enableRendezvous = true →
        step lib s (.fromSwarm (P := P)
          (.connectionEstablished peerId (.dialer (node.2.push (.p2p node.1))))) = some s' →
        s'.loop.inner.swarm.rdvz = some b' →
          ∃ b, s.loop.inner.swarm.rdvz = some b ∧ Connects lib config node peerId b b' := by
  have hsent : sent = spinUpCommands lib config := sends_spinUp lib config [] sent hspin
  rw [hsent] at hhandled
  have hcaused : Caused lib inner s.loop :=
    Machine.run_invariant (fun s => Caused lib inner s.loop)
      (fun _ _ _ h hstep => caused_step h hstep) (caused_initial inner) hrun
  have hstored : Stored lib inner s.loop :=
    Machine.run_invariant (fun s => Stored lib inner s.loop)
      (fun _ _ _ h hstep => stored_step h hstep) (stored_initial inner) hrun
  have hboot : BootstrapAsked s.loop :=
    Machine.run_invariant (fun s => BootstrapAsked s.loop)
      (fun _ _ _ h hstep => bootstrapAsked_step h hstep)
      (fun hasked => absurd hasked List.not_mem_nil) hrun
  have hstarted := startedUp hcaused hstored hboot hhandled hrelays hpoints
  refine ⟨hstarted, fun node hnode peerId s' b' hrdvz hstep hb' => ?_⟩
  cases transition hstep with
  | fromSwarm event =>
      obtain ⟨b, hb, rfl⟩ := Option.map_eq_some_iff.mp hb'
      exact ⟨b, hb, hstarted.connected hrdvz hb hnode peerId⟩

def startConfig : Config where
  relayNodes := [(samplePeerId, sampleAddr)]
  rendezvousNodes := [(samplePeerId, sampleAddr)]
  rendezvousNamespaces := ["chat"]
  enableRendezvous := true
  enableDht := true
  enableRelay := true

/-- The commands of `spin_up` are sent; the relay does not answer. -/
def startActs : List (Act Unit) :=
  (spinUpCommands pointLibp2p startConfig).map (fun cmd => .loop (.send cmd)) ++
    [.loop (.command sampleOracle), .loop .timeout] ++
    List.replicate 4 (.loop (.command sampleOracle))

theorem spin_up_takes_effect_sample :
    ∃ s, Machine.run (step pointLibp2p) (initial storingInner none) startActs = some s ∧
      StartedUp pointLibp2p startConfig s.loop ∧
      ∀ node ∈ startConfig.rendezvousNodes, ∀ peerId s' b',
        startConfig.enableRendezvous = true →
        step pointLibp2p s (.fromSwarm (P := Unit)
          (.connectionEstablished peerId (.dialer (node.2.push (.p2p node.1))))) = some s' →
        s'.loop.inner.swarm.rdvz = some b' →
          ∃ b, s.loop.inner.swarm.rdvz = some b ∧
            Connects pointLibp2p startConfig node peerId b b' := by
  have hreparsed : Reparsed pointLibp2p [(samplePeerId, sampleAddr)] := by
    intro node hnode
    rw [List.mem_singleton.mp hnode]
    rfl
  have hspin : (spinUp (fun _ => true) pointLibp2p startConfig).outcome [] =
      (.ok (), spinUpCommands pointLibp2p startConfig) := rfl
  refine ⟨_, rfl, spin_up_takes_effect hspin hreparsed hreparsed (show Machine.run
    (step pointLibp2p) (initial storingInner none) startActs = some _ from rfl) ?_⟩
  exact List.Subset.refl _

end P2pa.Node.Whole
