import P2pa.Mdns.Config
import P2pa.Node.Announce
import P2pa.Node.SpinUp
import P2pa.Node.Whole.Publish
import P2pa.Node.Whole.Requests
import P2pa.Rendezvous.Ticks

/-!
# From a configuration to the event loop

`build_swarm` of `node.rs`, and `start_listen` with the behaviours that the swarm polls while
it waits: what they return is not looked at there.  The builders of libp2p do not fail here,
and the identity is given by its peer id.
-/

namespace P2pa.Node.Whole

open Utils

/-- `Config` with the fields that `build_swarm` reads. -/
structure InitConfig extends Config where
  bootstrapNodes : List (PeerId × Multiaddr)
  rendezvousTtl : Option UInt64
  mdnsServiceName : String
  mdnsProbeInterval : Duration
  mdnsQueryInterval : Duration
  enableMdns : Bool
  enableRepublish : Bool

def mdnsConfig (config : InitConfig) : Mdns.ServiceConfig :=
  { Mdns.ServiceConfig.default.withServiceName config.mdnsServiceName with
    probeInterval := config.mdnsProbeInterval
    queryInterval := config.mdnsQueryInterval }

def bootDht (nodes : List (PeerId × Multiaddr)) : Dht.Behaviour :=
  nodes.foldl
    (fun dht node => Dht.addBootnodes (Dht.addAddress dht node.1 node.2) node.1 node.2)
    (Dht.new 1)

/-- A behaviour that is built if it is enabled; the outer `none` is a panic. -/
def toggle {B : Type} (enabled : Bool) (built : Option B) : Option (Option B) :=
  if enabled then built.map some else some none

structure Starting where
  inner : NodeInner
  mdns : Option Mdns.World

/-- `none` is a panic. -/
def buildSwarm (config : InitConfig) (peerId : PeerId) (now : Instant) : Option Starting := do
  let mdns ← toggle config.enableMdns (Mdns.new (mdnsConfig config).toConfig peerId)
  let rdvz ← toggle config.enableRendezvous (Rendezvous.new peerId config.rendezvousTtl now)
  let dht := if config.enableDht then some (bootDht config.bootstrapNodes) else none
  let swarm := .build (Gossip.new peerId config.enableRepublish) rdvz dht
  return {
    inner := { swarm, dialingRelays := [] }
    mdns := mdns.map fun behaviour => { behaviour, emitted := [], rounds := [] } }

def Starting.setRdvz (s : Starting) (rdvz : Option Rendezvous.Behaviour) : Starting :=
  { s with inner := { s.inner with swarm := { s.inner.swarm with rdvz } } }

def Starting.setDht (s : Starting) (dht : Option Dht.Behaviour) : Starting :=
  { s with inner := { s.inner with swarm := { s.inner.swarm with dht } } }

def Starting.setGossip (s : Starting) (gossip : Gossip.Behaviour) : Starting :=
  { s with inner := { s.inner with swarm := { s.inner.swarm with gossip } } }

/-- What happens while the loop of `start_listen` waits. -/
def listenStep {P : Type} (s : Starting) : Act P → Option Starting
  | .loop (.event _ event) =>
      if ofBehaviour event then none else some { s with inner := listenEvent s.inner event }
  | .loop _ => none
  | .fromSwarm event =>
      some (s.setRdvz (s.inner.swarm.rdvz.map (Rendezvous.onSwarmEvent · event)))
  | .pollGossip _ now answers yields =>
      some (s.setGossip (Gossip.poll s.inner.swarm.gossip now answers yields).state)
  | .pollRdvz _ ticks yields => do
      let b ← s.inner.swarm.rdvz
      let polled ← Rendezvous.poll b ticks yields
      return s.setRdvz (some polled.state)
  | .pollMdns _ a => do
      let w ← s.mdns
      let w' ← Mdns.step w a
      return { s with mdns := some w' }
  | .pollDht _ now answer drainNow answers fuel reads yields => do
      let b ← s.inner.swarm.dht
      let polled ← Dht.poll b now answer drainNow answers fuel reads yields
      return s.setDht (some polled.state)

/-- `start_listen`, once its call of `listen_on` is accepted. -/
def Starting.listen (s : Starting) : Starting :=
  { s with inner := s.inner.listenOn listenAddr }

/-! ## What is built -/

theorem toggle_eq_none_iff {B : Type} (enabled : Bool) (built : Option B) :
    toggle enabled built = none ↔ enabled = true ∧ built = none := by
  unfold toggle
  cases enabled <;> simp

theorem toggle_eq_some {B : Type} {enabled : Bool} {built b : Option B}
    (h : toggle enabled built = some b) :
    b.isSome = enabled ∧ ∀ x, b = some x → built = some x := by
  unfold toggle at h
  cases enabled with
  | false =>
      cases h
      exact ⟨rfl, nofun⟩
  | true =>
      obtain ⟨x, hx, rfl⟩ := Option.map_eq_some_iff.mp h
      exact ⟨rfl, fun y hy => hy ▸ hx⟩

def Buildable (config : InitConfig) : Prop :=
  (config.enableMdns = true → config.mdnsProbeInterval < config.mdnsQueryInterval) ∧
    (config.enableRendezvous = true → config.rendezvousTtl ≠ some 0)

section Build

variable {config : InitConfig} {peerId : PeerId} {now : Instant}

theorem mdnsNew_eq_none_iff : Mdns.new (mdnsConfig config).toConfig peerId = none ↔
    ¬ config.mdnsProbeInterval < config.mdnsQueryInterval := by
  change (if config.mdnsProbeInterval < config.mdnsQueryInterval then _ else none) = none ↔ _
  split <;> simp_all

theorem rdvzNew_eq_none_iff : Rendezvous.new peerId config.rendezvousTtl now = none ↔
    config.rendezvousTtl = some 0 := by
  rw [← Rendezvous.nanos_refreshInterval_eq_zero_iff]
  unfold Rendezvous.new Mdns.Timer.intervalAt
  rw [Option.map_eq_none_iff]
  split <;> simp_all

theorem buildSwarm_isSome_iff : (buildSwarm config peerId now).isSome ↔ Buildable config := by
  have hmdns := toggle_eq_none_iff config.enableMdns
    (Mdns.new (mdnsConfig config).toConfig peerId)
  have hrdvz := toggle_eq_none_iff config.enableRendezvous
    (Rendezvous.new peerId config.rendezvousTtl now)
  rw [mdnsNew_eq_none_iff] at hmdns
  rw [rdvzNew_eq_none_iff] at hrdvz
  unfold buildSwarm Buildable
  cases hm : toggle config.enableMdns (Mdns.new (mdnsConfig config).toConfig peerId) with
  | none =>
      obtain ⟨henable, hnot⟩ := hmdns.mp hm
      exact iff_of_false nofun fun h => hnot (h.1 henable)
  | some mdns =>
      cases hr : toggle config.enableRendezvous
          (Rendezvous.new peerId config.rendezvousTtl now) with
      | none =>
          obtain ⟨henable, hzero⟩ := hrdvz.mp hr
          exact iff_of_false nofun fun h => h.2 henable hzero
      | some rdvz =>
          rw [hm] at hmdns
          rw [hr] at hrdvz
          refine iff_of_true rfl ⟨fun henable => ?_, fun henable hzero => ?_⟩
          · exact not_not.mp fun hnot => nomatch hmdns.mpr ⟨henable, hnot⟩
          · exact nomatch hrdvz.mpr ⟨henable, hzero⟩

theorem mem_bootDht_iff (nodes : List (PeerId × Multiaddr)) (pair : PeerId × Multiaddr) :
    pair ∈ (bootDht nodes).bootnodes.pairs ↔ pair ∈ nodes := by
  induction nodes using List.reverseRecOn with
  | nil => exact Iff.rfl
  | append_singleton nodes node ih =>
      have hlast : (bootDht (nodes ++ [node])).bootnodes =
          (bootDht nodes).bootnodes.addPair node.1 node.2 := by
        unfold bootDht
        rw [List.foldl_concat, Dht.addBootnodes_bootnodes]
        rfl
      rw [hlast, AList.mem_pairs_addPair_iff, ih, List.mem_append, List.mem_singleton, or_comm]

end Build

/-! ## Until the event loop starts -/

/-- Behaviours that are enabled, and have not been asked for anything yet. -/
structure Ready (config : InitConfig) (s : Starting) : Prop where
  gossip : messagePart s.inner.swarm.gossip = (config.enableRepublish, [])
  rdvz : s.inner.swarm.rdvz.isSome = config.enableRendezvous
  unasked : ∀ b, s.inner.swarm.rdvz = some b → askedPart b = ([], [])
  dht : s.inner.swarm.dht.isSome = config.enableDht
  booted : ∀ b, s.inner.swarm.dht = some b →
    ∀ pair, pair ∈ b.bootnodes.pairs ↔ pair ∈ config.bootstrapNodes
  mdns : s.mdns.isSome = config.enableMdns
  agree : ∀ w, s.mdns = some w → Mdns.Agree w

section Ready

variable {P : Type} {config : InitConfig} {peerId : PeerId} {now : Instant} {s s' : Starting}

theorem ready_buildSwarm (h : buildSwarm config peerId now = some s) : Ready config s := by
  obtain ⟨mdns, hmdns, h⟩ := Option.bind_eq_some_iff.mp h
  obtain ⟨rdvz, hrdvz, h⟩ := Option.bind_eq_some_iff.mp h
  cases h
  obtain ⟨hmdns, hnewMdns⟩ := toggle_eq_some hmdns
  obtain ⟨hrdvz, hnewRdvz⟩ := toggle_eq_some hrdvz
  refine ⟨rfl, hrdvz, fun b hb => ?_, ?_, fun b hb => ?_, Option.isSome_map.trans hmdns,
    fun w hw => ?_⟩
  · obtain ⟨timeout, -, rfl⟩ := Option.map_eq_some_iff.mp (hnewRdvz b hb)
    rfl
  · change (if config.enableDht = true then _ else none).isSome = _
    cases config.enableDht <;> rfl
  · obtain ⟨-, heq⟩ := Option.ite_none_right_eq_some.mp hb
    cases heq
    exact mem_bootDht_iff config.bootstrapNodes
  · obtain ⟨behaviour, hbehaviour, rfl⟩ := Option.map_eq_some_iff.mp hw
    obtain ⟨-, heq⟩ := Option.ite_none_right_eq_some.mp (hnewMdns behaviour hbehaviour)
    cases heq
    exact Mdns.agree_initial _ peerId

/-- A round in which nothing is in progress. -/
theorem republish_messagePart {b : Gossip.Behaviour} (h : b.inProgressMessages = [])
    (answers : Stream' Bool) :
    messagePart (Gossip.republish b now answers) = messagePart b := by
  unfold Gossip.republish Gossip.drainPublish
  rw [h]
  split <;> rfl

theorem listenEvent_swarm (n : NodeInner) (event : SwarmEvent) :
    (listenEvent n event).swarm.gossip = n.swarm.gossip ∧
      (listenEvent n event).swarm.rdvz = n.swarm.rdvz ∧
      (listenEvent n event).swarm.dht = n.swarm.dht := by
  unfold listenEvent
  split
  · split <;> exact ⟨rfl, rfl, rfl⟩
  · exact ⟨rfl, rfl, rfl⟩

theorem ready_step (h : Ready config s) {a : Act P} (hstep : listenStep s a = some s') :
    Ready config s' := by
  cases a with
  | loop a =>
      cases a with
      | event o event =>
          obtain ⟨-, heq⟩ := Option.ite_none_left_eq_some.mp hstep
          cases heq
          obtain ⟨hgossip, hrdvz, hdht⟩ := listenEvent_swarm s.inner event
          refine ⟨?_, ?_, ?_, ?_, ?_, h.mdns, h.agree⟩
          · rw [hgossip]
            exact h.gossip
          · rw [hrdvz]
            exact h.rdvz
          · rw [hrdvz]
            exact h.unasked
          · rw [hdht]
            exact h.dht
          · rw [hdht]
            exact h.booted
      | _ => cases hstep
  | fromSwarm event =>
      cases hstep
      refine ⟨h.gossip, Option.isSome_map.trans h.rdvz, fun b hb => ?_, h.dht, h.booted, h.mdns,
        h.agree⟩
      obtain ⟨b', hb', rfl⟩ := Option.map_eq_some_iff.mp hb
      exact (onSwarmEvent_askedPart b' event).trans (h.unasked b' hb')
  | pollGossip o now answers yields =>
      cases hstep
      refine ⟨?_, h.rdvz, h.unasked, h.dht, h.booted, h.mdns, h.agree⟩
      have hidle : s.inner.swarm.gossip.inProgressMessages = [] := congrArg Prod.snd h.gossip
      have hpoll := poll_frame messagePart (fun _ => rfl)
        (rfl : Gossip.poll s.inner.swarm.gossip now answers yields = _)
      exact (hpoll.trans (republish_messagePart hidle answers)).trans h.gossip
  | pollRdvz o ticks yields =>
      obtain ⟨b, hb, hstep⟩ := Option.bind_eq_some_iff.mp hstep
      obtain ⟨polled, hpolled, hstep⟩ := Option.bind_eq_some_iff.mp hstep
      cases hstep
      refine ⟨h.gossip, ?_, fun b' hb' => ?_, h.dht, h.booted, h.mdns, h.agree⟩
      · rw [← h.rdvz, hb]
        rfl
      · cases hb'
        exact (poll_askedPart hpolled).trans (h.unasked b hb)
  | pollMdns o a =>
      obtain ⟨w, hw, hstep⟩ := Option.bind_eq_some_iff.mp hstep
      obtain ⟨w', hw', hstep⟩ := Option.bind_eq_some_iff.mp hstep
      cases hstep
      refine ⟨h.gossip, h.rdvz, h.unasked, h.dht, h.booted, ?_, fun w₁ hw₁ => ?_⟩
      · rw [← h.mdns, hw]
        rfl
      · cases hw₁
        exact Mdns.agree_step (h.agree w hw) hw'
  | pollDht o now answer drainNow answers fuel reads yields =>
      obtain ⟨b, hb, hstep⟩ := Option.bind_eq_some_iff.mp hstep
      obtain ⟨polled, hpolled, hstep⟩ := Option.bind_eq_some_iff.mp hstep
      cases hstep
      refine ⟨h.gossip, h.rdvz, h.unasked, ?_, fun b' hb' => ?_, h.mdns, h.agree⟩
      · rw [← h.dht, hb]
        rfl
      · cases hb'
        obtain ⟨addresses, -, hhands⟩ := Dht.hands_poll hpolled
        rw [hhands.bootnodes]
        exact h.booted b hb

end Ready

/-! ## Once the event loop runs -/

/-- A state in which the behaviours are those of the configuration, with what the commands
handled have added. -/
structure Configured (lib : Libp2p) (config : InitConfig) (s : System) : Prop where
  rdvz : s.loop.inner.swarm.rdvz.isSome = config.enableRendezvous
  asked : ∀ b, s.loop.inner.swarm.rdvz = some b → ∀ pair,
    (pair ∈ b.registrations ↔ pair ∈ s.loop.handled.filterMap (registerOf lib)) ∧
      (pair ∈ b.discovery ↔ pair ∈ s.loop.handled.filterMap (discoverOf lib))
  dht : s.loop.inner.swarm.dht.isSome = config.enableDht
  bootnodes : ∀ b, s.loop.inner.swarm.dht = some b → ∀ pair, pair ∈ b.bootnodes.pairs ↔
    pair ∈ config.bootstrapNodes ∨ pair ∈ s.loop.handled.filterMap (bootNodeOf lib)
  published : config.enableRepublish = true →
    (publishes s.loop.sent : Multiset Gossip.Message) =
      s.accepted + s.loop.inner.swarm.gossip.inProgressMessages + publishes s.loop.commands
  mdns : s.mdns.isSome = config.enableMdns
  agree : ∀ w, s.mdns = some w → Mdns.Agree w

theorem isSome_of_rel {A B : Type} {r : A → B → Prop} {a : Option A} {b : Option B}
    (h : Option.Rel r a b) : b.isSome = a.isSome := by
  cases h <;> rfl

theorem step_mdns {P : Type} {lib : Libp2p} {s s' : System} {a : Act P}
    (hstep : step lib s a = some s') : s'.mdns = s.mdns ∨
      ∃ w w' poll, s.mdns = some w ∧ Mdns.step w poll = some w' ∧ s'.mdns = some w' := by
  have hdelivers : ∀ {s s' : System} {o event}, Delivers lib s o event s' → s'.mdns = s.mdns := by
    intro s s' o event hs'
    cases hs' <;> rfl
  cases transition hstep with
  | loop a loop helse hloop => exact .inl rfl
  | fromSwarm event => exact .inl rfl
  | pollGossip o now answers yields polled hpolled _ hs' => exact .inl ((hdelivers hs').trans rfl)
  | pollRdvz o ticks yields b hb polled hpolled _ hs' => exact .inl ((hdelivers hs').trans rfl)
  | pollMdns o a w w' hw hpolled _ hs' => exact .inr ⟨w, w', a, hw, hpolled, hdelivers hs'⟩
  | pollDht o now answer drainNow answers fuel reads yields b hb polled hpolled _ hs' =>
      exact .inl ((hdelivers hs').trans rfl)

section Run

variable {P : Type} {lib : Libp2p} {config : InitConfig} {ready : Starting}

theorem mdns_run (h : Ready config ready) {acts : List (Act P)} {s : System}
    (hrun : Machine.run (step lib) (initial ready.inner ready.mdns) acts = some s) :
    s.mdns.isSome = config.enableMdns ∧ ∀ w, s.mdns = some w → Mdns.Agree w := by
  refine Machine.run_invariant (fun s : System =>
    s.mdns.isSome = config.enableMdns ∧ ∀ w, s.mdns = some w → Mdns.Agree w) ?_
    ⟨h.mdns, h.agree⟩ hrun
  rintro s a s' ⟨hsome, hagree⟩ hstep
  rcases step_mdns hstep with hsame | ⟨w, w', poll, hw, hpoll, hw'⟩
  · rw [hsame]
    exact ⟨hsome, hagree⟩
  · rw [hw'] at *
    refine ⟨?_, fun w₁ hw₁ => ?_⟩
    · rw [← hsome, hw]
      rfl
    · cases hw₁
      exact Mdns.agree_step (hagree w hw) hpoll

theorem configured_of_ready (h : Ready config ready) {acts : List (Act P)} {s : System}
    (hrun : Machine.run (step lib) (initial ready.inner ready.mdns) acts = some s) :
    Configured lib config s := by
  have hstored : Stored lib ready.inner s.loop :=
    Machine.run_invariant (fun s => Stored lib ready.inner s.loop)
      (fun _ _ _ h hstep => stored_step h hstep) (stored_initial ready.inner) hrun
  obtain ⟨hmdns, hagree⟩ := mdns_run h hrun
  refine ⟨(isSome_of_rel hstored.rdvz).trans h.rdvz, fun b hb pair => ?_,
    (isSome_of_rel hstored.dht).trans h.dht, fun b hb pair => ?_, fun henable => ?_, hmdns,
    hagree⟩
  · have hrel := hstored.rdvz
    rw [hb] at hrel
    cases hstart : ready.inner.swarm.rdvz with
    | none =>
        rw [hstart] at hrel
        cases hrel
    | some b₀ =>
        rw [hstart] at hrel
        cases hrel with
        | some hab =>
            have hpart := h.unasked b₀ hstart
            have hregistrations : b₀.registrations = [] := congrArg Prod.fst hpart
            have hdiscovery : b₀.discovery = [] := congrArg Prod.snd hpart
            rw [hab.registrations, hab.discovery, hregistrations, hdiscovery]
            simp only [List.not_mem_nil, false_or, and_self]
  · have hrel := hstored.dht
    rw [hb] at hrel
    cases hstart : ready.inner.swarm.dht with
    | none =>
        rw [hstart] at hrel
        cases hrel
    | some b₀ =>
        rw [hstart] at hrel
        cases hrel with
        | some hab => rw [hab.bootnodes, h.booted b₀ hstart]
  · have hgossip : ready.inner.swarm.gossip.enableRepublish = true :=
      (congrArg Prod.fst h.gossip).trans henable
    have hidle : ready.inner.swarm.gossip.inProgressMessages = [] := congrArg Prod.snd h.gossip
    have hpublished : Published ready.inner s :=
      Machine.run_invariant (Published ready.inner) (fun _ _ _ h hstep => published_step h hstep)
        (published_initial ready.mdns hgossip) hrun
    have hconserved := hpublished.conserved
    rw [hidle, Multiset.coe_nil, add_zero] at hconserved
    rw [hpublished.fifo, publishes_append, ← Multiset.coe_add, hconserved]

end Run

/-- `build_swarm` panics exactly where it refuses a timer of the configuration; a probe interval
of zero it accepts, and an interface's task panics later.  Otherwise, whatever is polled while
`start_listen` waits and in whatever order the loop then takes commands, events and polls, the
rendezvous, DHT and mDNS behaviours are those of the configuration: a message, a boot node or a
request for a rendezvous point is neither lost nor made up. -/
theorem init_configures {P : Type} (lib : Libp2p) (config : InitConfig) (peerId : PeerId)
    (now : Instant) :
    ((buildSwarm config peerId now).isSome ↔ Buildable config) ∧
      ∀ {start ready : Starting} {waiting acts : List (Act P)} {s : System},
        buildSwarm config peerId now = some start →
        Machine.run listenStep start.listen waiting = some ready →
        Machine.run (step lib) (initial ready.inner ready.mdns) acts = some s →
          Configured lib config s := by
  refine ⟨buildSwarm_isSome_iff, fun {start ready waiting acts s} hbuild hlisten hrun => ?_⟩
  have hstart : Ready config start := ready_buildSwarm hbuild
  have hlistening : Ready config start.listen :=
    ⟨hstart.gossip, hstart.rdvz, hstart.unasked, hstart.dht, hstart.booted, hstart.mdns,
      hstart.agree⟩
  have hready : Ready config ready :=
    Machine.run_invariant (Ready config) (fun _ _ _ h hstep => ready_step h hstep) hlistening
      hlisten
  exact configured_of_ready hready hrun

def fullConfig : InitConfig where
  relayNodes := []
  rendezvousNodes := []
  rendezvousNamespaces := []
  enableRendezvous := true
  enableDht := true
  enableRelay := false
  bootstrapNodes := [(samplePeerId, sampleAddr)]
  rendezvousTtl := some 60
  mdnsServiceName := "chat"
  mdnsProbeInterval := .fromSecs 2
  mdnsQueryInterval := .fromSecs 3
  enableMdns := true
  enableRepublish := true

def waitingActs : List (Act Unit) :=
  [.loop (.event sampleOracle (.newListenAddr sampleAddr)),
    .pollGossip sampleOracle 0 (Stream'.const true) []]

theorem init_configures_sample :
    ∃ start ready s, buildSwarm fullConfig samplePeerId 0 = some start ∧
      Machine.run listenStep start.listen waitingActs = some ready ∧
      Machine.run (step sampleLibp2p) (initial ready.inner ready.mdns) publishActs = some s ∧
      ((buildSwarm fullConfig samplePeerId 0).isSome ↔ Buildable fullConfig) ∧
      Configured sampleLibp2p fullConfig s := by
  obtain ⟨hbuildable, hconfigured⟩ :=
    init_configures (P := Unit) sampleLibp2p fullConfig samplePeerId 0
  exact ⟨_, _, _, rfl, rfl, rfl, hbuildable, hconfigured rfl
    (show Machine.run listenStep _ waitingActs = some _ from rfl)
    (show Machine.run (step sampleLibp2p) _ publishActs = some _ from rfl)⟩

end P2pa.Node.Whole
