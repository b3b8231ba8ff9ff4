import P2pa.Dht.Bootnodes
import P2pa.Node.Whole.Publish

/-!
# What the client has asked for stays asked

The rendezvous behaviour keeps what it is to register and to discover, the DHT behaviour its
boot nodes.  Both are what the commands handled have asked for, whatever has come between
them.
-/

namespace P2pa.Node.Whole

open Utils

section Texts

variable (lib : Libp2p)

def pointOf (point ns : String) : Option (Multiaddr × Namespace) :=
  (lib.multiaddrFromStr point).bind fun point => (lib.namespaceNew ns).map (Prod.mk point)

def peerOf (peer address : String) : Option (PeerId × Multiaddr) :=
  (lib.peerIdFromStr peer).bind fun peer => (lib.multiaddrFromStr address).map (Prod.mk peer)

def registerOf : Command → Option (Multiaddr × Namespace)
  | .register point ns => pointOf lib point ns
  | _ => none

def discoverOf : Command → Option (Multiaddr × Namespace)
  | .discover point ns => pointOf lib point ns
  | _ => none

def bootNodeOf : Command → Option (PeerId × Multiaddr)
  | .addBootNode peer address => peerOf lib peer address
  | _ => none

def knownPeerOf : Command → Option (PeerId × Multiaddr)
  | .addKnownPeer peer address => peerOf lib peer address
  | _ => none

def dhtAfter (o : Oracle) (b : Dht.Behaviour) : Command → Dht.Behaviour
  | .beginBootstrap => Dht.beginBootstrap b
  | .addKnownPeer peer address =>
      (peerOf lib peer address).elim b fun pair => Dht.addAddress b pair.1 pair.2
  | .addBootNode peer address =>
      (peerOf lib peer address).elim b fun pair => Dht.addBootnodes b pair.1 pair.2
  | .putRecord key value => Dht.putRecord b o.now o.putRecord { backoff := .default, key, value }
  | .getRecord key retry => Dht.getRecord b o.queryId key .default retry
  | _ => b

/-- The rendezvous behaviour is to register and to discover what it was to at the start, and
what the commands ask for. -/
structure RdvzStored (cmds : List Command) (b₀ b : Rendezvous.Behaviour) : Prop where
  registrations : ∀ pair, pair ∈ b.registrations ↔
    pair ∈ b₀.registrations ∨ pair ∈ cmds.filterMap (registerOf lib)
  discovery : ∀ pair, pair ∈ b.discovery ↔
    pair ∈ b₀.discovery ∨ pair ∈ cmds.filterMap (discoverOf lib)

/-- The boot nodes are those at the start and those of the commands, and kad knows the known
peers and otherwise boot nodes only. -/
structure DhtStored (cmds : List Command) (b₀ b : Dht.Behaviour) : Prop where
  bootnodes : ∀ pair, pair ∈ b.bootnodes.pairs ↔
    pair ∈ b₀.bootnodes.pairs ∨ pair ∈ cmds.filterMap (bootNodeOf lib)
  known : ∀ pair, pair ∈ Dht.given b₀.kadDht ∨ pair ∈ cmds.filterMap (knownPeerOf lib) →
    pair ∈ Dht.given b.kadDht
  given : ∀ pair, pair ∈ Dht.given b.kadDht → pair ∈ Dht.given b₀.kadDht ∨
    pair ∈ cmds.filterMap (knownPeerOf lib) ∨ pair ∈ b.bootnodes.pairs

structure Stored (inner : NodeInner) (w : World) : Prop where
  rdvz : Option.Rel (RdvzStored lib w.handled) inner.swarm.rdvz w.inner.swarm.rdvz
  dht : Option.Rel (DhtStored lib w.handled) inner.swarm.dht w.inner.swarm.dht

end Texts

/-! ## What a command stores -/

section Commands

variable {lib : Libp2p}

theorem filterMap_snoc {α : Type} (f : Command → Option α) (cmds : List Command)
    (cmd : Command) :
    (cmds ++ [cmd]).filterMap f = cmds.filterMap f ++ (f cmd).toList := by
  rw [List.filterMap_append]
  cases h : f cmd with
  | none => rw [List.filterMap_cons_none h, List.filterMap_nil, Option.toList_none]
  | some x => rw [List.filterMap_cons_some h, List.filterMap_nil, Option.toList_some]

theorem mem_snoc_iff {f : Command → Option (Multiaddr × Namespace)}
    {cmds : List Command} {start before after : List (Multiaddr × Namespace)}
    (h : ∀ pair, pair ∈ before ↔ pair ∈ start ∨ pair ∈ cmds.filterMap f) {cmd : Command}
    (hafter : after = (f cmd).elim before before.insert) (pair : Multiaddr × Namespace) :
    pair ∈ after ↔ pair ∈ start ∨ pair ∈ (cmds ++ [cmd]).filterMap f := by
  rw [filterMap_snoc, List.mem_append, ← or_assoc, ← h, hafter]
  cases f cmd with
  | none => rw [Option.toList_none, or_iff_left List.not_mem_nil, Option.elim_none]
  | some added =>
      rw [Option.toList_some, List.mem_singleton, Option.elim_some, List.mem_insert_iff, or_comm]

theorem rdvzAfter_stored (b : Rendezvous.Behaviour) (cmd : Command) :
    (rdvzAfter lib b cmd).registrations =
        (registerOf lib cmd).elim b.registrations b.registrations.insert ∧
      (rdvzAfter lib b cmd).discovery =
        (discoverOf lib cmd).elim b.discovery b.discovery.insert := by
  cases cmd with
  | register point ns =>
      simp only [rdvzAfter, registerOf, discoverOf, pointOf, parseAddr]
      cases lib.multiaddrFromStr point with
      | none => exact ⟨rfl, rfl⟩
      | some point =>
          dsimp only [Option.elim_some, Option.bind_some]
          change (Rendezvous.settle b (Rendezvous.register lib b point ns)).registrations = _ ∧
            (Rendezvous.settle b (Rendezvous.register lib b point ns)).discovery = _
          unfold Rendezvous.register
          cases lib.namespaceNew ns <;> exact ⟨rfl, rfl⟩
  | discover point ns =>
      simp only [rdvzAfter, registerOf, discoverOf, pointOf, parseAddr]
      cases lib.multiaddrFromStr point with
      | none => exact ⟨rfl, rfl⟩
      | some point =>
          dsimp only [Option.elim_some, Option.bind_some]
          change (Rendezvous.settle b (Rendezvous.discover lib b point ns)).registrations = _ ∧
            (Rendezvous.settle b (Rendezvous.discover lib b point ns)).discovery = _
          unfold Rendezvous.discover
          cases lib.namespaceNew ns <;> exact ⟨rfl, rfl⟩
  | unregister ns =>
      simp only [rdvzAfter]
      unfold Rendezvous.unregister
      cases lib.namespaceNew ns <;> exact ⟨rfl, rfl⟩
  | _ => exact ⟨rfl, rfl⟩

theorem RdvzStored.command {cmds : List Command} {b₀ b : Rendezvous.Behaviour}
    (h : RdvzStored lib cmds b₀ b) (cmd : Command) :
    RdvzStored lib (cmds ++ [cmd]) b₀ (rdvzAfter lib b cmd) where
  registrations := mem_snoc_iff h.registrations (rdvzAfter_stored b cmd).1
  discovery := mem_snoc_iff h.discovery (rdvzAfter_stored b cmd).2

theorem RdvzStored.of_eq {cmds : List Command} {b₀ b b' : Rendezvous.Behaviour}
    (h : RdvzStored lib cmds b₀ b) (hregistrations : b'.registrations = b.registrations)
    (hdiscovery : b'.discovery = b.discovery) : RdvzStored lib cmds b₀ b' := by
  constructor
  · rw [hregistrations]
    exact h.registrations
  · rw [hdiscovery]
    exact h.discovery

theorem given_append (calls more : List Dht.KadCall) :
    Dht.given (calls ++ more) = Dht.given calls ++ Dht.given more := List.filterMap_append

theorem DhtStored.hands {cmds : List Command} {b₀ b b' : Dht.Behaviour}
    (h : DhtStored lib cmds b₀ b) {addresses : List (PeerId × Multiaddr)}
    (hhands : Dht.Hands b b' addresses) (hsub : addresses ⊆ b.bootnodes.pairs) :
    DhtStored lib cmds b₀ b' := by
  obtain ⟨calls, hcalls, rfl⟩ := hhands.calls
  constructor
  · rw [hhands.bootnodes]
    exact h.bootnodes
  · intro pair hpair
    rw [hcalls, given_append]
    exact List.mem_append_left _ (h.known pair hpair)
  · intro pair hpair
    rw [hhands.bootnodes]
    rw [hcalls, given_append] at hpair
    rcases List.mem_append.mp hpair with hbefore | hnew
    · exact h.given pair hbefore
    · exact .inr (.inr (hsub hnew))

theorem DhtStored.other {cmds : List Command} {b₀ b : Dht.Behaviour}
    (h : DhtStored lib cmds b₀ b) {cmd : Command} (hboot : bootNodeOf lib cmd = none)
    (hknown : knownPeerOf lib cmd = none) : DhtStored lib (cmds ++ [cmd]) b₀ b := by
  have hboots : (cmds ++ [cmd]).filterMap (bootNodeOf lib) = cmds.filterMap (bootNodeOf lib) := by
    rw [filterMap_snoc, hboot, Option.toList_none, List.append_nil]
  have hknowns : (cmds ++ [cmd]).filterMap (knownPeerOf lib) =
      cmds.filterMap (knownPeerOf lib) := by
    rw [filterMap_snoc, hknown, Option.toList_none, List.append_nil]
  constructor
  · rw [hboots]
    exact h.bootnodes
  · rw [hknowns]
    exact h.known
  · rw [hknowns]
    exact h.given

theorem DhtStored.command {cmds : List Command} {b₀ b : Dht.Behaviour}
    (h : DhtStored lib cmds b₀ b) (o : Oracle) (cmd : Command) :
    DhtStored lib (cmds ++ [cmd]) b₀ (dhtAfter lib o b cmd) := by
  cases cmd with
  | addKnownPeer peer address =>
      cases hpeer : peerOf lib peer address with
      | none =>
          simp only [dhtAfter, hpeer, Option.elim_none]
          exact h.other rfl hpeer
      | some pair =>
          simp only [dhtAfter, hpeer, Option.elim_some]
          have hsnoc := filterMap_snoc (knownPeerOf lib) cmds (.addKnownPeer peer address)
          rw [show knownPeerOf lib (.addKnownPeer peer address) = some pair from hpeer,
            Option.toList_some] at hsnoc
          constructor
          · rw [filterMap_snoc]
            change ∀ pair, pair ∈ b.bootnodes.pairs ↔ _ ∨ pair ∈ _ ++ []
            rw [List.append_nil]
            exact h.bootnodes
          · intro known hknown
            change known ∈ Dht.given (b.kadDht ++ [.addAddress pair.1 pair.2])
            rw [given_append]
            rw [hsnoc, List.mem_append, ← or_assoc] at hknown
            rcases hknown with hknown | hlast
            · exact List.mem_append_left _ (h.known known hknown)
            · exact List.mem_append_right _ hlast
          · intro known hknown
            change known ∈ Dht.given (b.kadDht ++ [.addAddress pair.1 pair.2]) at hknown
            rw [given_append] at hknown
            rw [hsnoc, List.mem_append]
            rcases List.mem_append.mp hknown with hbefore | hlast
            · exact (h.given known hbefore).imp_right (Or.imp_left .inl)
            · exact .inr (.inl (.inr hlast))
  | addBootNode peer address =>
      cases hpeer : peerOf lib peer address with
      | none =>
          simp only [dhtAfter, hpeer, Option.elim_none]
          exact h.other hpeer rfl
      | some pair =>
          simp only [dhtAfter, hpeer, Option.elim_some]
          have hsnoc := filterMap_snoc (bootNodeOf lib) cmds (.addBootNode peer address)
          rw [show bootNodeOf lib (.addBootNode peer address) = some pair from hpeer,
            Option.toList_some] at hsnoc
          have hadded : ∀ pair', pair' ∈ (Dht.addBootnodes b pair.1 pair.2).bootnodes.pairs ↔
              pair' = pair ∨ pair' ∈ b.bootnodes.pairs := by
            intro pair'
            rw [Dht.addBootnodes_bootnodes]
            exact AList.mem_pairs_addPair_iff
          constructor
          · intro pair'
            rw [hadded, hsnoc, List.mem_append, ← or_assoc, ← h.bootnodes, List.mem_singleton,
              or_comm]
          · rw [filterMap_snoc, Dht.addBootnodes_kadDht]
            change ∀ pair', _ ∨ pair' ∈ _ ++ [] → _
            rw [List.append_nil]
            exact h.known
          · rw [filterMap_snoc, Dht.addBootnodes_kadDht]
            change ∀ pair', _ → _ ∨ pair' ∈ _ ++ [] ∨ _
            rw [List.append_nil]
            intro pair' hpair'
            rw [hadded]
            exact (h.given pair' hpair').imp_right (Or.imp_right .inr)
  | putRecord key value =>
      exact (h.hands (Dht.hands_putRecord _ _ _ _) (List.nil_subset _)).other rfl rfl
  | getRecord key retry =>
      exact (h.hands (Dht.hands_getRecord _ _ _ _ _) (List.nil_subset _)).other rfl rfl
  | beginBootstrap =>
      have hflag : DhtStored lib cmds b₀ (Dht.beginBootstrap b) :=
        h.hands (.nothing rfl rfl) (List.nil_subset _)
      exact hflag.other rfl rfl
  | _ => exact h.other rfl rfl

/-! ## The DHT behaviour in a step of the loop -/

theorem withDht_dht (n : NodeInner) (f : Dht.Behaviour → Except Error Dht.Behaviour) :
    (Node.withDht n f).1.swarm.dht = n.swarm.dht.map fun b => (f b).toOption.getD b :=
  (withDht_ifEnabled n f).stored (·.swarm.dht) rfl fun _ => rfl

theorem withRdvz_dht (n : NodeInner)
    (f : Rendezvous.Behaviour → Except Error Rendezvous.Behaviour) :
    (Node.withRdvz n f).1.swarm.dht = n.swarm.dht :=
  (withRdvz_ifEnabled n f).keeps (·.swarm.dht) fun _ => rfl

theorem handleCommand_dht (o : Oracle) (n : NodeInner) (cmd : Command) :
    (handleCommand lib o n cmd).1.swarm.dht = n.swarm.dht.map (dhtAfter lib o · cmd) := by
  have hsame : n.swarm.dht = n.swarm.dht.map fun b => b := Option.map_id'.symm
  cases cmd with
  | dial addr =>
      simp only [handleCommand, parseAddr, NodeInner.dial]
      cases lib.multiaddrFromStr addr <;> exact hsame
  | listenViaRelay address =>
      simp only [handleCommand, parseAddr, NodeInner.dial]
      cases lib.multiaddrFromStr address <;> exact hsame
  | beginBootstrap => exact withDht_dht n _
  | addKnownPeer peer address =>
      simp only [handleCommand, withDht_dht, dhtAfter, peerOf, parsePeer, parseAddr]
      cases lib.peerIdFromStr peer with
      | none => rfl
      | some peer => cases lib.multiaddrFromStr address <;> rfl
  | addBootNode peer address =>
      simp only [handleCommand, withDht_dht, dhtAfter, peerOf, parsePeer, parseAddr]
      cases lib.peerIdFromStr peer with
      | none => rfl
      | some peer => cases lib.multiaddrFromStr address <;> rfl
  | putRecord key value => exact withDht_dht n _
  | getRecord key retry => exact withDht_dht n _
  | register point ns => exact (withRdvz_dht n _).trans hsame
  | unregister ns => exact (withRdvz_dht n _).trans hsame
  | discover point ns => exact (withRdvz_dht n _).trans hsame
  | _ => exact hsame

theorem dialDiscovered_dht (o : Oracle) (n : NodeInner) (peers : List (PeerId × Multiaddr)) :
    (dialDiscovered lib o n peers).1.swarm.dht = n.swarm.dht := by
  induction peers generalizing n with
  | nil => rfl
  | cons peer rest ih =>
      rw [dialDiscovered]
      dsimp only
      split
      · exact ih _
      · rfl

theorem handleSwarmEvent_dht (o : Oracle) (clientAlive : Bool) (n : NodeInner)
    (event : SwarmEvent) :
    (handleSwarmEvent lib o clientAlive n event).1.swarm.dht = n.swarm.dht := by
  cases event with
  | behaviour event =>
      cases event with
      | gossip event => cases clientAlive <;> rfl
      | mdns event => cases event <;> rfl
      | dcutr remotePeerId ok => cases ok <;> rfl
      | rdvz event =>
          cases event with
          | discovered found => exact dialDiscovered_dht o n found
          | registered ns => rfl
      | _ => rfl
  | newListenAddr address =>
      simp only [handleSwarmEvent]
      split <;> rfl
  | connectionEstablished endpoint => cases endpoint <;> rfl
  | connectionClosed endpoint =>
      simp only [handleSwarmEvent]
      split <;> rfl
  | other => rfl

theorem shake_dht (o : Oracle) (w : World) (hs : Handshake) (event : SwarmEvent) :
    (w.shake o hs event).inner.swarm.dht = w.inner.swarm.dht := by
  have hhandshake : (handshakeEvent w.inner hs event).1.swarm.dht = w.inner.swarm.dht := by
    unfold handshakeEvent
    split <;> rfl
  unfold World.shake
  dsimp only
  split
  · unfold listenViaRelay
    dsimp only
    split <;> exact hhandshake
  · exact hhandshake

theorem step_dht {w w' : World} {a : Node.Act} (hstep : Node.step lib w a = some w') :
    (∃ o cmd rest, a = .command o ∧ w.commands = cmd :: rest ∧
        w'.handled = w.handled ++ [cmd] ∧
        w'.inner.swarm.dht = w.inner.swarm.dht.map (dhtAfter lib o · cmd)) ∨
      (∀ o, a ≠ .command o) ∧ w'.inner.swarm.dht = w.inner.swarm.dht := by
  cases step_transition hstep with
  | send cmd halive =>
      refine .inr ⟨nofun, ?_⟩
      unfold World.send
      split <;> rfl
  | command o cmd rest hmode hcommands =>
      exact .inl ⟨o, cmd, rest, rfl, hcommands, rfl, handleCommand_dht o w.inner cmd⟩
  | receive o event hmode =>
      exact .inr ⟨nofun, handleSwarmEvent_dht o w.nodeAlive w.inner event⟩
  | shake o event hs hmode => exact .inr ⟨nofun, shake_dht o w hs event⟩
  | _ => exact .inr ⟨nofun, rfl⟩

end Commands

/-! ## Runs -/

section Runs

variable {P : Type} {lib : Libp2p} {inner : NodeInner} {s s' : System}

theorem stored_initial (inner : NodeInner) : Stored lib inner (Node.initial inner) := by
  constructor
  · change Option.Rel _ inner.swarm.rdvz inner.swarm.rdvz
    cases inner.swarm.rdvz with
    | none => exact .none
    | some b =>
        exact .some ⟨fun pair => (or_iff_left List.not_mem_nil).symm,
          fun pair => (or_iff_left List.not_mem_nil).symm⟩
  · change Option.Rel _ inner.swarm.dht inner.swarm.dht
    cases inner.swarm.dht with
    | none => exact .none
    | some b =>
        refine .some ⟨fun pair => (or_iff_left List.not_mem_nil).symm, ?_, ?_⟩
        · intro pair hpair
          exact (or_iff_left List.not_mem_nil).mp hpair
        · exact fun pair hpair => .inl hpair

theorem rel_map {A B : Type} {r r' : A → B → Prop} {a : Option A} {b : Option B} {f : B → B}
    (h : Option.Rel r a b) (hstep : ∀ x y, r x y → r' x (f y)) : Option.Rel r' a (b.map f) := by
  cases h with
  | none => exact .none
  | some hab => exact .some (hstep _ _ hab)

theorem rel_some {A B : Type} {r : A → B → Prop} {a : Option A} {b b' : B}
    (h : Option.Rel r a (some b)) (hstep : ∀ x, r x b → r x b') : Option.Rel r a (some b') := by
  cases h with
  | some hab => exact .some (hstep _ hab)

theorem stored_loop {w w' : World} (h : Stored lib inner w) {a : Node.Act}
    (hstep : Node.step lib w a = some w') : Stored lib inner w' := by
  have hcalls := step_calls hstep
  generalize hgossip : w'.inner.swarm.gossip = gossip,
    hrdvz : w'.inner.swarm.rdvz = rdvz at hcalls
  rcases step_dht hstep with ⟨o, cmd, rest, rfl, hcommands, hhandled, hdht⟩ | ⟨hother, hdht⟩
  · cases hcalls with
    | command o cmd' rest' hcommands' =>
        rw [hcommands] at hcommands'
        cases hcommands'
        constructor
        · rw [hhandled, hrdvz]
          exact rel_map h.rdvz fun b₀ b hb => hb.command cmd
        · rw [hhandled, hdht]
          exact rel_map h.dht fun b₀ b hb => hb.command o cmd
    | none a hcommand => exact absurd rfl (hcommand o)
  · have hhandled := step_handled hstep hother
    have hrdvz' : rdvz = w.inner.swarm.rdvz := by
      cases hcalls with
      | command o cmd rest hcommands => exact absurd rfl (hother o)
      | received o event => rfl
      | none a hcommand => rfl
    constructor
    · rw [hhandled, hrdvz, hrdvz']
      exact h.rdvz
    · rw [hhandled, hdht]
      exact h.dht

def askedPart (b : Rendezvous.Behaviour) :
    List (Multiaddr × Namespace) × List (Multiaddr × Namespace) :=
  (b.registrations, b.discovery)

theorem onSwarmEvent_askedPart (b : Rendezvous.Behaviour) (event : Rendezvous.FromSwarm) :
    askedPart (Rendezvous.onSwarmEvent b event) = askedPart b := by
  unfold Rendezvous.onSwarmEvent
  dsimp only
  split <;> rfl

theorem poll_askedPart {b : Rendezvous.Behaviour} {ticks : List Instant}
    {yields : List (ToSwarm Rendezvous.ClientEvent P)}
    {polled : Polled Rendezvous.Behaviour Rendezvous.ClientEvent Rendezvous.Event P}
    (h : Rendezvous.poll b ticks yields = some polled) : askedPart polled.state = askedPart b := by
  obtain ⟨b₁, hticks, hpoll⟩ := Option.map_eq_some_iff.mp h
  have hloop : askedPart polled.state = askedPart b₁ := by
    apply keeps_forward askedPart _ _ hpoll
    · intro b event
      cases event <;> rfl
    · intro b
      unfold Rendezvous.emit
      split <;> rfl
  apply hloop.trans (Rendezvous.pollTimer_keeps askedPart _ hticks)
  intro b b' now htick
  unfold Rendezvous.tick at htick
  obtain ⟨timeout, -, rfl⟩ := Option.map_eq_some_iff.mp htick
  rfl

theorem RdvzStored.of_askedPart {cmds : List Command} {b₀ b b' : Rendezvous.Behaviour}
    (h : RdvzStored lib cmds b₀ b) (hpart : askedPart b' = askedPart b) :
    RdvzStored lib cmds b₀ b' :=
  h.of_eq (congrArg Prod.fst hpart) (congrArg Prod.snd hpart)

theorem stored_step (h : Stored lib inner s.loop) {a : Act P}
    (hstep : step lib s a = some s') : Stored lib inner s'.loop := by
  refine loop_keeps (fun h hstep => stored_loop h hstep) ?_ ?_ ?_ ?_ h hstep
  · intro w event h
    exact ⟨rel_map h.rdvz fun b₀ b hb => hb.of_askedPart (onSwarmEvent_askedPart b event), h.dht⟩
  · exact fun h _ => ⟨h.rdvz, h.dht⟩
  · intro w b ticks yields polled h hb hpolled
    exact ⟨rel_some (hb ▸ h.rdvz) fun b₀ hstored => hstored.of_askedPart (poll_askedPart hpolled),
      h.dht⟩
  · intro w b now answer drainNow answers fuel reads yields polled h hb hpolled
    obtain ⟨addresses, hsub, hhands⟩ := Dht.hands_poll hpolled
    exact ⟨h.rdvz, rel_some (hb ▸ h.dht) fun b₀ hstored => hstored.hands hhands hsub⟩

end Runs

/-- In every run the rendezvous behaviour is to register and to discover exactly what the
commands handled have asked for, and the boot nodes are exactly theirs, whatever the order in
which commands, events and polls come; and kad has been handed known peers and boot nodes
only. -/
theorem requests_stored {P : Type} {lib : Libp2p} {inner : NodeInner} {mdns : Option Mdns.World}
    {acts : List (Act P)} {s : System}
    (hrun : Machine.run (step lib) (initial inner mdns) acts = some s) :
    Stored lib inner s.loop :=
  Machine.run_invariant (fun s => Stored lib inner s.loop)
    (fun _ _ _ h hstep => stored_step h hstep) (stored_initial inner) hrun

def storingInner : NodeInner where
  swarm := .build (Gossip.new samplePeerId true)
    (some (Rendezvous.empty samplePeerId none (Mdns.Timer.at 0))) (some (Dht.new 1))
  dialingRelays := []

def storingActs : List (Act Unit) :=
  [.loop (.send (.register
      "/ip4/1.2.3.4/tcp/5000/p2p/QmYyQSo1c1Ym7orWxLYvCrM2EmxFTANf8wXmmE7DWjhx5N" "chat")),
    .loop (.send (.addBootNode "QmYyQSo1c1Ym7orWxLYvCrM2EmxFTANf8wXmmE7DWjhx5N"
      "/ip4/1.2.3.4/tcp/5000/p2p/QmYyQSo1c1Ym7orWxLYvCrM2EmxFTANf8wXmmE7DWjhx5N")),
    .loop (.command sampleOracle),
    .fromSwarm (.connectionEstablished samplePeerId (.dialer sampleAddr)),
    .loop (.command sampleOracle)]

theorem requests_stored_sample :
    ∃ s, Machine.run (step sampleLibp2p) (initial storingInner none) storingActs = some s ∧
      s.loop.handled.length = 2 ∧ Stored sampleLibp2p storingInner s.loop :=
  ⟨_, rfl, rfl, requests_stored (show Machine.run (step sampleLibp2p)
    (initial storingInner none) storingActs = some _ from rfl)⟩

end P2pa.Node.Whole
