import P2pa.Dht.Poll
import P2pa.Gossip.Poll
import P2pa.Mdns.Discovery
import P2pa.Node.Atomicity
import P2pa.Rendezvous.Poll

/-!
# The event loop and the behaviours it polls

The swarm polls the behaviours of `NodeBehaviour` whenever the event loop asks it for an
event, and hands the event of a behaviour to the loop at once.  The other events of the swarm
come from outside.  The lists record what the wrapped behaviours have yielded and accepted.
-/

namespace P2pa.Node.Whole

open Utils

structure System where
  loop : World
  /-- The loop makes no call on the mDNS behaviour. -/
  mdns : Option Mdns.World
  /-- The events gossipsub has yielded. -/
  gossipsub : List Gossip.GossipsubEvent
  /-- The messages gossipsub has accepted. -/
  accepted : List Gossip.Message
  /-- The events the rendezvous client has yielded. -/
  client : List Rendezvous.ClientEvent

/-- The node once `start_listen` has returned. -/
def initial (inner : NodeInner) (mdns : Option Mdns.World) : System where
  loop := Node.initial inner
  mdns
  gossipsub := []
  accepted := []
  client := []

/-- `P` is the type of what a wrapper only passes on. -/
inductive Act (P : Type)
  | loop (a : Node.Act)
  | fromSwarm (event : Rendezvous.FromSwarm)
  | pollGossip (o : Oracle) (now : Instant) (answers : Stream' Bool)
      (yields : List (ToSwarm Gossip.GossipsubEvent P))
  | pollRdvz (o : Oracle) (ticks : List Instant)
      (yields : List (ToSwarm Rendezvous.ClientEvent P))
  | pollMdns (o : Oracle) (a : Mdns.Poll)
  | pollDht (o : Oracle) (now : Instant) (answer : Dht.BootstrapAnswer)
      (drainNow : Instant) (answers : Nat → Dht.Answer) (fuel : Nat)
      (reads : Stream' (Instant × Dht.QueryId)) (yields : List (ToSwarm Dht.KadEvent P))

/-- The event is one of a behaviour that is polled. -/
def ofBehaviour : SwarmEvent → Bool
  | .behaviour (.gossip _) | .behaviour (.mdns _) => true
  | .behaviour (.rdvz _) | .behaviour (.dht _) => true
  | _ => false

def fromElsewhere : Node.Act → Bool
  | .event _ event => !ofBehaviour event
  | _ => true

def withGossip (w : World) (gossip : Gossip.Behaviour) : World :=
  { w with inner := { w.inner with swarm := { w.inner.swarm with gossip } } }

def withRdvz (w : World) (rdvz : Option Rendezvous.Behaviour) : World :=
  { w with inner := { w.inner with swarm := { w.inner.swarm with rdvz } } }

def withDht (w : World) (dht : Option Dht.Behaviour) : World :=
  { w with inner := { w.inner with swarm := { w.inner.swarm with dht } } }

/-- The message of a `publish` that gossipsub accepts. -/
def published (o : Oracle) : Command → List Gossip.Message
  | .publish topic contents => if o.publish then [(topic, contents)] else []
  | _ => []

def acceptedBy (w : World) : Node.Act → List Gossip.Message
  | .command o => (w.commands.head?.map (published o)).getD []
  | _ => []

def republished (b : Gossip.Behaviour) (now : Instant) (answers : Stream' Bool) :
    List Gossip.Message :=
  if b.enableRepublish && b.backoff.isExpired now then
    Gossip.taken (Gossip.offers b (.drainPublish answers)) answers
  else []

def eventsTaken {S I E P : Type} (yields : List (ToSwarm I P)) (polled : Polled S I E P) :
    List I :=
  (yields.take (yields.length - polled.rest.length)).filterMap ToSwarm.event

def returnedEvent {S I E P : Type} (polled : Polled S I E P) : Option E :=
  polled.returned.bind ToSwarm.event

section Step

variable {P : Type} (lib : Libp2p)

def System.deliver (s : System) (o : Oracle) : Option BehaviourEvent → Option System
  | none => some s
  | some event =>
      (Node.step lib s.loop (.event o (.behaviour event))).map fun loop => { s with loop }

/-- A swarm whose loop has ended is not polled; a behaviour that is not enabled neither. -/
def step (s : System) : Act P → Option System
  | .loop a =>
      if fromElsewhere a then
        (Node.step lib s.loop a).map fun loop =>
          { s with loop, accepted := s.accepted ++ acceptedBy s.loop a }
      else none
  | .fromSwarm event =>
      if s.loop.mode.isStopped then none
      else
        some { s with
          loop := withRdvz s.loop
            (s.loop.inner.swarm.rdvz.map (Rendezvous.onSwarmEvent · event)) }
  | .pollGossip o now answers yields =>
      if s.loop.mode.isStopped then none
      else
        let b := s.loop.inner.swarm.gossip
        let polled := Gossip.poll b now answers yields
        { s with
          loop := withGossip s.loop polled.state
          gossipsub := s.gossipsub ++ eventsTaken yields polled
          accepted := s.accepted ++ republished b now answers : System }.deliver lib o
            ((returnedEvent polled).map .gossip)
  | .pollRdvz o ticks yields =>
      if s.loop.mode.isStopped then none
      else do
        let b ← s.loop.inner.swarm.rdvz
        let polled ← Rendezvous.poll b ticks yields
        { s with
          loop := withRdvz s.loop (some polled.state)
          client := s.client ++ eventsTaken yields polled : System }.deliver lib o
            ((returnedEvent polled).map .rdvz)
  | .pollMdns o a =>
      if s.loop.mode.isStopped then none
      else do
        let w ← s.mdns
        let polled ← Mdns.step w a
        { s with mdns := some polled : System }.deliver lib o
          ((Mdns.poll w.behaviour a.ifEvents a.received a.now).2.map .mdns)
  | .pollDht o now answer drainNow answers fuel reads yields =>
      if s.loop.mode.isStopped then none
      else do
        let b ← s.loop.inner.swarm.dht
        let polled ← Dht.poll b now answer drainNow answers fuel reads yields
        { s with loop := withDht s.loop (some polled.state) : System }.deliver lib o
          ((returnedEvent polled).map .dht)

end Step

/-! ## What a poll takes and returns -/

theorem taken_of_append {S I E P : Type} {yields taken : List (ToSwarm I P)}
    {polled : Polled S I E P} (h : yields = taken ++ polled.rest) :
    eventsTaken yields polled = taken.filterMap ToSwarm.event := by
  unfold eventsTaken
  rw [h, List.length_append, Nat.add_sub_cancel, List.take_left]

theorem toList_returnedEvent {S I E P : Type} (polled : Polled S I E P) :
    (returnedEvent polled).toList = polled.returned.toList.filterMap ToSwarm.event := by
  unfold returnedEvent
  cases polled.returned with
  | none => rfl
  | some action =>
      rw [Option.bind_some, Option.toList_some]
      cases action <;> rfl

/-! ## What the loop does to the behaviours -/

section Calls

variable (lib : Libp2p) (o : Oracle) (n : NodeInner)

def gossipAfter (b : Gossip.Behaviour) : Command → Gossip.Behaviour
  | .publish topic contents => Gossip.publish b o.publish topic contents
  | .subscribe topic => Gossip.subscribe b topic
  | .unsubscribe topic => Gossip.unsubscribe b topic
  | _ => b

/-- A command that fails leaves the behaviour as it is. -/
def rdvzAfter (b : Rendezvous.Behaviour) : Command → Rendezvous.Behaviour
  | .register point ns =>
      Rendezvous.settle b (parseAddr lib point >>= fun point => Rendezvous.register lib b point ns)
  | .unregister ns => Rendezvous.settle b (Rendezvous.unregister lib b ns)
  | .discover point ns =>
      Rendezvous.settle b (parseAddr lib point >>= fun point => Rendezvous.discover lib b point ns)
  | _ => b

def explicitPeers : SwarmEvent → List PeerId
  | .behaviour (.mdns (.discovered pairs)) => pairs.map Prod.fst
  | .behaviour (.dcutr remotePeerId true) => [remotePeerId]
  | _ => []

theorem withDht_frame (f : Dht.Behaviour → Except Error Dht.Behaviour) :
    (Node.withDht n f).1.swarm.gossip = n.swarm.gossip ∧
      (Node.withDht n f).1.swarm.rdvz = n.swarm.rdvz :=
  ⟨(withDht_ifEnabled n f).keeps (·.swarm.gossip) fun _ => rfl,
    (withDht_ifEnabled n f).keeps (·.swarm.rdvz) fun _ => rfl⟩

theorem withRdvz_frame (f : Rendezvous.Behaviour → Except Error Rendezvous.Behaviour) :
    (Node.withRdvz n f).1.swarm.gossip = n.swarm.gossip ∧
      (Node.withRdvz n f).1.swarm.rdvz =
        n.swarm.rdvz.map fun b => Rendezvous.settle b (f b) := by
  simp only [Rendezvous.settle_eq]
  exact ⟨(withRdvz_ifEnabled n f).keeps (·.swarm.gossip) fun _ => rfl,
    (withRdvz_ifEnabled n f).stored (·.swarm.rdvz) rfl fun _ => rfl⟩

theorem handleCommand_behaviours (cmd : Command) :
    (handleCommand lib o n cmd).1.swarm.gossip = gossipAfter o n.swarm.gossip cmd ∧
      (handleCommand lib o n cmd).1.swarm.rdvz = n.swarm.rdvz.map (rdvzAfter lib · cmd) := by
  have hsame : n.swarm.rdvz = n.swarm.rdvz.map fun b => b := Option.map_id'.symm
  cases cmd with
  | dial addr =>
      simp only [handleCommand, parseAddr, NodeInner.dial]
      cases lib.multiaddrFromStr addr <;> exact ⟨rfl, hsame⟩
  | listenViaRelay address =>
      simp only [handleCommand, parseAddr, NodeInner.dial]
      cases lib.multiaddrFromStr address <;> exact ⟨rfl, hsame⟩
  | beginBootstrap => exact (withDht_frame n _).imp_right fun h => h.trans hsame
  | addKnownPeer peer address => exact (withDht_frame n _).imp_right fun h => h.trans hsame
  | addBootNode peer address => exact (withDht_frame n _).imp_right fun h => h.trans hsame
  | putRecord key value => exact (withDht_frame n _).imp_right fun h => h.trans hsame
  | getRecord key retry => exact (withDht_frame n _).imp_right fun h => h.trans hsame
  | register point ns => exact withRdvz_frame n _
  | unregister ns => exact withRdvz_frame n _
  | discover point ns => exact withRdvz_frame n _
  | _ => exact ⟨rfl, hsame⟩

theorem addExplicitPeers_nil (b : Gossip.Behaviour) : Gossip.addExplicitPeers b [] = b := by
  unfold Gossip.addExplicitPeers
  rw [List.map_nil, List.append_nil]

theorem dialDiscovered_behaviours (peers : List (PeerId × Multiaddr)) :
    (dialDiscovered lib o n peers).1.swarm.gossip = n.swarm.gossip ∧
      (dialDiscovered lib o n peers).1.swarm.rdvz = n.swarm.rdvz := by
  induction peers generalizing n with
  | nil => exact ⟨rfl, rfl⟩
  | cons peer rest ih =>
      rw [dialDiscovered]
      dsimp only
      split
      · exact ih _
      · exact ⟨rfl, rfl⟩

theorem handleSwarmEvent_behaviours (clientAlive : Bool) (event : SwarmEvent) :
    (handleSwarmEvent lib o clientAlive n event).1.swarm.gossip =
        Gossip.addExplicitPeers n.swarm.gossip (explicitPeers event) ∧
      (handleSwarmEvent lib o clientAlive n event).1.swarm.rdvz = n.swarm.rdvz := by
  have hnone := addExplicitPeers_nil n.swarm.gossip
  cases event with
  | behaviour event =>
      cases event with
      | gossip event => cases clientAlive <;> exact ⟨hnone.symm, rfl⟩
      | mdns event =>
          cases event with
          | discovered pairs => exact ⟨rfl, rfl⟩
          | expired pairs => exact ⟨hnone.symm, rfl⟩
      | rdvz event =>
          cases event with
          | discovered found =>
              obtain ⟨hgossip, hrdvz⟩ := dialDiscovered_behaviours lib o n found
              exact ⟨hgossip.trans hnone.symm, hrdvz⟩
          | registered ns => exact ⟨hnone.symm, rfl⟩
      | dcutr remotePeerId ok =>
          cases ok with
          | true => exact ⟨rfl, rfl⟩
          | false => exact ⟨hnone.symm, rfl⟩
      | _ => exact ⟨hnone.symm, rfl⟩
  | newListenAddr address =>
      simp only [handleSwarmEvent]
      split <;> exact ⟨hnone.symm, rfl⟩
  | connectionEstablished endpoint => cases endpoint <;> exact ⟨hnone.symm, rfl⟩
  | connectionClosed endpoint =>
      simp only [handleSwarmEvent]
      split <;> exact ⟨hnone.symm, rfl⟩
  | other => exact ⟨hnone.symm, rfl⟩

theorem shake_behaviours (w : World) (hs : Handshake) (event : SwarmEvent) :
    (w.shake o hs event).inner.swarm.gossip = w.inner.swarm.gossip ∧
      (w.shake o hs event).inner.swarm.rdvz = w.inner.swarm.rdvz := by
  have hhandshake : (handshakeEvent w.inner hs event).1.swarm.gossip = w.inner.swarm.gossip ∧
      (handshakeEvent w.inner hs event).1.swarm.rdvz = w.inner.swarm.rdvz := by
    unfold handshakeEvent
    split <;> exact ⟨rfl, rfl⟩
  unfold World.shake
  dsimp only
  split
  · unfold listenViaRelay
    dsimp only
    split <;> exact hhandshake
  · exact hhandshake

variable {lib o n}

theorem relaying_of_handleCommand {cmd : Command} {hs : Handshake}
    (h : (handleCommand lib o n cmd).2.mode = .relaying hs) :
    ∃ text, cmd = .listenViaRelay text ∧ lib.multiaddrFromStr text = some hs.address := by
  cases houtcome : (handleCommand lib o n cmd).2 with
  | relaying address =>
      rw [houtcome] at h
      cases h
      exact handleCommand_relaying houtcome
  | done shutdownRequired =>
      rw [houtcome] at h
      cases shutdownRequired <;> cases h
  | failed e =>
      rw [houtcome] at h
      cases h

end Calls

/-- What a step of the loop does to the gossip and the rendezvous behaviour. -/
inductive Calls (lib : Libp2p) (w : World) :
    Node.Act → Gossip.Behaviour → Option Rendezvous.Behaviour → Prop
  | command (o : Oracle) (cmd : Command) (rest : List Command)
      (hcommands : w.commands = cmd :: rest) :
      Calls lib w (.command o) (gossipAfter o w.inner.swarm.gossip cmd)
        (w.inner.swarm.rdvz.map (rdvzAfter lib · cmd))
  | received (o : Oracle) (event : SwarmEvent) :
      Calls lib w (.event o event)
        (Gossip.addExplicitPeers w.inner.swarm.gossip (explicitPeers event)) w.inner.swarm.rdvz
  | none (a : Node.Act) (hcommand : ∀ o, a ≠ .command o) :
      Calls lib w a w.inner.swarm.gossip w.inner.swarm.rdvz

def eventOf : Node.Act → Option SwarmEvent
  | .event _ event => some event
  | _ => none

section Loop

variable {lib : Libp2p} {w w' : World} {a : Node.Act}

theorem step_calls (h : Node.step lib w a = some w') :
    Calls lib w a w'.inner.swarm.gossip w'.inner.swarm.rdvz := by
  cases step_transition h with
  | send cmd halive =>
      unfold World.send
      split <;> exact .none _ nofun
  | dropNode halive => exact .none _ nofun
  | recvError hmode => exact .none _ nofun
  | timeout hs hmode => exact .none _ nofun
  | command o cmd rest hmode hcommands =>
      obtain ⟨hgossip, hrdvz⟩ := handleCommand_behaviours lib o w.inner cmd
      have hcalls : Calls lib w (.command o) _ _ := .command o cmd rest hcommands
      rw [← hgossip, ← hrdvz] at hcalls
      exact hcalls
  | receive o event hmode =>
      obtain ⟨hgossip, hrdvz⟩ := handleSwarmEvent_behaviours lib o w.inner w.nodeAlive event
      have hcalls : Calls lib w (.event o event) _ _ := .received o event
      rw [← hgossip, ← hrdvz] at hcalls
      exact hcalls
  | shake o event hs hmode =>
      obtain ⟨hgossip, hrdvz⟩ := shake_behaviours o w hs event
      have hcalls : Calls lib w (.event o event) _ _ := .none _ nofun
      rw [← hgossip, ← hrdvz] at hcalls
      exact hcalls

theorem step_yielded (h : Node.step lib w a = some w') :
    w'.yielded = w.yielded ++ (eventOf a).toList := by
  have hsame : w.yielded = w.yielded ++ [] := (List.append_nil _).symm
  cases step_transition h with
  | send cmd halive =>
      unfold World.send
      split <;> exact hsame
  | dropNode halive => exact hsame
  | command o cmd rest hmode hcommands => exact hsame
  | recvError hmode => exact hsame
  | receive o event hmode => rfl
  | shake o event hs hmode =>
      obtain ⟨inner, mode, -, heq⟩ := shake_frame o w hs event
      rw [heq]
      rfl
  | timeout hs hmode => exact hsame

theorem rdvzAfter_eventPart (lib : Libp2p) (b : Rendezvous.Behaviour) (cmd : Command) :
    Rendezvous.eventPart (rdvzAfter lib b cmd) = Rendezvous.eventPart b := by
  cases cmd with
  | register point ns =>
      change Rendezvous.eventPart (Rendezvous.settle b (parseAddr lib point >>= _)) = _
      cases parseAddr lib point with
      | error e => rfl
      | ok addr => exact Rendezvous.register_eventPart lib b addr ns
  | unregister ns => exact Rendezvous.unregister_eventPart lib b ns
  | discover point ns =>
      change Rendezvous.eventPart (Rendezvous.settle b (parseAddr lib point >>= _)) = _
      cases parseAddr lib point with
      | error e => rfl
      | ok addr => exact Rendezvous.discover_eventPart lib b addr ns
  | _ => rfl

theorem gossipAfter_eventPart (o : Oracle) (b : Gossip.Behaviour) (cmd : Command) :
    Gossip.eventPart (gossipAfter o b cmd) = Gossip.eventPart b := by
  cases cmd with
  | publish topic contents => exact Gossip.publish_eventPart b o.publish topic contents
  | subscribe topic => exact Gossip.subscribe_eventPart b topic
  | unsubscribe topic => exact Gossip.unsubscribe_eventPart b topic
  | _ => rfl

theorem step_eventParts (h : Node.step lib w a = some w') :
    Gossip.eventPart w'.inner.swarm.gossip = Gossip.eventPart w.inner.swarm.gossip ∧
      w'.inner.swarm.rdvz.map Rendezvous.eventPart =
        w.inner.swarm.rdvz.map Rendezvous.eventPart := by
  have hcalls := step_calls h
  generalize w'.inner.swarm.gossip = gossip, w'.inner.swarm.rdvz = rdvz at hcalls ⊢
  cases hcalls with
  | command o cmd rest hcommands =>
      refine ⟨gossipAfter_eventPart o _ cmd, ?_⟩
      rw [Option.map_map]
      exact congrArg (Option.map · _) (funext fun b => rdvzAfter_eventPart lib b cmd)
  | received o event => exact ⟨rfl, rfl⟩
  | none a hcommand => exact ⟨rfl, rfl⟩

end Loop

def withoutQueue (b : Gossip.Behaviour) : Gossip.Behaviour := { b with eventQueue := [] }

/-- Once it has published again, a poll changes only the queue. -/
theorem poll_frame {P α : Type} (part : Gossip.Behaviour → α)
    (hpart : ∀ b, part (withoutQueue b) = part b) {b : Gossip.Behaviour} {now : Instant}
    {answers : Stream' Bool} {yields : List (ToSwarm Gossip.GossipsubEvent P)}
    {polled : Polled Gossip.Behaviour Gossip.GossipsubEvent Gossip.Event P}
    (hpolled : Gossip.poll b now answers yields = polled) :
    part polled.state = part (Gossip.republish b now answers) := by
  have hsame : withoutQueue polled.state = withoutQueue (Gossip.republish b now answers) := by
    apply keeps_forward withoutQueue _ _ hpolled
    · intro b event
      unfold Gossip.handleEvent
      split
      · split <;> rfl
      · rfl
    · intro b
      unfold Gossip.emit
      split <;> rfl
  rw [← hpart, hsame, hpart]

/-! ## What a step can do -/

section Transition

variable {P : Type} {lib : Libp2p}

inductive Delivers (lib : Libp2p) (s : System) (o : Oracle) :
    Option BehaviourEvent → System → Prop
  | nothing : Delivers lib s o none s
  | event (event : BehaviourEvent) (loop : World)
      (hstep : Node.step lib s.loop (.event o (.behaviour event)) = some loop) :
      Delivers lib s o (some event) { s with loop }

theorem delivers {s s' : System} {o : Oracle} {event : Option BehaviourEvent}
    (h : s.deliver lib o event = some s') : Delivers lib s o event s' := by
  cases event with
  | none =>
      cases h
      exact .nothing
  | some event =>
      obtain ⟨loop, hloop, rfl⟩ := Option.map_eq_some_iff.mp h
      exact .event event loop hloop

/-- The steps; the middle state of a poll is the one before its event is handled. -/
inductive Transition (lib : Libp2p) (s : System) : Act P → System → Prop
  | loop (a : Node.Act) (loop : World) (helse : fromElsewhere a = true)
      (hstep : Node.step lib s.loop a = some loop) :
      Transition lib s (.loop a)
        { s with loop, accepted := s.accepted ++ acceptedBy s.loop a }
  | fromSwarm (event : Rendezvous.FromSwarm) :
      Transition lib s (.fromSwarm event) { s with
        loop := withRdvz s.loop
          (s.loop.inner.swarm.rdvz.map (Rendezvous.onSwarmEvent · event)) }
  | pollGossip (o : Oracle) (now : Instant) (answers : Stream' Bool)
      (yields : List (ToSwarm Gossip.GossipsubEvent P))
      (polled : Polled Gossip.Behaviour Gossip.GossipsubEvent Gossip.Event P)
      (hpolled : Gossip.poll s.loop.inner.swarm.gossip now answers yields = polled)
      (s' : System)
      (hs' : Delivers lib { s with
        loop := withGossip s.loop polled.state
        gossipsub := s.gossipsub ++ eventsTaken yields polled
        accepted := s.accepted ++ republished s.loop.inner.swarm.gossip now answers } o
        ((returnedEvent polled).map .gossip) s') :
      Transition lib s (.pollGossip o now answers yields) s'
  | pollRdvz (o : Oracle) (ticks : List Instant)
      (yields : List (ToSwarm Rendezvous.ClientEvent P)) (b : Rendezvous.Behaviour)
      (hb : s.loop.inner.swarm.rdvz = some b)
      (polled : Polled Rendezvous.Behaviour Rendezvous.ClientEvent Rendezvous.Event P)
      (hpolled : Rendezvous.poll b ticks yields = some polled) (s' : System)
      (hs' : Delivers lib { s with
        loop := withRdvz s.loop (some polled.state)
        client := s.client ++ eventsTaken yields polled } o
        ((returnedEvent polled).map .rdvz) s') :
      Transition lib s (.pollRdvz o ticks yields) s'
  | pollMdns (o : Oracle) (a : Mdns.Poll) (w w' : Mdns.World) (hw : s.mdns = some w)
      (hpolled : Mdns.step w a = some w') (s' : System)
      (hs' : Delivers lib { s with mdns := some w' } o
        ((Mdns.poll w.behaviour a.ifEvents a.received a.now).2.map .mdns) s') :
      Transition lib s (.pollMdns o a) s'
  | pollDht (o : Oracle) (now : Instant) (answer : Dht.BootstrapAnswer) (drainNow : Instant)
      (answers : Nat → Dht.Answer) (fuel : Nat) (reads : Stream' (Instant × Dht.QueryId))
      (yields : List (ToSwarm Dht.KadEvent P)) (b : Dht.Behaviour)
      (hb : s.loop.inner.swarm.dht = some b)
      (polled : Polled Dht.Behaviour Dht.KadEvent Dht.Event P)
      (hpolled : Dht.poll b now answer drainNow answers fuel reads yields = some polled)
      (s' : System)
      (hs' : Delivers lib { s with loop := withDht s.loop (some polled.state) } o
        ((returnedEvent polled).map .dht) s') :
      Transition lib s (.pollDht o now answer drainNow answers fuel reads yields) s'

theorem transition {s s' : System} {a : Act P} (h : step lib s a = some s') :
    Transition lib s a s' := by
  cases a with
  | loop a =>
      obtain ⟨helse, h⟩ := Option.ite_none_right_eq_some.mp h
      obtain ⟨loop, hloop, rfl⟩ := Option.map_eq_some_iff.mp h
      exact .loop a loop helse hloop
  | fromSwarm event =>
      obtain ⟨-, h⟩ := Option.ite_none_left_eq_some.mp h
      cases h
      exact .fromSwarm event
  | pollGossip o now answers yields =>
      obtain ⟨-, h⟩ := Option.ite_none_left_eq_some.mp h
      exact .pollGossip o now answers yields _ rfl s' (delivers h)
  | pollRdvz o ticks yields =>
      obtain ⟨-, h⟩ := Option.ite_none_left_eq_some.mp h
      obtain ⟨b, hb, h⟩ := Option.bind_eq_some_iff.mp h
      obtain ⟨polled, hpolled, h⟩ := Option.bind_eq_some_iff.mp h
      exact .pollRdvz o ticks yields b hb polled hpolled s' (delivers h)
  | pollMdns o a =>
      obtain ⟨-, h⟩ := Option.ite_none_left_eq_some.mp h
      obtain ⟨w, hw, h⟩ := Option.bind_eq_some_iff.mp h
      obtain ⟨w', hw', h⟩ := Option.bind_eq_some_iff.mp h
      exact .pollMdns o a w w' hw hw' s' (delivers h)
  | pollDht o now answer drainNow answers fuel reads yields =>
      obtain ⟨-, h⟩ := Option.ite_none_left_eq_some.mp h
      obtain ⟨b, hb, h⟩ := Option.bind_eq_some_iff.mp h
      obtain ⟨polled, hpolled, h⟩ := Option.bind_eq_some_iff.mp h
      exact .pollDht o now answer drainNow answers fuel reads yields b hb polled hpolled s'
        (delivers h)

/-- What is said of the loop alone holds after a step, if the loop keeps it, and the polls and
the reports of the swarm do that change a behaviour. -/
theorem loop_keeps {Inv : World → Prop}
    (hloop : ∀ {w w' a}, Inv w → Node.step lib w a = some w' → Inv w')
    (hswarm : ∀ {w event}, Inv w →
      Inv (withRdvz w (w.inner.swarm.rdvz.map (Rendezvous.onSwarmEvent · event))))
    (hgossip : ∀ {w now answers} {yields : List (ToSwarm Gossip.GossipsubEvent P)} {polled},
      Inv w → Gossip.poll w.inner.swarm.gossip now answers yields = polled →
        Inv (withGossip w polled.state))
    (hrdvz : ∀ {w b ticks} {yields : List (ToSwarm Rendezvous.ClientEvent P)} {polled},
      Inv w → w.inner.swarm.rdvz = some b → Rendezvous.poll b ticks yields = some polled →
        Inv (withRdvz w (some polled.state)))
    (hdht : ∀ {w b now answer drainNow answers fuel reads}
      {yields : List (ToSwarm Dht.KadEvent P)} {polled},
      Inv w → w.inner.swarm.dht = some b →
        Dht.poll b now answer drainNow answers fuel reads yields = some polled →
          Inv (withDht w (some polled.state)))
    {s s' : System} {a : Act P} (h : Inv s.loop) (hstep : step lib s a = some s') :
    Inv s'.loop := by
  have hdelivers : ∀ {s s' : System} {o event}, Inv s.loop → Delivers lib s o event s' →
      Inv s'.loop := by
    intro s s' o event h hs'
    cases hs' with
    | nothing => exact h
    | event event loop hstep => exact hloop h hstep
  cases transition hstep with
  | loop a loop helse hfirst => exact hloop h hfirst
  | fromSwarm event => exact hswarm h
  | pollGossip o now answers yields polled hpolled _ hs' =>
      exact hdelivers (hgossip h hpolled) hs'
  | pollRdvz o ticks yields b hb polled hpolled _ hs' =>
      exact hdelivers (hrdvz h hb hpolled) hs'
  | pollMdns o a w w' hw hpolled _ hs' =>
      have hmid : Inv ({ s with mdns := some w' } : System).loop := h
      exact hdelivers hmid hs'
  | pollDht o now answer drainNow answers fuel reads yields b hb polled hpolled _ hs' =>
      exact hdelivers (hdht h hb hpolled) hs'

end Transition

end P2pa.Node.Whole
