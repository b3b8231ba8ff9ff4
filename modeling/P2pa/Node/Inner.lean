import P2pa.Dht.Behaviour
import P2pa.Gossip.Behaviour
import P2pa.Mdns.Behaviour
import P2pa.Rendezvous.Behaviour

/-!
# The node's commands and events

`NodeInner` of `node.rs`: what it does with one command of a client and with one
event of the swarm.  The swarm appears as the behaviours that the node calls and the
lists of the calls made on the swarm itself; what a call answers is given by an
`Oracle`.  Every function returns the state it leaves behind, also where it fails.
-/

namespace P2pa.Node

open Utils Wire

inductive Command
  | dial (addr : String)
  | beginBootstrap
  | lookupPeer (peerId : String)
  | addKnownPeer (peer address : String)
  | addBootNode (peer address : String)
  | putRecord (key value : Bytes)
  | getRecord (key : Bytes) (retry : UInt8)
  | shutdown
  | listenViaRelay (address : String)
  | register (point ns : String)
  | unregister (ns : String)
  | discover (point ns : String)
  | publish (topic : String) (contents : Bytes)
  | subscribe (topic : String)
  | unsubscribe (topic : String)
  | getConnectedPeers
  | getConnectedPeersLen
deriving DecidableEq, Repr

inductive Event
  | msgReceived (topic : String) (contents : Bytes)
deriving DecidableEq, Repr

inductive BehaviourEvent
  | identifySent (peer : PeerId)
  | identifyReceived (peer : PeerId) (observedAddr : Multiaddr)
  | identifyOther
  | gossip (event : Gossip.Event)
  | mdns (event : Mdns.Event)
  | rdvz (event : Rendezvous.Event)
  | dht (event : Dht.Event)
  | dcutr (remotePeerId : PeerId) (ok : Bool)
  | relay
deriving DecidableEq, Repr

/-- `SwarmEvent`; the peers of a connection are not looked at. -/
inductive SwarmEvent
  | behaviour (event : BehaviourEvent)
  | newListenAddr (address : Multiaddr)
  | connectionEstablished (endpoint : ConnectedPoint)
  | connectionClosed (endpoint : ConnectedPoint)
  | other
deriving DecidableEq, Repr

/-- What the clock and the swarm answer during one step.  Whether a dial is accepted
may depend on the dials made before. -/
structure Oracle where
  now : Instant
  dial : List Multiaddr → Multiaddr → Bool
  listenOn : Multiaddr → Bool
  putRecord : Dht.PutAnswer
  queryId : Dht.QueryId
  publish : Bool

structure Swarm where
  gossip : Gossip.Behaviour
  rdvz : Option Rendezvous.Behaviour
  dht : Option Dht.Behaviour
  dialed : List Multiaddr
  listening : List Multiaddr
  externalAddresses : List Multiaddr

structure NodeInner where
  swarm : Swarm
  dialingRelays : List Multiaddr

def Swarm.build (gossip : Gossip.Behaviour) (rdvz : Option Rendezvous.Behaviour)
    (dht : Option Dht.Behaviour) : Swarm where
  gossip
  rdvz
  dht
  dialed := []
  listening := []
  externalAddresses := []

/-- How a command ends: with the answer whether to shut down, with an error that the
event loop passes on, or in the handshake with a relay. -/
inductive Outcome
  | done (shutdownRequired : Bool)
  | failed (error : Error)
  | relaying (address : Multiaddr)
deriving DecidableEq, Repr

structure Handshake where
  address : Multiaddr
  learnedObservedAddr : Bool
  toldRelayObservedAddr : Bool
deriving DecidableEq, Repr

def NodeInner.dial (o : Oracle) (n : NodeInner) (addr : Multiaddr) : NodeInner × Bool :=
  ({ n with swarm := { n.swarm with dialed := n.swarm.dialed ++ [addr] } },
    o.dial n.swarm.dialed addr)

def NodeInner.addExternalAddress (n : NodeInner) (addr : Multiaddr) : NodeInner :=
  { n with
    swarm := { n.swarm with externalAddresses := n.swarm.externalAddresses ++ [addr] } }

def NodeInner.listenOn (n : NodeInner) (addr : Multiaddr) : NodeInner :=
  { n with swarm := { n.swarm with listening := n.swarm.listening ++ [addr] } }

section Commands

variable (lib : Libp2p) (o : Oracle) (n : NodeInner)

/-- The commands that do something if the DHT is enabled, and nothing else. -/
def withDht (f : Dht.Behaviour → Except Error Dht.Behaviour) : NodeInner × Outcome :=
  match n.swarm.dht with
  | none => (n, .done false)
  | some dht =>
      match f dht with
      | .ok dht => ({ n with swarm := { n.swarm with dht := some dht } }, .done false)
      | .error e => (n, .failed e)

/-- The commands that do something if rendezvous is enabled, and only warn if not. -/
def withRdvz (f : Rendezvous.Behaviour → Except Error Rendezvous.Behaviour) :
    NodeInner × Outcome :=
  match n.swarm.rdvz with
  | none => (n, .done false)
  | some rdvz =>
      match f rdvz with
      | .ok rdvz => ({ n with swarm := { n.swarm with rdvz := some rdvz } }, .done false)
      | .error e => (n, .failed e)

def parseAddr (text : String) : Except Error Multiaddr :=
  (lib.multiaddrFromStr text).elim (.error .multiaddr) .ok

def parsePeer (text : String) : Except Error PeerId :=
  (lib.peerIdFromStr text).elim (.error .peerId) .ok

def handleCommand : Command → NodeInner × Outcome
  | .dial addr =>
      match parseAddr lib addr with
      | .error e => (n, .failed e)
      | .ok addr =>
          let (n, accepted) := n.dial o addr
          (n, if accepted then .done false else .failed .dial)
  | .beginBootstrap => withDht n fun dht => .ok (Dht.beginBootstrap dht)
  | .lookupPeer _ => (n, .done false)
  | .addKnownPeer peer address => withDht n fun dht => do
      let peer ← parsePeer lib peer
      let address ← parseAddr lib address
      .ok (Dht.addAddress dht peer address)
  | .addBootNode peer address => withDht n fun dht => do
      let peer ← parsePeer lib peer
      let address ← parseAddr lib address
      .ok (Dht.addBootnodes dht peer address)
  | .putRecord key value => withDht n fun dht =>
      .ok (Dht.putRecord dht o.now o.putRecord { backoff := .default, key, value })
  | .getRecord key retry => withDht n fun dht =>
      .ok (Dht.getRecord dht o.queryId key .default retry)
  | .shutdown => (n, .done true)
  | .listenViaRelay address =>
      match parseAddr lib address with
      | .error e => (n, .failed e)
      | .ok address =>
          -- an error of `handle_listen_via_relay`, here the dial's, is only logged
          let (n, accepted) := n.dial o address
          (n, if accepted then .relaying address else .done false)
  | .register point ns => withRdvz n fun rdvz => do
      let point ← parseAddr lib point
      Rendezvous.register lib rdvz point ns
  | .unregister ns => withRdvz n fun rdvz => Rendezvous.unregister lib rdvz ns
  | .discover point ns => withRdvz n fun rdvz => do
      let point ← parseAddr lib point
      Rendezvous.discover lib rdvz point ns
  | .publish topic contents =>
      ({ n with
        swarm := { n.swarm with
          gossip := Gossip.publish n.swarm.gossip o.publish topic contents } }, .done false)
  | .subscribe topic =>
      ({ n with swarm := { n.swarm with gossip := Gossip.subscribe n.swarm.gossip topic } },
        .done false)
  | .unsubscribe topic =>
      ({ n with swarm := { n.swarm with gossip := Gossip.unsubscribe n.swarm.gossip topic } },
        .done false)
  | .getConnectedPeers => (n, .done false)
  | .getConnectedPeersLen => (n, .done false)

end Commands

section IfEnabled

/-- What a command does with a behaviour `b` that need not be enabled: nothing if it is
not, and else it stores what `f` makes of it, or fails and leaves the node as it is. -/
inductive IfEnabled {B : Type} (n : NodeInner) (b : Option B) (f : B → Except Error B)
    (store : B → NodeInner) : NodeInner × Outcome → Prop
  | disabled (hb : b = none) : IfEnabled n b f store (n, .done false)
  | handled (before after : B) (hb : b = some before) (hf : f before = .ok after) :
      IfEnabled n b f store (store after, .done false)
  | failed (before : B) (e : Error) (hb : b = some before) (hf : f before = .error e) :
      IfEnabled n b f store (n, .failed e)

section Frame

variable {B : Type} {n : NodeInner} {b : Option B} {f : B → Except Error B}
  {store : B → NodeInner} {result : NodeInner × Outcome}

theorem IfEnabled.keeps {α : Type} (h : IfEnabled n b f store result) (part : NodeInner → α)
    (hstore : ∀ x, part (store x) = part n) : part result.1 = part n := by
  cases h with
  | handled before after hb hf => exact hstore after
  | _ => rfl

theorem IfEnabled.stored (h : IfEnabled n b f store result) (enabled : NodeInner → Option B)
    (hn : enabled n = b) (hstore : ∀ x, enabled (store x) = some x) :
    enabled result.1 = b.map fun x => (f x).toOption.getD x := by
  cases h with
  | disabled hb => rw [hn, hb, Option.map_none]
  | handled before after hb hf =>
      rw [hstore, hb, Option.map_some, hf]
      rfl
  | failed before e hb hf =>
      rw [hn, hb, Option.map_some, hf]
      rfl

end Frame

variable (n : NodeInner)

theorem withDht_ifEnabled (f : Dht.Behaviour → Except Error Dht.Behaviour) :
    IfEnabled n n.swarm.dht f
      (fun dht => { n with swarm := { n.swarm with dht := some dht } }) (withDht n f) := by
  unfold withDht
  split
  · rename_i hdht
    exact .disabled hdht
  · rename_i dht hdht
    split
    · rename_i after hf
      exact .handled dht after hdht hf
    · rename_i e hf
      exact .failed dht e hdht hf

theorem withRdvz_ifEnabled (f : Rendezvous.Behaviour → Except Error Rendezvous.Behaviour) :
    IfEnabled n n.swarm.rdvz f
      (fun rdvz => { n with swarm := { n.swarm with rdvz := some rdvz } }) (withRdvz n f) := by
  unfold withRdvz
  split
  · rename_i hrdvz
    exact .disabled hrdvz
  · rename_i rdvz hrdvz
    split
    · rename_i after hf
      exact .handled rdvz after hrdvz hf
    · rename_i e hf
      exact .failed rdvz e hrdvz hf

end IfEnabled

/-! ## Events of the swarm -/

def clientEvent : Gossip.Event → Event
  | .msgReceived topic contents => .msgReceived topic contents

def addressWithP2p (lib : Libp2p) (peer : PeerId × Multiaddr) : Multiaddr :=
  if !lib.endsWith peer.2 (Multiaddr.push [] (.p2p peer.1)) then peer.2.push (.p2p peer.1)
  else peer.2

/-- The loop over the discovered peers; it stops at the first dial that is refused. -/
def dialDiscovered (lib : Libp2p) (o : Oracle) (n : NodeInner) :
    List (PeerId × Multiaddr) → NodeInner × Except Error Unit
  | [] => (n, .ok ())
  | peer :: rest =>
      let (n, accepted) := n.dial o (addressWithP2p lib peer)
      if accepted then dialDiscovered lib o n rest else (n, .error .dial)

def addExplicitPeers (n : NodeInner) (peers : List PeerId) : NodeInner :=
  { n with swarm := { n.swarm with gossip := Gossip.addExplicitPeers n.swarm.gossip peers } }

/-- The state, what is sent to the client, and the result.  Sending fails once the
client's end of the channel is gone. -/
def handleEvent (lib : Libp2p) (o : Oracle) (clientAlive : Bool) (n : NodeInner) :
    BehaviourEvent → NodeInner × List Event × Except Error Unit
  | .gossip event =>
      if clientAlive then (n, [clientEvent event], .ok ()) else (n, [], .error .send)
  | .mdns (.discovered pairs) => (addExplicitPeers n (pairs.map Prod.fst), [], .ok ())
  | .rdvz (.discovered found) =>
      let (n, result) := dialDiscovered lib o n found
      (n, [], result)
  | .dcutr remotePeerId ok => (if ok then addExplicitPeers n [remotePeerId] else n, [], .ok ())
  | _ => (n, [], .ok ())

def handleSwarmEvent (lib : Libp2p) (o : Oracle) (clientAlive : Bool) (n : NodeInner) :
    SwarmEvent → NodeInner × List Event × Except Error Unit
  | .behaviour event => handleEvent lib o clientAlive n event
  | .newListenAddr address =>
      (if !isLoopback address then n.addExternalAddress address else n, [], .ok ())
  | .connectionEstablished (.dialer address) =>
      ({ n with dialingRelays := n.dialingRelays.erase address }, [], .ok ())
  | .connectionClosed endpoint =>
      -- the result of the dial is dropped
      (if lib.isRelayed endpoint then (n.dial o (lib.getRemoteAddress endpoint)).1 else n,
        [], .ok ())
  | _ => (n, [], .ok ())

def handshakeEvent (n : NodeInner) (h : Handshake) : SwarmEvent → NodeInner × Handshake
  | .behaviour (.identifySent _) => (n, { h with toldRelayObservedAddr := true })
  | .behaviour (.identifyReceived _ observedAddr) =>
      (n.addExternalAddress observedAddr, { h with learnedObservedAddr := true })
  | _ => (n, h)

/-- What follows the handshake; a failure is only logged. -/
def listenViaRelay (o : Oracle) (n : NodeInner) (address : Multiaddr) : NodeInner :=
  let newAddress := address.push .p2pCircuit
  let n := n.listenOn newAddress
  if o.listenOn newAddress then n.addExternalAddress newAddress else n

def relayTimedOut (n : NodeInner) (address : Multiaddr) : NodeInner :=
  { n with dialingRelays := n.dialingRelays.insert address }

/-! ## A node with gossip only, and a swarm that accepts every call -/

def sampleInner : NodeInner where
  swarm := .build (Gossip.new samplePeerId true) none none
  dialingRelays := []

def sampleOracle : Oracle where
  now := 0
  dial _ _ := true
  listenOn _ := true
  putRecord := .ok 0
  queryId := 0
  publish := true

end P2pa.Node
