import P2pa.Support.Wire
import P2pa.Swarm

/-!
# The gossip behaviour

`behaviours/gossip_bhv.rs`.  The wrapped `gossipsub::Behaviour` appears as the list
of the calls made on it; what it answers to `publish` is an argument.  The hash of an
`IdentTopic` is its text.
-/

namespace P2pa.Gossip

open Utils Wire

inductive Event
  | msgReceived (topic : String) (contents : Bytes)
deriving DecidableEq, Repr

inductive GossipCall
  | addExplicitPeer (peer : PeerId)
  | publish (topic : String) (contents : Bytes)
  | subscribe (topic : String)
  | unsubscribe (topic : String)
deriving DecidableEq, Repr

inductive GossipsubEvent
  | message (propagationSource : PeerId) (topic : String) (data : Bytes)
  | other
deriving DecidableEq, Repr

structure Behaviour where
  localPeerId : PeerId
  gossip : List GossipCall
  inProgressMessages : List (String × Bytes)
  backoff : ExponentialBackoff
  eventQueue : List Event
  /-- A set, in the order of insertion. -/
  subscriptions : List String
  enableRepublish : Bool
deriving Repr

def new (localPeerId : PeerId) (enableRepublish : Bool) : Behaviour where
  localPeerId
  gossip := []
  inProgressMessages := []
  backoff := .default
  eventQueue := []
  subscriptions := []
  enableRepublish

def addExplicitPeers (b : Behaviour) (peers : List PeerId) : Behaviour :=
  { b with gossip := b.gossip ++ peers.map .addExplicitPeer }

/-- `accepted` is whether gossipsub takes the message. -/
def publish (b : Behaviour) (accepted : Bool) (topic : String) (contents : Bytes) :
    Behaviour :=
  let b := { b with gossip := b.gossip ++ [.publish topic contents] }
  if !accepted && b.enableRepublish then
    { b with inProgressMessages := b.inProgressMessages ++ [(topic, contents)] }
  else b

/-- An error of gossipsub is only logged. -/
def subscribe (b : Behaviour) (topic : String) : Behaviour :=
  if topic ∈ b.subscriptions then b
  else
    { b with
      gossip := b.gossip ++ [.subscribe topic]
      subscriptions := b.subscriptions ++ [topic] }

def unsubscribe (b : Behaviour) (topic : String) : Behaviour :=
  if topic ∈ b.subscriptions then
    { b with
      gossip := b.gossip ++ [.unsubscribe topic]
      subscriptions := b.subscriptions.erase topic }
  else b

def drainMessages : List (String × Bytes) → Stream' Bool → Behaviour → Behaviour × Bool
  | [], _, b => (b, true)
  | (topic, contents) :: rest, answers, b =>
      let b := { b with
        inProgressMessages := rest
        gossip := b.gossip ++ [.publish topic contents] }
      if answers.head then drainMessages rest answers.tail b
      else ({ b with inProgressMessages := rest ++ [(topic, contents)] }, false)

/-- `answers` is whether gossipsub takes each message it is offered. -/
def drainPublish (b : Behaviour) (answers : Stream' Bool) : Behaviour × Bool :=
  drainMessages b.inProgressMessages answers b

/-- What `poll` does before it asks gossipsub. -/
def republish (b : Behaviour) (now : Instant) (answers : Stream' Bool) : Behaviour :=
  if b.enableRepublish && b.backoff.isExpired now then
    let (b, allRepublished) := drainPublish b answers
    { b with backoff := b.backoff.startNext now allRepublished }
  else b

def handleEvent (b : Behaviour) : GossipsubEvent → Behaviour
  | .message propagationSource topic data =>
      if b.localPeerId = propagationSource then b
      else { b with eventQueue := b.eventQueue ++ [.msgReceived topic data] }
  | .other => b

def emit (b : Behaviour) : Behaviour × Option Event :=
  match b.eventQueue with
  | event :: rest => ({ b with eventQueue := rest }, some event)
  | [] => (b, none)

/-- `answers` is what gossipsub answers to the messages offered again, `yields` what it
yields until it is pending. -/
def poll {P : Type} (b : Behaviour) (now : Instant) (answers : Stream' Bool)
    (yields : List (ToSwarm GossipsubEvent P)) : Polled Behaviour GossipsubEvent Event P :=
  (forward handleEvent (republish b now answers) yields).orEmit emit

end P2pa.Gossip
