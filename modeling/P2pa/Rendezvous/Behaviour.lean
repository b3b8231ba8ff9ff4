import P2pa.Mdns.Timer
import P2pa.Swarm

/-!
# The rendezvous behaviour

`behaviours/rendezvous_bhv.rs`.  The wrapped `rendezvous::client::Behaviour` appears
as the list of the calls made on it.  A set is the list of its elements without
repetition, in the order of insertion.
-/

namespace P2pa.Rendezvous

open Utils Mdns

structure Cookie where
  id : UInt64
  ns : Option Namespace
deriving DecidableEq, Repr

/-- `rendezvous::Registration`, with what the program reads of its peer record. -/
structure Registration where
  peerId : PeerId
  addresses : List Multiaddr
deriving DecidableEq, Repr

inductive ClientEvent
  | discovered (rendezvousNode : PeerId) (registrations : List Registration)
      (cookie : Cookie)
  | registered (ns : Namespace)
  | other
deriving DecidableEq, Repr

inductive FromSwarm
  | connectionEstablished (peerId : PeerId) (endpoint : ConnectedPoint)
  | newListener
  | other
deriving DecidableEq, Repr

inductive RdvzCall
  | register (ns : Namespace) (node : PeerId) (ttl : Option UInt64)
  | unregister (ns : Namespace) (node : PeerId)
  | discover (ns : Option Namespace) (cookie : Option Cookie) (limit : Option UInt64)
      (node : PeerId)
  | onSwarmEvent (event : FromSwarm)
deriving DecidableEq, Repr

inductive Event
  | discovered (found : List (PeerId × Multiaddr))
  | registered (ns : Namespace)
deriving DecidableEq, Repr

structure Behaviour where
  currentId : PeerId
  rdvz : List RdvzCall
  cookie : Option Cookie
  registrations : List (Multiaddr × Namespace)
  discovery : List (Multiaddr × Namespace)
  connectedRdvzs : List (PeerId × Multiaddr)
  eventQueue : List Event
  ttl : Option UInt64
  probeState : ProbeState
  timeout : Timer
deriving Repr

def refreshInterval (ttl : Option UInt64) : Duration := .fromSecs (ttl.getD 30)

def empty (currentId : PeerId) (ttl : Option UInt64) (timeout : Timer) : Behaviour where
  currentId
  rdvz := []
  cookie := none
  registrations := []
  discovery := []
  connectedRdvzs := []
  eventQueue := []
  ttl
  probeState := .probing (refreshInterval ttl)
  timeout

/-- `none` is the panic of a timer with a period of zero. -/
def new (currentId : PeerId) (ttl : Option UInt64) (now : Instant) : Option Behaviour :=
  (Timer.intervalAt now (refreshInterval ttl)).map (empty currentId ttl)

/-! ## The calls of the node -/

def register (lib : Libp2p) (b : Behaviour) (rdvzNode : Multiaddr) (ns : String) :
    Except Error Behaviour :=
  match lib.namespaceNew ns with
  | some ns => .ok { b with registrations := b.registrations.insert (rdvzNode, ns) }
  | none => .error .namespaceTooLong

def unregister (lib : Libp2p) (b : Behaviour) (ns : String) : Except Error Behaviour :=
  match lib.namespaceNew ns with
  | some unregisterNamespace =>
      let calls := b.registrations.filterMap fun (point, ns) =>
        match point.pop.1 with
        | some (.p2p node) =>
            if unregisterNamespace = ns then some (RdvzCall.unregister ns node) else none
        | _ => none
      .ok { b with rdvz := b.rdvz ++ calls }
  | none => .error .namespaceTooLong

def discover (lib : Libp2p) (b : Behaviour) (rdvzNode : Multiaddr) (ns : String) :
    Except Error Behaviour :=
  match lib.namespaceNew ns with
  | some ns => .ok { b with discovery := b.discovery.insert (rdvzNode, ns) }
  | none => .error .namespaceTooLong

/-! ## What the swarm reports -/

/-- The peers of the registrations, each with its addresses, without the node itself. -/
def found (currentId : PeerId) (registrations : List Registration) :
    List (PeerId × Multiaddr) :=
  registrations.foldl
    (fun discovered registration =>
      if registration.peerId = currentId then discovered
      else
        registration.addresses.foldl
          (fun discovered address => discovered.insert (registration.peerId, address))
          discovered)
    []

def handleEvent (b : Behaviour) : ClientEvent → Behaviour
  | .discovered _ registrations cookie =>
      { b with
        cookie := some cookie
        eventQueue := b.eventQueue ++ [.discovered (found b.currentId registrations)] }
  | .registered ns => { b with eventQueue := b.eventQueue ++ [.registered ns] }
  | .other => b

/-- The loop that registers at every rendezvous point whose address names it. -/
def registerAll (b : Behaviour) : Behaviour :=
  let calls := b.registrations.filterMap fun (rdvzAddr, ns) =>
    match rdvzAddr.pop.1 with
    | some (.p2p peer) => some (RdvzCall.register ns peer b.ttl)
    | _ => none
  { b with rdvz := b.rdvz ++ calls }

/-- A connection this node has dialled at `address`. -/
def connected (b : Behaviour) (peerId : PeerId) (address : Multiaddr) : Behaviour :=
  let registers := (b.registrations.filter fun r => address = r.1).map fun r =>
    RdvzCall.register r.2 peerId b.ttl
  let discovers := (b.discovery.filter fun d => address = d.1).map fun d =>
    RdvzCall.discover (some d.2) b.cookie none peerId
  { b with
    rdvz := b.rdvz ++ registers ++ discovers
    connectedRdvzs := b.connectedRdvzs ++ [(peerId, address)] }

def onSwarmEvent (b : Behaviour) (event : FromSwarm) : Behaviour :=
  let b :=
    match event with
    | .connectionEstablished peerId (.dialer address) => connected b peerId address
    | .newListener => registerAll b
    | _ => b
  { b with rdvz := b.rdvz ++ [.onSwarmEvent event] }

/-! ## The parts of `poll` -/

/-- One iteration of the loop over the ticks of the timer; `none` is a panic of the
new timer. -/
def tick (b : Behaviour) (now : Instant) : Option Behaviour :=
  let ttl := refreshInterval b.ttl
  let b := registerAll b
  let probeState :=
    match b.probeState with
    | .probing interval => if ttl ≤ interval then .finished ttl else .probing interval
    | .finished interval => .finished interval
  (Timer.interval now probeState.interval).map fun timeout => { b with probeState, timeout }

def emit (b : Behaviour) : Behaviour × Option Event :=
  match b.eventQueue with
  | event :: rest => ({ b with eventQueue := rest }, some event)
  | [] => (b, none)

/-- The loop over the ticks; `ticks` are the instants at which the timer is found
ready. -/
def pollTimer (b : Behaviour) : List Instant → Option Behaviour
  | [] => some b
  | now :: ticks =>
      if b.timeout.start ≤ now then (tick b now).bind fun b => pollTimer b ticks else none

/-- `yields` is what the client yields until it is pending; `none` is a panic, or a tick
at which the timer is not ready. -/
def poll {P : Type} (b : Behaviour) (ticks : List Instant)
    (yields : List (ToSwarm ClientEvent P)) : Option (Polled Behaviour ClientEvent Event P) :=
  (pollTimer b ticks).map fun b => (forward handleEvent b yields).orEmit emit

end P2pa.Rendezvous
