import P2pa.Mdns.Iface.Query
import P2pa.Mdns.Timer
import P2pa.Support.Leases

/-!
# The mDNS behaviour

`behaviours/mdns_bhv.rs`.  What the interface watcher and the channel of the
interface tasks hold when `poll` reads them, and the clock, are arguments of `poll`.
-/

namespace P2pa.Mdns

open Utils Iface

/-- A peer on an address; with an instant, an entry of `discovered_nodes`. -/
abbrev Pair := PeerId × Multiaddr

inductive Event
  | discovered (pairs : List Pair)
  | expired (pairs : List Pair)
deriving DecidableEq, Repr

structure Config where
  ttl : Duration
  queryInterval : Duration
  probeInterval : Duration
  ipv6 : Bool
deriving DecidableEq, Repr

structure IpNet where
  addr : IpAddr
  prefixLen : UInt8
deriving DecidableEq, Repr

/-- What the interface watcher reports.  `created` is whether `InterfaceState::new`
succeeds for the address. -/
inductive IfEvent
  | up (inet : IpNet) (created : Bool)
  | down (inet : IpNet)
  | error
deriving DecidableEq, Repr

structure Behaviour where
  config : Config
  /-- The task handles are only used to abort the task. -/
  ifTasks : AList fun _ : IpAddr => Unit
  discoveredNodes : Leases.Table Pair Instant
  closestExpiration : Option Timer
  localPeerId : PeerId
  eventQueue : List Event

def empty (config : Config) (localPeerId : PeerId) : Behaviour where
  config
  ifTasks := ∅
  discoveredNodes := []
  closestExpiration := none
  localPeerId
  eventQueue := []

/-- `none` is the failed assertion. -/
def new (config : Config) (localPeerId : PeerId) : Option Behaviour :=
  if config.probeInterval < config.queryInterval then some (empty config localPeerId)
  else none

def Iface.IpAddr.isLoopback : IpAddr → Bool
  | .v4 addr => addr >>> 24 == 127
  | .v6 addr => addr == 1

def Iface.IpAddr.isIpv4 : IpAddr → Bool
  | .v4 _ => true
  | .v6 _ => false

def handleIfEvent (b : Behaviour) : IfEvent → Behaviour
  | .up inet created =>
      if inet.addr.isLoopback then b
      else if inet.addr.isIpv4 && b.config.ipv6 || !inet.addr.isIpv4 && !b.config.ipv6 then b
      else if inet.addr ∈ b.ifTasks then b
      else if created then { b with ifTasks := b.ifTasks.insert inet.addr () }
      else b
  | .down inet => { b with ifTasks := b.ifTasks.erase inet.addr }
  | .error => b

/-- The loop over what the interface tasks have sent: the table and the pairs that
are new in it. -/
def receive (discoveredNodes : Leases.Table Pair Instant) (discovered : List Pair) :
    List (PeerId × Multiaddr × Instant) → Leases.Table Pair Instant × List Pair
  | [] => (discoveredNodes, discovered)
  | (peer, addr, expiration) :: rest =>
      if discoveredNodes.any fun node => node.1.1 == peer && node.1.2 == addr then
        receive (Leases.renew discoveredNodes (peer, addr) expiration) discovered rest
      else
        receive (discoveredNodes ++ [((peer, addr), expiration)])
          (discovered ++ [(peer, addr)]) rest

/-- The closure of `retain`, with the variables it updates. -/
structure Sweep where
  kept : Leases.Table Pair Instant
  closestExpiration : Option Instant
  expired : List Pair

def Sweep.node (now : Instant) (s : Sweep) (node : Pair × Instant) : Sweep :=
  if node.2 ≤ now then { s with expired := s.expired ++ [node.1] }
  else
    { s with
      kept := s.kept ++ [node]
      closestExpiration := some (min (s.closestExpiration.getD node.2) node.2) }

def sweep (now : Instant) (discoveredNodes : Leases.Table Pair Instant) : Sweep :=
  discoveredNodes.foldl (Sweep.node now)
    { kept := [], closestExpiration := none, expired := [] }

def pushEvent (b : Behaviour) (event : List Pair → Event) (pairs : List Pair) : Behaviour :=
  if pairs ≠ [] then { b with eventQueue := b.eventQueue ++ [event pairs] } else b

def rearm (b : Behaviour) (closestExpiration : Option Instant) : Behaviour :=
  match closestExpiration with
  | some closest => { b with closestExpiration := some (Timer.at closest) }
  | none => b

def emit (b : Behaviour) : Behaviour × Option Event :=
  match b.eventQueue with
  | event :: rest => ({ b with eventQueue := rest }, some event)
  | [] => (b, none)

def poll (b : Behaviour) (ifEvents : List IfEvent)
    (received : List (PeerId × Multiaddr × Instant)) (now : Instant) :
    Behaviour × Option Event :=
  let b := ifEvents.foldl handleIfEvent b
  let (discoveredNodes, discovered) := receive b.discoveredNodes [] received
  let b := pushEvent { b with discoveredNodes } .discovered discovered
  let swept := sweep now b.discoveredNodes
  let b := pushEvent { b with discoveredNodes := swept.kept } .expired swept.expired
  emit (rearm b swept.closestExpiration)

def handlePendingOutboundConnection (b : Behaviour) (maybePeer : Option PeerId) :
    List Multiaddr :=
  match maybePeer with
  | none => []
  | some peerId => (b.discoveredNodes.filter fun node => node.1.1 = peerId).map fun node =>
      node.1.2

/-! ## The table as leases -/

def keyed (tuple : PeerId × Multiaddr × Instant) : Pair × Instant :=
  ((tuple.1, tuple.2.1), tuple.2.2)

theorem any_iff_mem_keys (nodes : Leases.Table Pair Instant) (peer : PeerId)
    (addr : Multiaddr) :
    (nodes.any fun node => node.1.1 == peer && node.1.2 == addr) = true ↔
      (peer, addr) ∈ Leases.keys nodes := by
  simp only [List.any_eq_true, Bool.and_eq_true, beq_iff_eq, Leases.keys, List.mem_map,
    Prod.ext_iff]

theorem receive_eq (nodes : Leases.Table Pair Instant) (discovered : List Pair)
    (received : List (PeerId × Multiaddr × Instant)) :
    receive nodes discovered received =
      (Leases.grantAll nodes (received.map keyed),
        discovered ++ Leases.fresh nodes (received.map keyed)) := by
  induction received generalizing nodes discovered with
  | nil => simp [receive, Leases.grantAll, Leases.fresh]
  | cons tuple rest ih =>
      obtain ⟨peer, addr, expiration⟩ := tuple
      have hkeyed : keyed (peer, addr, expiration) = ((peer, addr), expiration) := rfl
      have hgrantAll : ∀ batch, Leases.grantAll nodes (((peer, addr), expiration) :: batch) =
          Leases.grantAll (Leases.grant nodes (peer, addr) expiration) batch := fun _ => rfl
      have hiff := any_iff_mem_keys nodes peer addr
      rw [List.map_cons, hkeyed, hgrantAll]
      unfold receive Leases.fresh Leases.grant
      by_cases h : (peer, addr) ∈ Leases.keys nodes
      · rw [if_pos (hiff.mpr h), if_pos h, if_pos h, ih]
      · rw [if_neg (fun hany => h (hiff.mp hany)), if_neg h, if_neg h, ih,
          List.append_assoc, List.singleton_append]

theorem foldl_sweep (now : Instant) (nodes : Leases.Table Pair Instant) (s : Sweep) :
    (nodes.foldl (Sweep.node now) s).kept = s.kept ++ Leases.retain nodes now ∧
      (nodes.foldl (Sweep.node now) s).expired = s.expired ++ Leases.expired nodes now := by
  induction nodes generalizing s with
  | nil => simp [Leases.retain, Leases.expired]
  | cons node nodes ih =>
      rw [List.foldl_cons, (ih _).1, (ih _).2]
      unfold Sweep.node Leases.retain Leases.expired Leases.keys
      by_cases h : node.2 ≤ now
      · rw [if_pos h, List.filter_cons_of_neg (by simpa using h),
          List.filter_cons_of_pos (by simpa using h)]
        simp
      · rw [if_neg h, List.filter_cons_of_pos (by simpa using h),
          List.filter_cons_of_neg (by simpa using h)]
        simp

theorem sweep_eq (now : Instant) (nodes : Leases.Table Pair Instant) :
    (sweep now nodes).kept = Leases.retain nodes now ∧
      (sweep now nodes).expired = Leases.expired nodes now := by
  have h := foldl_sweep now nodes { kept := [], closestExpiration := none, expired := [] }
  simpa [sweep] using h

end P2pa.Mdns
