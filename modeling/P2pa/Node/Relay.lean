import P2pa.Node.Announce

/-!
# With whom a node shakes hands before it listens via a relay

`handle_listen_via_relay` waits for an identify exchange in both directions.  The events
of all peers arrive on the same stream, and the loop does not look at the peer of one.
-/

namespace P2pa.Node

/-- The event loop, with the events that have arrived since the last command. -/
structure Watch where
  world : World
  heard : List SwarmEvent

def heardAfter (heard : List SwarmEvent) : Act → List SwarmEvent
  | .command _ => []
  | .event _ event => heard ++ [event]
  | _ => heard

def Watch.step (lib : Libp2p) (v : Watch) (a : Act) : Option Watch :=
  (Node.step lib v.world a).map fun world => { world, heard := heardAfter v.heard a }

theorem Watch.run_world (lib : Libp2p) (v : Watch) (acts : List Act) :
    Machine.run (Node.step lib) v.world acts =
      (Machine.run (Watch.step lib) v acts).map Watch.world := by
  have h : Machine.run (Node.step lib) v.world (acts.map id) =
      (Machine.run (Watch.step lib) v acts).map Watch.world := by
    apply Machine.run_map
    intro v a
    unfold Watch.step
    rw [Option.map_map]
    exact (Option.map_id' ..).symm
  rwa [List.map_id] at h

/-! ## Exchanges with the relay -/

section Event

variable {relay : PeerId} {heard : List SwarmEvent} {hs : Handshake}

def observed : SwarmEvent → List Multiaddr
  | .behaviour (.identifyReceived _ observedAddr) => [observedAddr]
  | _ => []

end Event

/-! ## Steps that listen on nothing -/

section Frame

variable {v v' : Watch} {a : Act}

end Frame

/-! ## One step -/

end P2pa.Node
