import Mathlib.Data.Multiset.AddSub
import P2pa.Mdns.Discovery
import P2pa.Mdns.Iface.Limits
import P2pa.Mdns.Iface.Isolation

/-!
# Nodes on a local network

The interface tasks and the behaviours of any number of nodes, and what is in flight between
them.  A packet is multicast: a copy of it is on its way to every interface, and each copy is
delivered at any time, lost or repeated on its own.
-/

namespace P2pa.Mdns.Network

open Utils Wire Iface

structure Host where
  peerId : PeerId
  config : ServiceConfig
  name : String
deriving DecidableEq, Repr

def Host.service (host : Host) : ServiceConfig := host.config.withServiceName host.name

/-- `n` interfaces of `m` nodes. -/
structure Lan (n m : Nat) where
  host : Fin m → Host
  owner : Fin n → Fin m
  /-- Where the datagrams of an interface come from. -/
  source : Fin n → SocketAddr

structure Datagram where
  data : Bytes
  src : SocketAddr
deriving DecidableEq, Repr

/-- What the tasks have put into the channel of a node waits in its inbox. -/
structure Net (n m : Nat) where
  tasks : Fin n → Task
  inFlight : Multiset (Fin n × Datagram)
  inboxes : Fin m → List Discovered
  worlds : Fin m → World

inductive Act (n m : Nat)
  | round (i : Fin n) (r : Iface.Round)
  | lose (copy : Fin n × Datagram)
  | duplicate (copy : Fin n × Datagram)
  | poll (v : Fin m) (ifEvents : List IfEvent) (now : Instant)

def sent : Call → Option Bytes
  | .write packet _ .ok => some packet
  | _ => none

def delivered : Call → Option Datagram
  | .read (.datagram data src) _ => some { data, src }
  | _ => none

section Step

variable (H : Hickory) (lib : Libp2p) {n m : Nat} (lan : Lan n m)

def broadcast (packets : List Bytes) (src : SocketAddr) : Multiset (Fin n × Datagram) :=
  (packets.flatMap fun packet => (List.finRange n).map fun i => (i, { data := packet, src }) :
    List (Fin n × Datagram))

def taken (i : Fin n) (calls : List Call) : Multiset (Fin n × Datagram) :=
  ((calls.filterMap delivered).map fun datagram => (i, datagram) : List (Fin n × Datagram))

def Net.round (net : Net n m) (i : Fin n) (r : Iface.Round) : Option (Net n m) := do
  let o ← (net.tasks i).state.iterate H lib r
  if o.status ≠ .ready ∧ taken i o.calls ≤ net.inFlight then
    some {
      tasks := Function.update net.tasks i
        { state := o.state, calls := (net.tasks i).calls ++ o.calls }
      inFlight := net.inFlight - taken i o.calls +
        broadcast (o.calls.filterMap sent) (lan.source i)
      inboxes := Function.update net.inboxes (lan.owner i)
        (net.inboxes (lan.owner i) ++ o.calls.filterMap Call.accepted)
      worlds := net.worlds }
  else none

/-- A poll of a behaviour takes all that is in its channel. -/
def Net.step (net : Net n m) : Act n m → Option (Net n m)
  | .round i r => net.round H lib lan i r
  | .lose copy =>
      if copy ∈ net.inFlight then some { net with inFlight := net.inFlight.erase copy }
      else none
  | .duplicate copy =>
      if copy ∈ net.inFlight then some { net with inFlight := copy ::ₘ net.inFlight }
      else none
  | .poll v ifEvents now =>
      (Mdns.step (net.worlds v) { ifEvents, received := net.inboxes v, now }).map fun world =>
        { net with
          inboxes := Function.update net.inboxes v []
          worlds := Function.update net.worlds v world }

structure Started (net : Net n m) : Prop where
  calls : ∀ i, (net.tasks i).calls = []
  state : ∀ i, ∃ addr jitter now,
    InterfaceState.new addr (lan.host (lan.owner i)).service (lan.host (lan.owner i)).peerId
      jitter now = some (net.tasks i).state
  inFlight : net.inFlight = 0
  inboxes : ∀ v, net.inboxes v = []
  worlds : ∀ v, net.worlds v =
    Mdns.initial (lan.host v).service.toConfig (lan.host v).peerId

end Step

/-! ## What a step can do -/

section Transition

variable {n m : Nat}

structure Rounded (H : Hickory) (lib : Libp2p) (lan : Lan n m) (net : Net n m) (i : Fin n)
    (r : Iface.Round) (o : Outcome) (net' : Net n m) : Prop where
  iterate : (net.tasks i).state.iterate H lib r = some o
  status : o.status ≠ .ready
  taken : taken i o.calls ≤ net.inFlight
  tasks : net'.tasks = Function.update net.tasks i
    { state := o.state, calls := (net.tasks i).calls ++ o.calls }
  inFlight : net'.inFlight = net.inFlight - Network.taken i o.calls +
    broadcast (o.calls.filterMap sent) (lan.source i)
  inboxes : net'.inboxes = Function.update net.inboxes (lan.owner i)
    (net.inboxes (lan.owner i) ++ o.calls.filterMap Call.accepted)
  worlds : net'.worlds = net.worlds

theorem rounded {H : Hickory} {lib : Libp2p} {lan : Lan n m} {net net' : Net n m} {i : Fin n}
    {r : Iface.Round} (h : net.round H lib lan i r = some net') :
    ∃ o, Rounded H lib lan net i r o net' := by
  obtain ⟨o, ho, h⟩ := Option.bind_eq_some_iff.mp h
  obtain ⟨⟨hstatus, htaken⟩, hnet⟩ := Option.ite_none_right_eq_some.mp h
  cases hnet
  exact ⟨o, ho, hstatus, htaken, rfl, rfl, rfl, rfl⟩

theorem mem_broadcast {packets : List Bytes} {src : SocketAddr} {copy : Fin n × Datagram}
    (h : copy ∈ broadcast packets src) : copy.2.src = src ∧ copy.2.data ∈ packets := by
  obtain ⟨packet, hpacket, hcopy⟩ := List.mem_flatMap.mp (Multiset.mem_coe.mp h)
  obtain ⟨i, -, rfl⟩ := List.mem_map.mp hcopy
  exact ⟨rfl, hpacket⟩

end Transition

/-! ## What a behaviour is told -/

def Notified (world : World) : Prop :=
  ∀ pair, (∃ round ∈ world.rounds, Leases.offers (round.received.map keyed) pair ≠ []) →
    Change.discovered ∈ changes pair world.events

theorem notified_step {world world' : World} {a : Poll} (hagree : Agree world)
    (h : Notified world) (hstep : Mdns.step world a = some world') : Notified world' := by
  obtain ⟨-, hevents, hrounds⟩ := step_spec hstep
  rintro pair ⟨round, hround, hoffers⟩
  rw [hevents, changes_append, List.mem_append]
  rw [hrounds] at hround
  rcases List.mem_append.mp hround with hold | hnew
  · exact .inl (h pair ⟨round, hold, hoffers⟩)
  · rw [List.mem_singleton.mp hnew] at hoffers
    by_cases hpresent : pair ∈ Leases.keys world.behaviour.discoveredNodes
    · exact .inl (List.mem_of_getLast? ((hagree.present pair).mp hpresent))
    · refine .inr ?_
      rw [(poll_pair hagree.nodup a pair).1, if_pos ⟨hpresent, hoffers⟩]
      exact List.mem_append_left _ (List.mem_singleton_self _)

/-! ## The records of a run -/

section Recorded

variable (H : Hickory) (lib : Libp2p)

structure Configured (host : Host) (settings : Settings) : Prop where
  config : settings.config = host.service
  localPeerId : settings.localPeerId = host.peerId
  ttl : settings.ttl = host.config.ttl

/-- What a task has asked for accounts for its buffers, which were empty at its start. -/
def Balanced (task : Task) : Prop :=
  ∃ s : InterfaceState, s.discovered = [] ∧ s.sendBuffer = [] ∧
    Accounted H lib s task.calls task.state

variable {n m : Nat} (lan : Lan n m)

def Sourced (net : Net n m) (datagram : Datagram) : Prop :=
  ∃ j, datagram.src = lan.source j ∧ datagram.data ∈ (net.tasks j).calls.filterMap sent

def Received (net : Net n m) (v : Fin m) (tuple : Discovered) : Prop :=
  tuple ∈ net.inboxes v ∨ ∃ round ∈ (net.worlds v).rounds, tuple ∈ round.received

/-- What holds of the calls and the buffers of the tasks, of what is in flight and of the
channels after any run. -/
structure Recorded (net : Net n m) : Prop where
  configured : ∀ i, Configured (lan.host (lan.owner i)) (net.tasks i).state.toSettings
  balanced : ∀ i, Balanced H lib (net.tasks i)
  inFlight : ∀ copy ∈ net.inFlight, Sourced lan net copy.2
  delivered : ∀ i, ∀ datagram ∈ (net.tasks i).calls.filterMap delivered,
    Sourced lan net datagram
  received : ∀ v tuple, Received net v tuple ↔
    ∃ i, lan.owner i = v ∧ tuple ∈ (net.tasks i).calls.filterMap Call.accepted
  agree : ∀ v, Agree (net.worlds v)
  notified : ∀ v, Notified (net.worlds v)

end Recorded

section Run

variable {H : Hickory} {lib : Libp2p} {n m : Nat} {lan : Lan n m} {net net' : Net n m}

theorem recorded_started (h : Started lan net) : Recorded H lib lan net where
  configured i := by
    obtain ⟨addr, jitter, now, hnew⟩ := h.state i
    obtain ⟨queryInterval, -, hnew⟩ := Option.bind_eq_some_iff.mp hnew
    obtain ⟨timeout, -, hnew⟩ := Option.bind_eq_some_iff.mp hnew
    rw [← Option.some.inj hnew]
    exact ⟨rfl, rfl, rfl⟩
  balanced i := by
    obtain ⟨addr, jitter, now, hnew⟩ := h.state i
    obtain ⟨-, hdiscovered, hsendBuffer⟩ := new_spec hnew
    refine ⟨(net.tasks i).state, hdiscovered, hsendBuffer, ?_⟩
    rw [h.calls i]
    exact .refl _
  inFlight := by
    rw [h.inFlight]
    exact fun copy hcopy => absurd hcopy (Multiset.notMem_zero copy)
  delivered i datagram hdatagram := by
    rw [h.calls i] at hdatagram
    cases hdatagram
  received v tuple := by
    unfold Received
    rw [h.inboxes, h.worlds]
    constructor
    · rintro (hin | ⟨round, hround, -⟩)
      · cases hin
      · cases hround
    · rintro ⟨i, -, haccepted⟩
      rw [h.calls i] at haccepted
      cases haccepted
  agree v := by
    rw [h.worlds]
    exact agree_initial _ _
  notified v := by
    rw [h.worlds]
    rintro pair ⟨round, hround, -⟩
    cases hround

theorem Sourced.mono {datagram : Datagram} (h : Sourced lan net datagram)
    (hcalls : ∀ j, (net.tasks j).calls <+: (net'.tasks j).calls) :
    Sourced lan net' datagram := by
  obtain ⟨j, hsrc, hdata⟩ := h
  exact ⟨j, hsrc, ((hcalls j).sublist.filterMap _).subset hdata⟩

section Rounded

variable {i : Fin n} {r : Iface.Round} {o : Outcome}

theorem Rounded.calls (h : Rounded H lib lan net i r o net') (j : Fin n) :
    (net'.tasks j).calls = (net.tasks j).calls ++ if j = i then o.calls else [] := by
  rw [h.tasks]
  by_cases hj : j = i
  · rw [hj, Function.update_self, if_pos rfl]
  · rw [Function.update_of_ne hj, if_neg hj, List.append_nil]

theorem Rounded.calls_prefix (h : Rounded H lib lan net i r o net') (j : Fin n) :
    (net.tasks j).calls <+: (net'.tasks j).calls := by
  rw [h.calls j]
  exact List.prefix_append _ _

theorem Rounded.accounted (h : Rounded H lib lan net i r o net') :
    Accounted H lib (net.tasks i).state o.calls o.state :=
  (kept_accounted H lib).iterate h.iterate h.status

theorem Rounded.received_iff (h : Rounded H lib lan net i r o net') (v : Fin m)
    (tuple : Discovered) :
    Received net' v tuple ↔ Received net v tuple ∨
      (lan.owner i = v ∧ tuple ∈ o.calls.filterMap Call.accepted) := by
  unfold Received
  rw [h.inboxes, h.worlds]
  by_cases hv : v = lan.owner i
  · rw [hv, Function.update_self, List.mem_append, eq_self_iff_true, true_and]
    exact or_right_comm
  · rw [Function.update_of_ne hv]
    exact (or_iff_left fun h => hv h.1.symm).symm

theorem recorded_rounded (hnet : Recorded H lib lan net)
    (h : Rounded H lib lan net i r o net') : Recorded H lib lan net' where
  configured j := by
    rw [h.tasks]
    by_cases hj : j = i
    · rw [hj, Function.update_self]
      dsimp only
      rw [h.accounted.settings]
      exact hnet.configured i
    · rw [Function.update_of_ne hj]
      exact hnet.configured j
  balanced j := by
    rw [h.tasks]
    by_cases hj : j = i
    · rw [hj, Function.update_self]
      obtain ⟨s, hdiscovered, hsendBuffer, haccounted⟩ := hnet.balanced i
      exact ⟨s, hdiscovered, hsendBuffer, haccounted.trans h.accounted⟩
    · rw [Function.update_of_ne hj]
      exact hnet.balanced j
  inFlight copy hcopy := by
    rw [h.inFlight] at hcopy
    rcases Multiset.mem_add.mp hcopy with hin | hin
    · have hold := Multiset.mem_of_le (Multiset.sub_le_self _ _) hin
      exact (hnet.inFlight copy hold).mono h.calls_prefix
    · obtain ⟨hsrc, hdata⟩ := mem_broadcast hin
      refine ⟨i, hsrc, ?_⟩
      rw [h.calls i, if_pos rfl, List.filterMap_append]
      exact List.mem_append_right _ hdata
  delivered j datagram hdatagram := by
    rw [h.calls j, List.filterMap_append] at hdatagram
    rcases List.mem_append.mp hdatagram with hin | hin
    · exact (hnet.delivered j datagram hin).mono h.calls_prefix
    · by_cases hj : j = i
      · rw [if_pos hj] at hin
        have hflight : (i, datagram) ∈ net.inFlight := by
          apply Multiset.mem_of_le h.taken
          exact Multiset.mem_coe.mpr (List.mem_map_of_mem hin)
        exact (hnet.inFlight _ hflight).mono h.calls_prefix
      · rw [if_neg hj] at hin
        cases hin
  received v tuple := by
    rw [h.received_iff, hnet.received]
    simp only [h.calls, List.filterMap_append, List.mem_append]
    constructor
    · rintro (⟨j, howner, haccepted⟩ | ⟨howner, haccepted⟩)
      · exact ⟨j, howner, .inl haccepted⟩
      · exact ⟨i, howner, .inr (by rwa [if_pos rfl])⟩
    · rintro ⟨j, howner, haccepted | haccepted⟩
      · exact .inl ⟨j, howner, haccepted⟩
      · by_cases hj : j = i
        · rw [if_pos hj] at haccepted
          exact .inr ⟨hj ▸ howner, haccepted⟩
        · rw [if_neg hj] at haccepted
          cases haccepted
  agree v := by
    rw [h.worlds]
    exact hnet.agree v
  notified v := by
    rw [h.worlds]
    exact hnet.notified v

end Rounded

theorem Recorded.of_inFlight (hnet : Recorded H lib lan net)
    {inFlight : Multiset (Fin n × Datagram)} (h : inFlight ⊆ net.inFlight) :
    Recorded H lib lan { net with inFlight } where
  configured := hnet.configured
  balanced := hnet.balanced
  inFlight copy hcopy := hnet.inFlight copy (h hcopy)
  delivered := hnet.delivered
  received := hnet.received
  agree := hnet.agree
  notified := hnet.notified

theorem recorded_poll (hnet : Recorded H lib lan net) {v : Fin m} {ifEvents : List IfEvent}
    {now : Instant} {world : World}
    (hworld : Mdns.step (net.worlds v) { ifEvents, received := net.inboxes v, now } =
      some world) :
    Recorded H lib lan
      { net with
        inboxes := Function.update net.inboxes v []
        worlds := Function.update net.worlds v world } where
  configured := hnet.configured
  balanced := hnet.balanced
  inFlight := hnet.inFlight
  delivered := hnet.delivered
  received u tuple := by
    rw [← hnet.received u tuple]
    unfold Received
    dsimp only
    by_cases hu : u = v
    · obtain ⟨-, -, hrounds⟩ := step_spec hworld
      rw [hu, Function.update_self, Function.update_self, hrounds]
      simp only [List.mem_append, List.mem_singleton, List.not_mem_nil, false_or, or_and_right,
        exists_or, exists_eq_left]
      exact or_comm
    · rw [Function.update_of_ne hu, Function.update_of_ne hu]
  agree u := by
    dsimp only
    by_cases hu : u = v
    · rw [hu, Function.update_self]
      exact agree_step (hnet.agree v) hworld
    · rw [Function.update_of_ne hu]
      exact hnet.agree u
  notified u := by
    dsimp only
    by_cases hu : u = v
    · rw [hu, Function.update_self]
      exact notified_step (hnet.agree v) (hnet.notified v) hworld
    · rw [Function.update_of_ne hu]
      exact hnet.notified u

theorem recorded_step {a : Act n m} (hnet : Recorded H lib lan net)
    (h : net.step H lib lan a = some net') : Recorded H lib lan net' := by
  cases a with
  | round i r =>
      obtain ⟨o, hrounded⟩ := rounded h
      exact recorded_rounded hnet hrounded
  | lose copy =>
      obtain ⟨-, hlost⟩ := Option.ite_none_right_eq_some.mp h
      cases hlost
      exact hnet.of_inFlight (Multiset.erase_subset _ _)
  | duplicate copy =>
      obtain ⟨hcopy, hdoubled⟩ := Option.ite_none_right_eq_some.mp h
      cases hdoubled
      exact hnet.of_inFlight (Multiset.cons_subset.mpr ⟨hcopy, Multiset.Subset.refl _⟩)
  | poll v ifEvents now =>
      unfold Net.step at h
      obtain ⟨world, hworld, hpolled⟩ := Option.map_eq_some_iff.mp h
      rw [← hpolled]
      exact recorded_poll hnet hworld

theorem recorded_of_run {acts : List (Act n m)} (hstarted : Started lan net)
    (hrun : Machine.run (Net.step H lib lan) net acts = some net') :
    Recorded H lib lan net' :=
  Machine.run_invariant (Recorded H lib lan) (fun _ _ _ hnet h => recorded_step hnet h)
    (recorded_started hstarted) hrun

end Run

end P2pa.Mdns.Network
