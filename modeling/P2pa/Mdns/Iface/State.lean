import P2pa.Mdns.Config
import P2pa.Support.Machine

/-!
# The task of a network interface

`behaviours/mdns_bhv/iface.rs`.  What the timer, the sockets, the channel and the
clock answer in one round of the loop of `poll` is a `Round`; an answer the round does
not ask for is not looked at.  `none` is a panic.
-/

namespace P2pa.Mdns.Iface

open Utils Wire

/-- What the task reports: a peer, an address, and when it expires. -/
abbrev Discovered := PeerId × Multiaddr × Instant

/-- The fields `poll` does not change. -/
structure Settings where
  queryInterval : Duration
  multicastAddr : IpAddr
  ttl : Duration
  localPeerId : PeerId
  config : ServiceConfig
deriving DecidableEq, Repr

/-- The first entry of a buffer is its front. -/
structure InterfaceState extends Settings where
  sendBuffer : List Bytes
  timeout : Timer
  discovered : List Discovered
  probeState : ProbeState
deriving DecidableEq, Repr

def recvBufferSize : Nat := 4096

/-- What `poll_read` leaves of a datagram in `recv_buffer`: the socket cuts off the
rest. -/
def received (datagram : Bytes) : Bytes := datagram.take recvBufferSize

/-! ## What the task is answered -/

inductive WriteOutcome
  | ok
  | error
  | pending
deriving DecidableEq, Repr

inductive SendOutcome
  | ok
  | full
  | disconnected
deriving DecidableEq, Repr

/-- `error` is an error of another kind than `WouldBlock`. -/
inductive ReadOutcome
  | datagram (data : Bytes) (src : SocketAddr)
  | wouldBlock
  | error
  | pending
deriving DecidableEq, Repr

/-- What the answer to a packet is made of besides the packet. -/
structure Surroundings where
  now : Instant
  listenAddresses : List Multiaddr
  peerName : Bytes
deriving DecidableEq, Repr

/-- `tick` is the instant and the random id of the query if the timer has fired. -/
structure Round where
  tick : Option (Instant × UInt16)
  write : WriteOutcome
  ready : Bool
  send : SendOutcome
  read : ReadOutcome
  around : Surroundings
deriving DecidableEq, Repr

inductive Call
  | tick (id : UInt16)
  | write (packet : Bytes) (dst : SocketAddr) (outcome : WriteOutcome)
  | send (tuple : Discovered) (outcome : SendOutcome)
  | read (outcome : ReadOutcome) (around : Surroundings)
deriving DecidableEq, Repr

/-- `running` is a call of `poll` that has not returned yet. -/
inductive Status
  | running
  | pending
  | ready
deriving DecidableEq, Repr

/-- Where a stage of the loop leaves the task; without an exit the next stage follows. -/
structure Stage where
  state : InterfaceState
  calls : List Call
  exit : Option Status
deriving DecidableEq, Repr

structure Outcome where
  state : InterfaceState
  calls : List Call
  status : Status
deriving DecidableEq, Repr

def Outcome.after (o : Outcome) (calls : List Call) : Outcome :=
  { o with calls := calls ++ o.calls }

def Stage.andThen (stage : Stage) (next : InterfaceState → Option Outcome) :
    Option Outcome :=
  match stage.exit with
  | some status => some { state := stage.state, calls := stage.calls, status }
  | none => (next stage.state).map fun o => o.after stage.calls

namespace InterfaceState

/-- The sockets are the runtime's business; `jitter` is the random number of
milliseconds. -/
def new (addr : IpAddr) (config : ServiceConfig) (localPeerId : PeerId) (jitter : Fin 100)
    (now : Instant) : Option InterfaceState := do
  let queryInterval ← config.queryInterval.checkedAdd (.fromMillis (UInt64.ofNat jitter))
  let multicastAddr :=
    match addr with
    | .v4 _ => .v4 0xe00000fb
    | .v6 _ => .v6 0xff0200000000000000000000000000fb
  let timeout ← Timer.intervalAt now config.probeInterval
  some {
    sendBuffer := []
    discovered := []
    queryInterval
    timeout
    multicastAddr
    ttl := config.ttl
    probeState := .probing config.probeInterval
    localPeerId
    config }

def resetTimer (s : InterfaceState) (now : Instant) : Option InterfaceState :=
  (Timer.interval now s.probeState.interval).map fun timeout => { s with timeout }

def mdnsSocket (s : InterfaceState) : SocketAddr where
  ip := s.multicastAddr
  port := 5353

/-- The end of probing: `interval * 2` panics if it overflows. -/
def probe (s : InterfaceState) : Option InterfaceState :=
  match s.probeState with
  | .probing interval => (interval.checkedMul 2).map fun twice =>
      { s with
        probeState :=
          if s.queryInterval ≤ twice then .finished s.queryInterval
          else .probing interval }
  | .finished _ => some s

def tick (s : InterfaceState) (r : Round) : Option Stage :=
  match r.tick with
  | none => some { state := s, calls := [], exit := none }
  | some (now, id) => do
      let packet ← buildQuery id s.config.serviceName
      let s ← probe { s with sendBuffer := s.sendBuffer ++ [packet] }
      let s ← s.resetTimer now
      some { state := s, calls := [.tick id], exit := none }

def write (s : InterfaceState) (r : Round) : Stage :=
  match s.sendBuffer with
  | [] => { state := s, calls := [], exit := none }
  | packet :: rest =>
      let s := { s with sendBuffer := rest }
      let calls := [.write packet s.mdnsSocket r.write]
      match r.write with
      | .ok => { state := s, calls, exit := some .running }
      | .error => { state := s, calls, exit := some .running }
      | .pending =>
          let s := { s with sendBuffer := packet :: s.sendBuffer }
          { state := s, calls, exit := none }

/-- The third stage.  A tuple the channel is too full for goes back to the front. -/
def send (s : InterfaceState) (r : Round) : Stage :=
  if r.ready then
    match s.discovered with
    | [] => { state := s, calls := [], exit := none }
    | tuple :: rest =>
        let s := { s with discovered := rest }
        let calls := [.send tuple r.send]
        match r.send with
        | .ok => { state := s, calls, exit := some .running }
        | .disconnected => { state := s, calls, exit := some .ready }
        | .full =>
            let s := { s with discovered := tuple :: s.discovered }
            { state := s, calls, exit := some .running }
  else { state := s, calls := [], exit := none }

end InterfaceState

section Loop

variable (H : Hickory) (lib : Libp2p)

def Settings.parse (settings : Settings) (data : Bytes) (src : SocketAddr) :
    Except Unit (Option MdnsPacket) :=
  MdnsPacket.newFromBytes H lib (received data) src settings.config.serviceNameFqdn
    settings.config.metaQueryServiceFqdn

namespace InterfaceState

def handlePacket (s : InterfaceState) (around : Surroundings) :
    MdnsPacket → Option InterfaceState
  | .query query => do
      let packets ← buildQueryResponse lib query.queryId s.localPeerId
        around.listenAddresses s.ttl s.config.serviceName around.peerName
      some { s with sendBuffer := s.sendBuffer ++ packets }
  | .response response =>
      let s := { s with
        discovered := s.discovered ++
          response.extractDiscovered lib around.now s.localPeerId }
      if s.discovered ≠ [] then
        { s with probeState := .finished s.queryInterval }.resetTimer around.now
      else some s
  | .serviceDiscovery discovery => do
      let packet ← buildServiceDiscoveryResponse discovery.queryId s.ttl
        s.config.serviceName s.config.metaQueryService
      some { s with sendBuffer := s.sendBuffer ++ [packet] }

/-- The fourth stage: only a packet that has been handled brings the loop back to its
start. -/
def read (s : InterfaceState) (r : Round) : Option Outcome :=
  let calls := [.read r.read r.around]
  let asleep : Outcome := { state := s, calls, status := .pending }
  match r.read with
  | .datagram data src =>
      match s.parse H lib data src with
      | .ok (some packet) => (s.handlePacket lib r.around packet).map fun s =>
          { state := s, calls, status := .running }
      | .ok none => some asleep
      | .error _ => some asleep
  | .wouldBlock => some asleep
  | .error => some asleep
  | .pending => some asleep

def iterate (s : InterfaceState) (r : Round) : Option Outcome := do
  let ticked ← s.tick r
  ticked.andThen fun s => (s.write r).andThen fun s => (s.send r).andThen fun s =>
    s.read H lib r

/-- A call of `poll` is still running where the rounds end before it returns. -/
def poll (s : InterfaceState) : List Round → Option Outcome
  | [] => some { state := s, calls := [], status := .running }
  | r :: rounds => do
      let o ← s.iterate H lib r
      match o.status with
      | .running => (poll o.state rounds).map fun p => p.after o.calls
      | .pending => some o
      | .ready => some o

end InterfaceState

structure Task where
  state : InterfaceState
  calls : List Call

/-- A call of `poll`, or a part of one.  Nothing follows the end of the task. -/
def Task.step (task : Task) (rounds : List Round) : Option Task :=
  match task.state.poll H lib rounds with
  | some o =>
      match o.status with
      | .ready => none
      | .running => some { state := o.state, calls := task.calls ++ o.calls }
      | .pending => some { state := o.state, calls := task.calls ++ o.calls }
  | none => none

theorem step_eq_some {task task' : Task} {rounds : List Round}
    (h : task.step H lib rounds = some task') :
    ∃ o, task.state.poll H lib rounds = some o ∧ o.status ≠ .ready ∧
      task' = { state := o.state, calls := task.calls ++ o.calls } := by
  unfold Task.step at h
  cases hpoll : task.state.poll H lib rounds with
  | none => simp [hpoll] at h
  | some o =>
      rw [hpoll] at h
      cases hstatus : o.status with
      | running => simpa [hstatus, eq_comm] using h
      | pending => simpa [hstatus, eq_comm] using h
      | ready => simp [hstatus] at h

/-! ## What a tick can do -/

inductive Ticked (s : InterfaceState) (r : Round) : Stage → Prop
  | idle (htick : r.tick = none) : Ticked s r { state := s, calls := [], exit := none }
  | fired (now : Instant) (id : UInt16) (packet : Bytes) (probed armed : InterfaceState)
      (htick : r.tick = some (now, id))
      (hpacket : buildQuery id s.config.serviceName = some packet)
      (hprobed : InterfaceState.probe { s with sendBuffer := s.sendBuffer ++ [packet] } =
        some probed)
      (harmed : probed.resetTimer now = some armed) :
      Ticked s r { state := armed, calls := [.tick id], exit := none }

omit H lib in
theorem ticked {s : InterfaceState} {r : Round} {stage : Stage} (h : s.tick r = some stage) :
    Ticked s r stage := by
  unfold InterfaceState.tick at h
  split at h
  · rename_i htick
    cases h
    exact .idle htick
  · rename_i now id htick
    obtain ⟨packet, hpacket, h⟩ := Option.bind_eq_some_iff.mp h
    obtain ⟨probed, hprobed, h⟩ := Option.bind_eq_some_iff.mp h
    obtain ⟨armed, harmed, h⟩ := Option.bind_eq_some_iff.mp h
    cases h
    exact .fired now id packet probed armed htick hpacket hprobed harmed

/-! ## What every stage keeps -/

/-- A relation between a state, what the task then asks for, and the state after it,
that each stage keeps unless it ends the task. -/
structure Kept (R : InterfaceState → List Call → InterfaceState → Prop) : Prop where
  refl : ∀ s, R s [] s
  trans : ∀ {s t u : InterfaceState} {a b : List Call}, R s a t → R t b u → R s (a ++ b) u
  tick : ∀ {s : InterfaceState} {r : Round} {stage : Stage},
    s.tick r = some stage → R s stage.calls stage.state
  write : ∀ (s : InterfaceState) (r : Round), R s (s.write r).calls (s.write r).state
  send : ∀ (s : InterfaceState) (r : Round), (s.send r).exit ≠ some .ready →
    R s (s.send r).calls (s.send r).state
  read : ∀ {s : InterfaceState} {r : Round} {o : Outcome},
    s.read H lib r = some o → R s o.calls o.state

namespace Kept

variable {H lib} {R : InterfaceState → List Call → InterfaceState → Prop}

theorem andThen (hR : Kept H lib R) {s : InterfaceState} {stage : Stage}
    {next : InterfaceState → Option Outcome} {o : Outcome}
    (hstage : stage.exit ≠ some .ready → R s stage.calls stage.state)
    (hnext : ∀ {p}, next stage.state = some p → p.status ≠ .ready →
      R stage.state p.calls p.state)
    (h : stage.andThen next = some o) (ho : o.status ≠ .ready) : R s o.calls o.state := by
  unfold Stage.andThen at h
  cases hexit : stage.exit with
  | some status =>
      rw [hexit] at h hstage
      cases h
      exact hstage (fun heq => ho (Option.some.inj heq))
  | none =>
      rw [hexit] at h hstage
      obtain ⟨p, hp, rfl⟩ := Option.map_eq_some_iff.mp h
      exact hR.trans (hstage (by simp)) (hnext hp ho)

theorem iterate (hR : Kept H lib R) {s : InterfaceState} {r : Round} {o : Outcome}
    (h : s.iterate H lib r = some o) (ho : o.status ≠ .ready) : R s o.calls o.state := by
  obtain ⟨ticked, hticked, h⟩ := Option.bind_eq_some_iff.mp h
  refine hR.andThen (fun _ => hR.tick hticked) (fun hwrite hp => ?_) h ho
  refine hR.andThen (fun _ => hR.write _ r) (fun hsend hp => ?_) hwrite hp
  exact hR.andThen (hR.send _ r) (fun hread _ => hR.read hread) hsend hp

theorem poll (hR : Kept H lib R) {rounds : List Round} {s : InterfaceState} {o : Outcome}
    (h : s.poll H lib rounds = some o) (ho : o.status ≠ .ready) : R s o.calls o.state := by
  induction rounds generalizing s o with
  | nil =>
      cases h
      exact hR.refl s
  | cons r rounds ih =>
      obtain ⟨first, hfirst, h⟩ := Option.bind_eq_some_iff.mp h
      cases hstatus : first.status with
      | running =>
          rw [hstatus] at h
          obtain ⟨p, hp, rfl⟩ := Option.map_eq_some_iff.mp h
          have hhead := hR.iterate hfirst (by rw [hstatus]; decide)
          exact hR.trans hhead (ih hp ho)
      | pending =>
          rw [hstatus] at h
          cases h
          exact hR.iterate hfirst ho
      | ready =>
          rw [hstatus] at h
          cases h
          exact hR.iterate hfirst ho

/-- Along the calls of `poll` until the end of the task. -/
theorem run (hR : Kept H lib R) {polls : List (List Round)} {task task' : Task}
    (h : Machine.run (Task.step H lib) task polls = some task') :
    ∃ calls, task'.calls = task.calls ++ calls ∧ R task.state calls task'.state := by
  induction polls generalizing task with
  | nil =>
      cases h
      exact ⟨[], (List.append_nil _).symm, hR.refl _⟩
  | cons rounds polls ih =>
      obtain ⟨mid, hmid, h⟩ := Option.bind_eq_some_iff.mp h
      obtain ⟨o, ho, hstatus, rfl⟩ := step_eq_some H lib hmid
      obtain ⟨calls, hcalls, hrest⟩ := ih h
      refine ⟨o.calls ++ calls, ?_, hR.trans (hR.poll ho hstatus) hrest⟩
      rw [hcalls, List.append_assoc]

end Kept

end Loop

/-! ## An interface and a round -/

def sampleIp : IpAddr := .v4 0xc0a80001

def sampleConfig : ServiceConfig := ServiceConfig.default.withServiceName ""

def Round.quiet : Round where
  tick := none
  write := .pending
  ready := false
  send := .full
  read := .pending
  around := { now := 0, listenAddresses := [], peerName := [] }

end P2pa.Mdns.Iface
