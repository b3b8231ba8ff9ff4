import P2pa.Mdns.Iface.RoundTrip
import P2pa.Mdns.Iface.State
import P2pa.Support.Fifo

/-!
# The buffers of an interface task

What the task reads is what it reports, and what it is asked for is what it sends: in
order, nothing lost and nothing repeated, as long as the channel to the behaviour is
connected.
-/

namespace P2pa.Mdns.Iface

open Utils Wire Fifo

/-! ## The ledger of a run -/

section Ledger

variable (H : Hickory) (lib : Libp2p) (settings : Settings)

namespace Call

def accepted : Call → Option Discovered
  | send tuple .ok => some tuple
  | _ => none

/-- A write that failed is completed too: the packet is not sent again. -/
def completed : Call → Option Bytes
  | write packet _ .ok => some packet
  | write packet _ .error => some packet
  | _ => none

def packet : Call → Option MdnsPacket
  | read (.datagram data src) _ =>
      match settings.parse H lib data src with
      | .ok packet => packet
      | .error _ => none
  | _ => none

def extracted (call : Call) : List Discovered :=
  match call, call.packet H lib settings with
  | read _ around, some (.response response) =>
      response.extractDiscovered lib around.now settings.localPeerId
  | _, _ => []

/-- The packets a call makes the task build; `none` is a panic. -/
def built (call : Call) : Option (List Bytes) :=
  match call, call.packet H lib settings with
  | tick id, _ => (buildQuery id settings.config.serviceName).map fun packet => [packet]
  | read _ around, some (.query query) =>
      buildQueryResponse lib query.queryId settings.localPeerId around.listenAddresses
        settings.ttl settings.config.serviceName around.peerName
  | read _ _, some (.serviceDiscovery discovery) =>
      (buildServiceDiscoveryResponse discovery.queryId settings.ttl
        settings.config.serviceName settings.config.metaQueryService).map fun packet =>
          [packet]
  | _, _ => some []

def enqueued (call : Call) : List Bytes := (call.built H lib settings).getD []

end Call

structure Accounted (s : InterfaceState) (calls : List Call) (t : InterfaceState) :
    Prop where
  settings : t.toSettings = s.toSettings
  built : ∀ call ∈ calls, (call.built H lib s.toSettings).isSome
  discovered : Conserves s.discovered (calls.flatMap (Call.extracted H lib s.toSettings))
    (calls.filterMap Call.accepted) t.discovered
  sendBuffer : Conserves s.sendBuffer (calls.flatMap (Call.enqueued H lib s.toSettings))
    (calls.filterMap Call.completed) t.sendBuffer

/-- What a read makes the task build depends on the packet only. -/
theorem built_read (outcome : ReadOutcome) (around : Surroundings) :
    (Call.read outcome around).built H lib settings =
      match (Call.read outcome around).packet H lib settings with
      | some (.query query) =>
          buildQueryResponse lib query.queryId settings.localPeerId around.listenAddresses
            settings.ttl settings.config.serviceName around.peerName
      | some (.serviceDiscovery discovery) =>
          (buildServiceDiscoveryResponse discovery.queryId settings.ttl
            settings.config.serviceName settings.config.metaQueryService).map fun packet =>
              [packet]
      | _ => some [] := by
  unfold Call.built
  split <;> simp_all

theorem extracted_read (outcome : ReadOutcome) (around : Surroundings) :
    (Call.read outcome around).extracted H lib settings =
      match (Call.read outcome around).packet H lib settings with
      | some (.response response) =>
          response.extractDiscovered lib around.now settings.localPeerId
      | _ => [] := by
  unfold Call.extracted
  split <;> simp_all

end Ledger

/-! ## What a stage changes -/

/-- The fields other than the timer and the state of the probing are the same. -/
structure SameBuffers (s t : InterfaceState) : Prop where
  settings : t.toSettings = s.toSettings
  discovered : t.discovered = s.discovered
  sendBuffer : t.sendBuffer = s.sendBuffer

theorem sameBuffers_resetTimer {s t : InterfaceState} {now : Instant}
    (h : s.resetTimer now = some t) : SameBuffers s t := by
  obtain ⟨timeout, -, rfl⟩ := Option.map_eq_some_iff.mp h
  exact ⟨rfl, rfl, rfl⟩

theorem sameBuffers_probe {s t : InterfaceState} (h : s.probe = some t) :
    SameBuffers s t := by
  unfold InterfaceState.probe at h
  split at h
  · obtain ⟨twice, -, rfl⟩ := Option.map_eq_some_iff.mp h
    exact ⟨rfl, rfl, rfl⟩
  · cases h
    exact ⟨rfl, rfl, rfl⟩

section Stages

variable {H : Hickory} {lib : Libp2p} {s t u : InterfaceState} {a b : List Call}

theorem isSome_of_built {call : Call} {packets : List Bytes}
    (h : call.built H lib s.toSettings = some packets) :
    ∀ c ∈ [call], (c.built H lib s.toSettings).isSome := by
  intro c hc
  rw [List.mem_singleton.mp hc, h]
  rfl

theorem Accounted.refl (s : InterfaceState) : Accounted H lib s [] s where
  settings := rfl
  built := by simp
  discovered := Conserves.refl _
  sendBuffer := Conserves.refl _

theorem Accounted.trans (h₁ : Accounted H lib s a t) (h₂ : Accounted H lib t b u) :
    Accounted H lib s (a ++ b) u where
  settings := h₂.settings.trans h₁.settings
  built := by
    intro call hcall
    rcases List.mem_append.mp hcall with hin | hin
    · exact h₁.built call hin
    · rw [← h₁.settings]
      exact h₂.built call hin
  discovered := by
    have hrest := h₂.discovered
    rw [h₁.settings] at hrest
    rw [List.flatMap_append, List.filterMap_append]
    exact h₁.discovered.trans hrest
  sendBuffer := by
    have hrest := h₂.sendBuffer
    rw [h₁.settings] at hrest
    rw [List.flatMap_append, List.filterMap_append]
    exact h₁.sendBuffer.trans hrest

theorem Accounted.of_entered {call : Call} {packets : List Bytes}
    (hsettings : t.toSettings = s.toSettings)
    (hbuilt : call.built H lib s.toSettings = some packets)
    (haccepted : call.accepted = none) (hcompleted : call.completed = none)
    (hdiscovered : t.discovered = s.discovered ++ call.extracted H lib s.toSettings)
    (hsendBuffer : t.sendBuffer = s.sendBuffer ++ packets) :
    Accounted H lib s [call] t where
  settings := hsettings
  built := isSome_of_built hbuilt
  discovered := by
    rw [List.flatMap_singleton, List.filterMap_cons, haccepted, hdiscovered]
    exact Conserves.enter _ _
  sendBuffer := by
    rw [List.flatMap_singleton, List.filterMap_cons, hcompleted, hsendBuffer,
      Call.enqueued, hbuilt]
    exact Conserves.enter _ _

theorem accounted_tick {r : Round} {stage : Stage} (h : s.tick r = some stage) :
    Accounted H lib s stage.calls stage.state := by
  cases ticked h with
  | idle _ => exact .refl s
  | fired now id packet probed armed _ hpacket hprobed harmed =>
      have hprobe := sameBuffers_probe hprobed
      have harm := sameBuffers_resetTimer harmed
      have hbuilt : (Call.tick id).built H lib s.toSettings = some [packet] := by
        change (buildQuery id s.config.serviceName).map _ = _
        rw [hpacket]
        rfl
      refine .of_entered (harm.settings.trans hprobe.settings) hbuilt rfl rfl ?_ ?_
      · rw [harm.discovered, hprobe.discovered]
        exact (List.append_nil _).symm
      · rw [harm.sendBuffer, hprobe.sendBuffer]

theorem accounted_write (s : InterfaceState) (r : Round) :
    Accounted H lib s (s.write r).calls (s.write r).state := by
  unfold InterfaceState.write
  cases hbuffer : s.sendBuffer with
  | nil => exact .refl s
  | cons packet rest =>
      cases hwrite : r.write with
      | ok =>
          refine ⟨rfl, isSome_of_built rfl, Conserves.refl _, ?_⟩
          rw [hbuffer]
          exact Conserves.leave _ _
      | error =>
          refine ⟨rfl, isSome_of_built rfl, Conserves.refl _, ?_⟩
          rw [hbuffer]
          exact Conserves.leave _ _
      | pending =>
          refine ⟨rfl, isSome_of_built rfl, Conserves.refl _, ?_⟩
          rw [hbuffer]
          exact Conserves.refl _

theorem accounted_send (s : InterfaceState) (r : Round)
    (hexit : (s.send r).exit ≠ some .ready) :
    Accounted H lib s (s.send r).calls (s.send r).state := by
  unfold InterfaceState.send at hexit ⊢
  by_cases hready : r.ready = true
  · rw [if_pos hready] at hexit ⊢
    cases hbuffer : s.discovered with
    | nil => exact .refl s
    | cons tuple rest =>
        rw [hbuffer] at hexit
        cases hsend : r.send with
        | ok =>
            refine ⟨rfl, isSome_of_built rfl, ?_, Conserves.refl _⟩
            rw [hbuffer]
            exact Conserves.leave _ _
        | disconnected =>
            rw [hsend] at hexit
            exact absurd rfl hexit
        | full =>
            refine ⟨rfl, isSome_of_built rfl, ?_, Conserves.refl _⟩
            rw [hbuffer]
            exact Conserves.refl _
  · rw [if_neg hready]
    exact .refl s

theorem read_cases {r : Round} {o : Outcome} (h : s.read H lib r = some o) :
    o.calls = [.read r.read r.around] ∧
      ((Call.read r.read r.around).packet H lib s.toSettings = none ∧ o.state = s ∨
        ∃ packet, (Call.read r.read r.around).packet H lib s.toSettings = some packet ∧
          s.handlePacket lib r.around packet = some o.state) := by
  unfold InterfaceState.read at h
  dsimp only at h
  cases hread : r.read with
  | datagram data src =>
      rw [hread] at h
      dsimp only at h
      unfold Call.packet
      dsimp only
      cases hparse : s.parse H lib data src with
      | error e =>
          rw [hparse] at h
          cases h
          exact ⟨rfl, .inl ⟨rfl, rfl⟩⟩
      | ok packet =>
          rw [hparse] at h
          cases packet with
          | none =>
              cases h
              exact ⟨rfl, .inl ⟨rfl, rfl⟩⟩
          | some packet =>
              obtain ⟨handled, hhandled, rfl⟩ := Option.map_eq_some_iff.mp h
              exact ⟨rfl, .inr ⟨packet, rfl, hhandled⟩⟩
  | wouldBlock =>
      rw [hread] at h
      cases h
      exact ⟨rfl, .inl ⟨rfl, rfl⟩⟩
  | error =>
      rw [hread] at h
      cases h
      exact ⟨rfl, .inl ⟨rfl, rfl⟩⟩
  | pending =>
      rw [hread] at h
      cases h
      exact ⟨rfl, .inl ⟨rfl, rfl⟩⟩

theorem accounted_handlePacket {outcome : ReadOutcome} {around : Surroundings}
    {packet : MdnsPacket}
    (hpacket : (Call.read outcome around).packet H lib s.toSettings = some packet)
    (h : s.handlePacket lib around packet = some t) :
    Accounted H lib s [.read outcome around] t := by
  have hbuilt := built_read H lib s.toSettings outcome around
  have hextracted := extracted_read H lib s.toSettings outcome around
  rw [hpacket] at hbuilt hextracted
  cases packet with
  | query query =>
      obtain ⟨packets, hpackets, h⟩ := Option.bind_eq_some_iff.mp h
      cases h
      exact .of_entered rfl (hbuilt.trans hpackets) rfl rfl
        (by rw [hextracted, List.append_nil]) rfl
  | response response =>
      unfold InterfaceState.handlePacket at h
      dsimp only at h
      split at h
      · have hreset := sameBuffers_resetTimer h
        refine .of_entered hreset.settings hbuilt rfl rfl ?_ ?_
        · rw [hreset.discovered, hextracted]
        · rw [hreset.sendBuffer, List.append_nil]
      · cases h
        exact .of_entered rfl hbuilt rfl rfl (by rw [hextracted]) (List.append_nil _).symm
  | serviceDiscovery discovery =>
      obtain ⟨answer, hanswer, h⟩ := Option.bind_eq_some_iff.mp h
      cases h
      have hone : (buildServiceDiscoveryResponse discovery.queryId s.ttl s.config.serviceName
          s.config.metaQueryService).map (fun packet => [packet]) = some [answer] := by
        rw [hanswer]
        rfl
      exact .of_entered rfl (hbuilt.trans hone) rfl rfl
        (by rw [hextracted, List.append_nil]) rfl

/-- A read that hands out no packet leaves the buffers alone. -/
theorem accounted_of_packet_none {outcome : ReadOutcome} {around : Surroundings}
    (h : (Call.read outcome around).packet H lib s.toSettings = none) :
    Accounted H lib s [.read outcome around] s := by
  refine .of_entered rfl ?_ rfl rfl ?_ (List.append_nil _).symm
  · rw [built_read, h]
  · rw [extracted_read, h, List.append_nil]

theorem accounted_read {r : Round} {o : Outcome} (h : s.read H lib r = some o) :
    Accounted H lib s o.calls o.state := by
  obtain ⟨hcalls, hcases⟩ := read_cases h
  rw [hcalls]
  rcases hcases with ⟨hnone, hstate⟩ | ⟨packet, hpacket, hhandled⟩
  · rw [hstate]
    exact accounted_of_packet_none hnone
  · exact accounted_handlePacket hpacket hhandled

theorem kept_accounted (H : Hickory) (lib : Libp2p) :
    Kept H lib (Accounted H lib) where
  refl := .refl
  trans := .trans
  tick := accounted_tick
  write := accounted_write
  send := accounted_send
  read := accounted_read

end Stages

/-! ## Runs -/

theorem accounted_of_run {H : Hickory} {lib : Libp2p} {s : InterfaceState}
    {polls : List (List Round)} {task : Task}
    (h : Machine.run (Task.step H lib) { state := s, calls := [] } polls = some task) :
    Accounted H lib s task.calls task.state := by
  obtain ⟨calls, hcalls, haccounted⟩ := (kept_accounted H lib).run h
  rw [hcalls]
  exact haccounted

theorem new_spec {addr : IpAddr} {config : ServiceConfig} {localPeerId : PeerId}
    {jitter : Fin 100} {now : Instant} {s : InterfaceState}
    (h : InterfaceState.new addr config localPeerId jitter now = some s) :
    s.config = config ∧ s.discovered = [] ∧ s.sendBuffer = [] := by
  obtain ⟨queryInterval, -, h⟩ := Option.bind_eq_some_iff.mp h
  obtain ⟨timeout, -, h⟩ := Option.bind_eq_some_iff.mp h
  cases h
  exact ⟨rfl, rfl, rfl⟩

/-- As long as the channel is connected, in every state a new task gets to: what the
channel has accepted and what is still to be reported are the tuples extracted from the
responses read; the packets whose write is completed and those still to be sent are the
packets built for the ticks, the queries and the service discoveries; both in order. -/
theorem buffers_conserve (H : Hickory) (lib : Libp2p) {addr : IpAddr}
    {config : ServiceConfig} {localPeerId : PeerId} {jitter : Fin 100} {now : Instant}
    {s : InterfaceState} (hnew : InterfaceState.new addr config localPeerId jitter now = some s)
    {polls : List (List Round)} {task : Task}
    (hrun : Machine.run (Task.step H lib) { state := s, calls := [] } polls = some task) :
    task.calls.filterMap Call.accepted ++ task.state.discovered =
        task.calls.flatMap (Call.extracted H lib s.toSettings) ∧
      task.calls.filterMap Call.completed ++ task.state.sendBuffer =
        task.calls.flatMap (Call.enqueued H lib s.toSettings) ∧
      ∀ call ∈ task.calls, (call.built H lib s.toSettings).isSome := by
  have haccounted := accounted_of_run hrun
  obtain ⟨-, hdiscovered, hsendBuffer⟩ := new_spec hnew
  have hfound := haccounted.discovered
  have hpackets := haccounted.sendBuffer
  rw [hdiscovered] at hfound
  rw [hsendBuffer] at hpackets
  exact ⟨hfound.of_empty, hpackets.of_empty, haccounted.built⟩

theorem buffers_conserve_sample :
    ∃ s task, InterfaceState.new sampleIp sampleConfig samplePeerId 0 0 = some s ∧
      Machine.run (Task.step Hickory.plain sampleLibp2p) { state := s, calls := [] }
        [[{ Round.quiet with tick := some (0, 7) }],
          [{ Round.quiet with write := .ok }, Round.quiet]] = some task ∧
      task.calls.filterMap Call.accepted ++ task.state.discovered =
        task.calls.flatMap (Call.extracted Hickory.plain sampleLibp2p s.toSettings) ∧
      task.calls.filterMap Call.completed ++ task.state.sendBuffer =
        task.calls.flatMap (Call.enqueued Hickory.plain sampleLibp2p s.toSettings) ∧
      ∀ call ∈ task.calls, (call.built Hickory.plain sampleLibp2p s.toSettings).isSome := by
  have hrun : ((InterfaceState.new sampleIp sampleConfig samplePeerId 0 0).bind fun s =>
      Machine.run (Task.step Hickory.plain sampleLibp2p) { state := s, calls := [] }
        [[{ Round.quiet with tick := some (0, 7) }],
          [{ Round.quiet with write := .ok }, Round.quiet]]).isSome = true := by
    decide
  obtain ⟨task, htask⟩ := Option.isSome_iff_exists.mp hrun
  obtain ⟨s, hnew, hrun⟩ := Option.bind_eq_some_iff.mp htask
  exact ⟨s, task, hnew, hrun, buffers_conserve Hickory.plain sampleLibp2p hnew hrun⟩

end P2pa.Mdns.Iface
