import P2pa.Mdns.Iface.Buffers
import P2pa.Mdns.Iface.Lengths

/-!
# What a peer can receive whole

A datagram longer than the receive buffer is cut.  Queries and service discoveries are
short enough; the packets of a response are bounded by a number of records, and fit
only if the texts of the addresses are short enough.
-/

namespace P2pa.Mdns.Iface

open Utils Wire

theorem received_eq_self_iff (packet : Bytes) :
    received packet = packet ↔ packet.length ≤ recvBufferSize :=
  List.take_eq_self_iff packet

/-! ## One response -/

section Response

variable (lib : Libp2p) (peerId : PeerId)

/-- Each batch of announced addresses makes a packet that fits the receive buffer.
`name` is the random text the peer is named by. -/
def Fits (serviceName name : Bytes) (addresses : List Multiaddr) : Prop :=
  ∀ k < packetCount (announced lib peerId addresses),
    responseLength lib peerId serviceName name (group (announced lib peerId addresses) k) ≤
      recvBufferSize

end Response

/-! ## The names of a service -/

theorem IsHostName.length_le {text : Bytes} (h : IsHostName text) : text.length ≤ 253 := by
  have hsum := sum_splitOn text
  have hle := h.encoded_le
  omega

theorem length_metaQueryService (config : ServiceConfig) (name : String) :
    (config.withServiceName name).metaQueryService.length =
      (config.withServiceName name).serviceName.length + 13 := by
  have hservice : (bytes "_p2p._udp.local").length = 15 := by decide
  have hmeta : (bytes "_services._dns-sd._udp.local").length = 28 := by decide
  unfold ServiceConfig.withServiceName
  dsimp only
  rw [bytes_append, bytes_append, List.length_append, List.length_append, hservice, hmeta]

/-! ## Runs -/

section Runs

variable (H : Hickory) (lib : Libp2p)

def Call.fits (settings : Settings) (call : Call) : Prop :=
  match call, call.packet H lib settings with
  | read _ around, some (.query _) =>
      Fits lib settings.localPeerId settings.config.serviceName around.peerName
        around.listenAddresses
  | _, _ => True

theorem call_fits_iff {settings : Settings}
    (hshort : 26 + settings.config.serviceName.length +
      settings.config.metaQueryService.length ≤ recvBufferSize)
    {call : Call} (hbuilt : (call.built H lib settings).isSome) :
    (∀ packet ∈ call.enqueued H lib settings, packet.length ≤ recvBufferSize) ↔
      call.fits H lib settings := by
  obtain ⟨packets, hpackets⟩ := Option.isSome_iff_exists.mp hbuilt
  unfold Call.enqueued
  rw [hpackets, Option.getD_some]
  cases call with
  | tick id =>
      obtain ⟨packet, hpacket, rfl⟩ := Option.map_eq_some_iff.mp hpackets
      have hlength := length_buildQuery hpacket
      have hle : packet.length ≤ recvBufferSize := by omega
      exact iff_of_true (by simpa using hle) trivial
  | write packet dst outcome =>
      cases hpackets
      exact iff_of_true (by simp) trivial
  | send tuple outcome =>
      cases hpackets
      exact iff_of_true (by simp) trivial
  | read outcome around =>
      rw [built_read] at hpackets
      unfold Call.fits
      cases hread : (Call.read outcome around).packet H lib settings with
      | none =>
          rw [hread] at hpackets
          cases hpackets
          exact iff_of_true (by simp) trivial
      | some packet =>
          rw [hread] at hpackets
          cases packet with
          | query query => exact buildQueryResponse_le_iff hpackets recvBufferSize
          | response response =>
              cases hpackets
              exact iff_of_true (by simp) trivial
          | serviceDiscovery discovery =>
              obtain ⟨packet, hpacket, rfl⟩ := Option.map_eq_some_iff.mp hpackets
              have hlength := length_buildServiceDiscoveryResponse hpacket
              have hle : packet.length ≤ recvBufferSize := by omega
              exact iff_of_true (by simpa using hle) trivial

/-- In every state a new task gets to, a peer receives whole every packet the task has
sent or is about to send, exactly when each query it has read is answered with batches of
addresses that are short enough. -/
theorem datagrams_fit_iff {addr : IpAddr} {config : ServiceConfig} {name : String}
    {localPeerId : PeerId} {jitter : Fin 100} {now : Instant} {s : InterfaceState}
    (hname : IsHostName (config.withServiceName name).serviceName)
    (hnew : InterfaceState.new addr (config.withServiceName name) localPeerId jitter now =
      some s)
    {polls : List (List Round)} {task : Task}
    (hrun : Machine.run (Task.step H lib) { state := s, calls := [] } polls = some task) :
    (∀ packet ∈ task.calls.filterMap Call.completed ++ task.state.sendBuffer,
        received packet = packet) ↔
      ∀ call ∈ task.calls, call.fits H lib s.toSettings := by
  have haccounted := accounted_of_run hrun
  have hpackets := haccounted.sendBuffer
  obtain ⟨hconfig, -, hsendBuffer⟩ := new_spec hnew
  rw [hsendBuffer] at hpackets
  have hlength := hname.length_le
  have hmeta := length_metaQueryService config name
  have hbuffer : recvBufferSize = 4096 := rfl
  rw [hpackets.of_empty]
  simp only [received_eq_self_iff, List.forall_mem_flatMap]
  apply forall₂_congr
  intro call hcall
  apply call_fits_iff H lib _ (haccounted.built call hcall)
  rw [hconfig, hmeta]
  omega

end Runs

/-! ## Twenty-nine addresses -/

def samplePorts (n : Nat) : List Multiaddr :=
  (List.range n).map fun i => [.ip4 0x01020304, .tcp (UInt16.ofNat (5000 + i))]

def portsLibp2p : Libp2p :=
  { sampleLibp2p with
    multiaddrToString := fun addr =>
      match addr with
      | [.ip4 0x01020304, .tcp port] => "/ip4/1.2.3.4/tcp/" ++ toString port.toNat
      | _ => "" }

def sampleQuery : Bytes :=
  [0, 7, 0, 0, 0, 1, 0, 0, 0, 0, 0, 0, 4, 95, 112, 50, 112, 4, 95, 117, 100, 112, 5, 108, 111,
    99, 97, 108, 0, 0, 12, 0, 1]

def queryRound (n : Nat) : Round :=
  { Round.quiet with
    read := .datagram sampleQuery ⟨.v4 0x01020305, 5353⟩
    around := { now := 0, listenAddresses := samplePorts n, peerName := List.replicate 63 97 } }

theorem isHostName_sampleConfig : IsHostName sampleConfig.serviceName :=
  ⟨by decide, by decide, by decide⟩

theorem datagrams_fit_iff_two :
    ∃ s task, InterfaceState.new sampleIp sampleConfig samplePeerId 0 0 = some s ∧
      Machine.run (Task.step Hickory.plain portsLibp2p) { state := s, calls := [] }
        [[queryRound 2]] = some task ∧
      ((∀ packet ∈ task.calls.filterMap Call.completed ++ task.state.sendBuffer,
          received packet = packet) ↔
        ∀ call ∈ task.calls, call.fits Hickory.plain portsLibp2p s.toSettings) := by
  have hrun : ((InterfaceState.new sampleIp sampleConfig samplePeerId 0 0).bind fun s =>
      Machine.run (Task.step Hickory.plain portsLibp2p) { state := s, calls := [] }
        [[queryRound 2]]).isSome = true := by
    decide +kernel
  obtain ⟨task, htask⟩ := Option.isSome_iff_exists.mp hrun
  obtain ⟨s, hnew, hrun⟩ := Option.bind_eq_some_iff.mp htask
  exact ⟨s, task, hnew, hrun,
    datagrams_fit_iff Hickory.plain portsLibp2p isHostName_sampleConfig hnew hrun⟩

/-- A peer that listens on twenty-nine ports answers with one packet of 4628 bytes. -/
theorem datagrams_fit_fails :
    (samplePorts 29).Nodup ∧ IsHostName sampleConfig.serviceName ∧
      ∃ s task packet, InterfaceState.new sampleIp sampleConfig samplePeerId 0 0 = some s ∧
        Machine.run (Task.step Hickory.plain portsLibp2p) { state := s, calls := [] }
          [[queryRound 29]] = some task ∧
        packet ∈ task.state.sendBuffer ∧ received packet ≠ packet := by
  have hlengths : (((InterfaceState.new sampleIp sampleConfig samplePeerId 0 0).bind fun s =>
      Machine.run (Task.step Hickory.plain portsLibp2p) { state := s, calls := [] }
        [[queryRound 29]]).map fun task => task.state.sendBuffer.map List.length) =
          some [4628] := by
    decide +kernel
  obtain ⟨task, htask, hbuffer⟩ := Option.map_eq_some_iff.mp hlengths
  obtain ⟨s, hnew, hrun⟩ := Option.bind_eq_some_iff.mp htask
  obtain ⟨packet, hpacket, hlength⟩ := List.mem_map.mp
    (show 4628 ∈ task.state.sendBuffer.map List.length by rw [hbuffer]; simp)
  refine ⟨by decide, ⟨by decide, by decide, by decide⟩, s, task, packet, hnew, hrun, hpacket,
    fun heq => ?_⟩
  have hle := (received_eq_self_iff packet).mp heq
  rw [hlength] at hle
  exact absurd hle (by decide)

end P2pa.Mdns.Iface
