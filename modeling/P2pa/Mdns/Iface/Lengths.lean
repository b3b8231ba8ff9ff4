import P2pa.Mdns.Iface.Packets

/-!
# How long packets are

The length of each packet is that of its fixed fields and of the names and texts it
carries.
-/

namespace P2pa.Mdns.Iface

open Utils Wire

@[simp] theorem length_appendU16 (out : Bytes) (v : UInt16) :
    (appendU16 out v).length = out.length + 2 := by
  rw [appendU16_eq, List.length_append, length_u16]

@[simp] theorem length_appendU32 (out : Bytes) (v : UInt32) :
    (appendU32 out v).length = out.length + 4 := by
  rw [appendU32_eq, List.length_append, length_u32]

theorem length_buildQuery {id : UInt16} {serviceName packet : Bytes}
    (h : buildQuery id serviceName = some packet) :
    packet.length = 18 + serviceName.length := by
  obtain ⟨out, hout, h⟩ := Option.bind_eq_some_iff.mp h
  cases h
  have hlength := length_appendQname hout
  simp only [length_appendU16, List.length_nil] at hlength ⊢
  omega

theorem length_buildServiceDiscoveryResponse {id : UInt16} {ttl : Duration}
    {serviceName metaQueryService packet : Bytes}
    (h : buildServiceDiscoveryResponse id ttl serviceName metaQueryService = some packet) :
    packet.length = 26 + serviceName.length + metaQueryService.length := by
  obtain ⟨out, hout, h⟩ := Option.bind_eq_some_iff.mp h
  obtain ⟨name, hname, h⟩ := Option.bind_eq_some_iff.mp h
  cases h
  have hlength := length_appendQname hout
  have hservice := length_appendQname hname
  simp only [length_appendU16, length_appendU32, List.length_append,
    List.length_nil] at hlength hservice ⊢
  omega

theorem length_queryResponsePacket {id : UInt16} {peerName : Bytes} {records : List Bytes}
    {ttl : UInt32} {serviceName packet : Bytes}
    (h : queryResponsePacket id peerName records ttl serviceName = some packet) :
    packet.length = 24 + serviceName.length + peerName.length + records.flatten.length := by
  obtain ⟨out, hout, h⟩ := Option.bind_eq_some_iff.mp h
  cases h
  have hlength := length_appendQname hout
  simp only [length_appendU16, length_appendU32, List.length_append,
    List.length_nil] at hlength ⊢
  omega

theorem length_recordBytes (name : Bytes) (ttl : UInt32) (value : String) :
    (recordBytes name ttl value).length = name.length + 11 + (quoted value).length := by
  unfold recordBytes txtData
  simp only [List.length_append, length_u16, length_u32, List.length_cons]
  omega

/-! ## Responses -/

section Response

variable (lib : Libp2p) (peerId : PeerId)

/-- The length of the packet for a group of addresses, with the text of the service
name and the random text the peer is named by. -/
def responseLength (serviceName name : Bytes) (group : List Multiaddr) : Nat :=
  26 + serviceName.length + name.length +
    (group.map fun addr => name.length + 13 +
      (quoted (txtToSend lib peerId addr)).length).sum

theorem length_flatten_addressBytes {name peerName : Bytes}
    (hname : generatePeerName name = some peerName) (ttl : UInt32)
    (group : List Multiaddr) :
    (group.map (addressBytes lib peerId peerName ttl)).flatten.length =
      (group.map fun addr => name.length + 13 +
        (quoted (txtToSend lib peerId addr)).length).sum := by
  have hpeer := length_appendQname hname
  rw [List.length_flatten, List.map_map]
  congr 1
  apply List.map_congr_left
  intro addr _
  have hrecord := length_recordBytes peerName ttl (txtToSend lib peerId addr)
  simp only [Function.comp_apply, addressBytes, List.length_nil] at hpeer hrecord ⊢
  omega

theorem length_response {id : UInt16} {name peerName serviceName packet : Bytes}
    (hname : generatePeerName name = some peerName) {ttl : UInt32}
    {group : List Multiaddr}
    (h : queryResponsePacket id peerName
      (group.map (addressBytes lib peerId peerName ttl)) ttl serviceName = some packet) :
    packet.length = responseLength lib peerId serviceName name group := by
  have hpeer := length_appendQname hname
  have hpacket := length_queryResponsePacket h
  rw [length_flatten_addressBytes lib peerId hname] at hpacket
  unfold responseLength
  rw [List.length_nil] at hpeer
  omega

theorem exists_builds {serviceName : Bytes} (hservice : IsQname serviceName) (id : UInt16)
    (peerName : Bytes) (ttl : UInt32) :
    ∃ packetOf, Builds lib id peerId peerName ttl serviceName packetOf := by
  have hsome : ∀ records, ∃ packet,
      queryResponsePacket id peerName records ttl serviceName = some packet := by
    intro records
    unfold queryResponsePacket
    dsimp only
    rw [hservice.appendQname_eq]
    exact ⟨_, rfl⟩
  choose packetOf hpacket using hsome
  exact ⟨fun group => packetOf (group.map (addressBytes lib peerId peerName ttl)),
    fun group => hpacket _⟩

end Response

/-! ## Limits on packets -/

section Limits

variable {lib : Libp2p} {id : UInt16} {peerId : PeerId} {serviceName : Bytes}

theorem queryResponsePacket_of_not_isQname (h : ¬ IsQname serviceName) (peerName : Bytes)
    (records : List Bytes) (ttl : UInt32) :
    queryResponsePacket id peerName records ttl serviceName = none := by
  have hnone : ∀ out, appendQname out serviceName = none := by
    intro out
    cases happend : appendQname out serviceName with
    | none => rfl
    | some out' => exact absurd (appendQname_eq_some_iff.mp happend).1 h
  unfold queryResponsePacket
  dsimp only
  rw [hnone]
  rfl

theorem packRecords_packets {peerName : Bytes} {ttl : UInt32}
    (hnone : ∀ records, queryResponsePacket id peerName records ttl serviceName = none)
    {addrs : List Multiaddr} {packets packets' records records' : List Bytes}
    (h : packRecords lib id peerId peerName ttl serviceName addrs packets records =
      some (packets', records')) : packets' = packets := by
  induction addrs generalizing records with
  | nil =>
      cases h
      rfl
  | cons addr rest ih =>
      rw [packRecords] at h
      split at h
      · rw [hnone] at h
        cases h
      · exact ih h

section Built

variable {addresses : List Multiaddr} {ttl : Duration} {name : Bytes} {packets : List Bytes}
  (h : buildQueryResponse lib id peerId addresses ttl serviceName name = some packets)

include h

theorem isQname_of_buildQueryResponse : IsQname serviceName := by
  by_contra hservice
  obtain ⟨peerName, -, h⟩ := Option.bind_eq_some_iff.mp h
  obtain ⟨⟨⟩, -, h⟩ := Option.bind_eq_some_iff.mp h
  obtain ⟨⟨built, records⟩, hpack, h⟩ := Option.bind_eq_some_iff.mp h
  have hnone : ∀ records, queryResponsePacket id peerName records (durationToSecs ttl)
      serviceName = none :=
    fun records => queryResponsePacket_of_not_isQname hservice _ _ _
  have hbuilt := packRecords_packets hnone hpack
  subst hbuilt
  dsimp only at h
  split at h
  · rw [hnone] at h
    cases h
  · rw [Option.bind_eq_bind, Option.bind_some, if_pos rfl, hnone] at h
    cases h

/-- The packets keep a limit exactly when the packet of each group does. -/
theorem buildQueryResponse_le_iff (limit : Nat) :
    (∀ packet ∈ packets, packet.length ≤ limit) ↔
      ∀ k < packetCount (announced lib peerId addresses),
        responseLength lib peerId serviceName name
          (group (announced lib peerId addresses) k) ≤ limit := by
  have hservice := isQname_of_buildQueryResponse h
  obtain ⟨peerName, hname, hrest⟩ := Option.bind_eq_some_iff.mp h
  obtain ⟨⟨⟩, hguard, -⟩ := Option.bind_eq_some_iff.mp hrest
  have hlen : peerName.length ≤ 0xffff := by
    by_contra hlong
    rw [guard, if_neg hlong] at hguard
    cases hguard
  obtain ⟨packetOf, hbuilds⟩ :=
    exists_builds lib peerId hservice id peerName (durationToSecs ttl)
  rw [buildQueryResponse_eq lib id peerId peerName serviceName hname hlen hbuilds] at h
  cases h
  have hlength : ∀ group, (packetOf group).length =
      responseLength lib peerId serviceName name group := fun group =>
    length_response lib peerId hname (hbuilds group)
  simp only [List.forall_mem_map, List.mem_range, hlength]

end Built

end Limits

end P2pa.Mdns.Iface
