import P2pa.Mdns.Iface.Lengths
import P2pa.Mdns.Iface.State

/-!
# The encoder's own size limits

`MAX_TXT_RECORD_SIZE` leaves 45 bytes for a record besides its text, enough for a random
peer name of 32 characters and for no longer one.  The number of records of a packet is
computed from it.
-/

namespace P2pa.Mdns.Iface

open Utils Wire

/-- What `generate_peer_name` draws: 32 to 63 letters and digits. -/
structure IsPeerName (name : Bytes) : Prop where
  length : 32 ≤ name.length ∧ name.length ≤ 63
  alphanumeric : ∀ b ∈ name, isAlphanumeric b = true

/-! ## The length of a text in a record -/

/-- A text with a space is put into quotes, with a backslash before each quote and each
backslash. -/
def writtenLength (text : Bytes) : Nat :=
  if 32 ∈ text then text.length + 2 + text.countP (fun b => b = 92 || b = 34)
  else text.length

theorem length_escape (text : Bytes) :
    (escape text).length = text.length + text.countP fun b => b = 92 || b = 34 := by
  unfold escape
  induction text with
  | nil => rfl
  | cons b text ih =>
      rw [List.flatMap_cons, List.length_append, ih, List.length_cons, List.countP_cons]
      by_cases hslash : b = 92
      · subst hslash
        simp
        omega
      · by_cases hquote : b = 34
        · subst hquote
          simp
          omega
        · simp [hslash, hquote]
          omega

theorem length_quoted (value : String) :
    (quoted value).length = writtenLength (bytes value) := by
  unfold quoted writtenLength
  by_cases hspace : 32 ∈ bytes value
  · rw [if_neg (not_not.mpr hspace), if_pos hspace, List.length_append, List.length_cons,
      length_escape, List.length_singleton]
    omega
  · rw [if_pos hspace, if_neg hspace]

/-! ## Records -/

theorem appendTxtRecord_eq_ok {out name out' : Bytes} {ttl : UInt32} {value : String}
    (h : appendTxtRecord out name ttl value = .ok out') :
    Encodable value ∧ out' = out ++ recordBytes name ttl value := by
  by_cases henc : Encodable value = true
  · rw [appendTxtRecord_of_encodable out name ttl henc] at h
    exact ⟨henc, (Except.ok.inj h).symm⟩
  · obtain ⟨e, he⟩ := appendTxtRecord_of_not_encodable out name ttl henc
    rw [he] at h
    cases h

/-- The limit is the one on the name and the text together. -/
theorem txtRecord_le_iff {name peerName out out' : Bytes} {ttl : UInt32} {value : String}
    (hpeer : generatePeerName name = some peerName) (hspace : 32 ∉ bytes value)
    (h : appendTxtRecord out peerName ttl value = .ok out') :
    out'.length ≤ out.length + maxTxtRecordSize ↔
      name.length + (bytes value).length ≤ 287 := by
  have hname := length_appendQname hpeer
  have hrecord := length_recordBytes peerName ttl value
  have hmax : maxTxtRecordSize = 300 := rfl
  rw [length_quoted, writtenLength, if_neg hspace] at hrecord
  rw [(appendTxtRecord_eq_ok h).2, List.length_append, hmax]
  rw [List.length_nil] at hname
  omega

/-! ## The limits -/

theorem responseLength_eq (lib : Libp2p) (peerId : PeerId) (serviceName name : Bytes)
    (group : List Multiaddr) :
    responseLength lib peerId serviceName name group =
      26 + serviceName.length + name.length +
        (group.map fun addr =>
          name.length + 13 + writtenLength (bytes (txtToSend lib peerId addr))).sum := by
  unfold responseLength
  simp only [length_quoted]

/-- A text record keeps its limit exactly when the peer's random text and the text have
287 bytes together.  The packets of a response keep theirs exactly when the texts of each
batch are short enough for the name of the service and the peer's random text. -/
theorem size_limits_iff {name peerName : Bytes}
    (hpeer : generatePeerName name = some peerName) :
    (∀ (out : Bytes) (ttl : UInt32) (value : String) (out' : Bytes), 32 ∉ bytes value →
      appendTxtRecord out peerName ttl value = .ok out' →
        (out'.length ≤ out.length + maxTxtRecordSize ↔
          name.length + (bytes value).length ≤ 287)) ∧
    ∀ (lib : Libp2p) (id : UInt16) (peerId : PeerId) (addresses : List Multiaddr)
      (ttl : Duration) (serviceName : Bytes) (packets : List Bytes),
      buildQueryResponse lib id peerId addresses ttl serviceName name = some packets →
        ((∀ packet ∈ packets, packet.length ≤ maxPacketSize) ↔
          ∀ k < packetCount (announced lib peerId addresses),
            26 + serviceName.length + name.length +
              ((group (announced lib peerId addresses) k).map fun addr =>
                name.length + 13 +
                  writtenLength (bytes (txtToSend lib peerId addr))).sum ≤
              maxPacketSize) := by
  constructor
  · intro out ttl value out' hspace h
    exact txtRecord_le_iff hpeer hspace h
  · intro lib id peerId addresses ttl serviceName packets h
    rw [buildQueryResponse_le_iff h maxPacketSize]
    simp only [responseLength_eq]

/-! ## A peer with a long host name -/

def longPeerName : Bytes := List.replicate 63 97

def longHost : String :=
  String.ofList (List.replicate 60 'a' ++ '.' :: List.replicate 60 'a' ++
    '.' :: List.replicate 59 'a')

theorem isPeerName_long : IsPeerName longPeerName where
  length := by decide
  alphanumeric b hb := by
    rw [List.eq_of_mem_replicate hb]
    rfl

def hostPorts (n : Nat) : List Multiaddr :=
  (List.range n).map fun i => [.other "dns4" longHost, .tcp (UInt16.ofNat (5000 + i))]

def hostLibp2p : Libp2p :=
  { sampleLibp2p with
    multiaddrToString := fun addr =>
      match addr with
      | [.other "dns4" host, .tcp port] =>
          "/dns4/" ++ host ++ "/tcp/" ++ toString port.toNat
      | _ => "" }

def longText : String :=
  txtToSend hostLibp2p samplePeerId [.other "dns4" longHost, .tcp 5000]

theorem size_limits_iff_long :
    ∃ peerName, generatePeerName longPeerName = some peerName ∧
      (∀ (out : Bytes) (ttl : UInt32) (value : String) (out' : Bytes), 32 ∉ bytes value →
        appendTxtRecord out peerName ttl value = .ok out' →
          (out'.length ≤ out.length + maxTxtRecordSize ↔
            longPeerName.length + (bytes value).length ≤ 287)) ∧
      ∀ (lib : Libp2p) (id : UInt16) (peerId : PeerId) (addresses : List Multiaddr)
        (ttl : Duration) (serviceName : Bytes) (packets : List Bytes),
        buildQueryResponse lib id peerId addresses ttl serviceName longPeerName =
            some packets →
          ((∀ packet ∈ packets, packet.length ≤ maxPacketSize) ↔
            ∀ k < packetCount (announced lib peerId addresses),
              26 + serviceName.length + longPeerName.length +
                ((group (announced lib peerId addresses) k).map fun addr =>
                  longPeerName.length + 13 +
                    writtenLength (bytes (txtToSend lib peerId addr))).sum ≤
                maxPacketSize) := by
  have hsome : (generatePeerName longPeerName).isSome = true := by decide
  obtain ⟨peerName, hpeer⟩ := Option.isSome_iff_exists.mp hsome
  exact ⟨peerName, hpeer, size_limits_iff hpeer⟩

/-- A record of 331 bytes, and a packet of 9703 with twenty-nine of them. -/
theorem size_limits_fails :
    IsPeerName longPeerName ∧ (qname sampleConfig.serviceName).length ≤ 60 ∧
      ∃ peerName, generatePeerName longPeerName = some peerName ∧
        (∃ record, 32 ∉ bytes longText ∧
          appendTxtRecord [] peerName 300 longText = .ok record ∧
            maxTxtRecordSize < record.length) ∧
        ∃ packets, buildQueryResponse hostLibp2p 7 samplePeerId (hostPorts 29)
            (.fromSecs 300) sampleConfig.serviceName longPeerName = some packets ∧
          ∃ packet ∈ packets, maxPacketSize < packet.length := by
  have hlengths : (buildQueryResponse hostLibp2p 7 samplePeerId (hostPorts 29)
      (.fromSecs 300) sampleConfig.serviceName longPeerName).map
        (List.map List.length) = some [9703] := by
    decide +kernel
  obtain ⟨packets, hpackets, hlength⟩ := Option.map_eq_some_iff.mp hlengths
  obtain ⟨packet, hpacket, hlong⟩ := List.mem_map.mp
    (show 9703 ∈ packets.map List.length by rw [hlength]; simp)
  have hpeer : (generatePeerName longPeerName).isSome = true := by decide
  obtain ⟨peerName, hpeer⟩ := Option.isSome_iff_exists.mp hpeer
  have hspace : 32 ∉ bytes longText := by decide +kernel
  have hrecord := appendTxtRecord_of_encodable [] peerName 300
    (show Encodable longText by decide +kernel)
  refine ⟨isPeerName_long, by decide, peerName, hpeer,
    ⟨_, hspace, hrecord, ?_⟩, packets, hpackets, packet, hpacket, ?_⟩
  · have hname := length_appendQname hpeer
    have htext : (bytes longText).length = 255 := by decide +kernel
    have hmax : maxTxtRecordSize = 300 := rfl
    have hlong : longPeerName.length = 63 := rfl
    rw [List.nil_append, length_recordBytes, length_quoted, writtenLength, if_neg hspace]
    rw [List.length_nil] at hname
    omega
  · rw [hlong]
    decide

end P2pa.Mdns.Iface
