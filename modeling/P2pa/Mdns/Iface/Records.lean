import P2pa.Mdns.Iface.Dns
import P2pa.Support.Batch

/-!
# The records of a response and their batches

The bytes of a text record, and the packets `build_query_response` returns: one for
each batch of announced addresses.  Nothing is assumed of the texts of the addresses.
-/

namespace P2pa.Mdns.Iface

open Utils Wire Batch

/-! ## Integers -/

theorem byte_of_shift (n k : Nat) : (n >>> k &&& 255) % 256 = n / 2 ^ k % 256 := by
  have hmask : n >>> k &&& 255 = n >>> k % 256 := Nat.and_two_pow_sub_one_eq_mod (n >>> k) 8
  calc
    (n >>> k &&& 255) % 256 = n >>> k % 256 % 256 := by rw [hmask]
    _ = n >>> k % 256 := Nat.mod_mod _ _
    _ = n / 2 ^ k % 256 := by rw [Nat.shiftRight_eq_div_pow]

theorem byte16_of_shift (v : UInt16) {k : Nat} (hk : k < 16) :
    ((v >>> UInt16.ofNat k) &&& 0xff).toUInt8 = UInt8.ofNat (v.toNat / 2 ^ k) := by
  have hk' : (UInt16.ofNat k).toNat % 16 = k := by
    rw [UInt16.toNat_ofNat']
    omega
  apply UInt8.toNat_inj.mp
  rw [UInt16.toNat_toUInt8, UInt16.toNat_and, UInt16.toNat_shiftRight, UInt8.toNat_ofNat',
    hk']
  exact byte_of_shift v.toNat k

theorem byte32_of_shift (v : UInt32) {k : Nat} (hk : k < 32) :
    ((v >>> UInt32.ofNat k) &&& 0xff).toUInt8 = UInt8.ofNat (v.toNat / 2 ^ k) := by
  have hk' : (UInt32.ofNat k).toNat % 32 = k := by
    rw [UInt32.toNat_ofNat']
    omega
  apply UInt8.toNat_inj.mp
  rw [UInt32.toNat_toUInt8, UInt32.toNat_and, UInt32.toNat_shiftRight, UInt8.toNat_ofNat',
    hk']
  exact byte_of_shift v.toNat k

theorem appendU16_eq (out : Bytes) (v : UInt16) : appendU16 out v = out ++ u16 v := by
  have hhigh := byte16_of_shift v (show 8 < 16 by omega)
  have hlow := byte16_of_shift v (show 0 < 16 by omega)
  rw [Nat.pow_zero, Nat.div_one] at hlow
  unfold appendU16 u16
  rw [← hlow, show v.toNat / 256 = v.toNat / 2 ^ 8 from rfl, ← hhigh]
  simp

theorem appendU32_eq (out : Bytes) (v : UInt32) : appendU32 out v = out ++ u32 v := by
  have h24 := byte32_of_shift v (show 24 < 32 by omega)
  have h16 := byte32_of_shift v (show 16 < 32 by omega)
  have h8 := byte32_of_shift v (show 8 < 32 by omega)
  have h0 := byte32_of_shift v (show 0 < 32 by omega)
  rw [Nat.pow_zero, Nat.div_one] at h0
  unfold appendU32 u32
  rw [← h0, show v.toNat / 16777216 = v.toNat / 2 ^ 24 from rfl, ← h24,
    show v.toNat / 65536 = v.toNat / 2 ^ 16 from rfl, ← h16,
    show v.toNat / 256 = v.toNat / 2 ^ 8 from rfl, ← h8]
  simp

/-! ## Text records -/

def Encodable (value : String) : Bool :=
  isAscii (bytes value) && (bytes value).length ≤ maxTxtValueLength

def Announced (lib : Libp2p) (peerId : PeerId) (addr : Multiaddr) : Bool :=
  Encodable (txtToSend lib peerId addr)

def quoted (value : String) : Bytes :=
  if 32 ∉ bytes value then bytes value else 34 :: escape (bytes value) ++ [34]

def txtData (value : String) : Bytes := UInt8.ofNat (bytes value).length :: quoted value

def recordBytes (name : Bytes) (ttl : UInt32) (value : String) : Bytes :=
  name ++ u16 16 ++ u16 0x8001 ++ u32 ttl ++ u16 (UInt16.ofNat (txtData value).length) ++
    txtData value

theorem appendTxtRecord_of_encodable {value : String} (out name : Bytes) (ttl : UInt32)
    (h : Encodable value) :
    appendTxtRecord out name ttl value = .ok (out ++ recordBytes name ttl value) := by
  have hascii : isAscii (bytes value) = true := (Bool.and_eq_true_iff.mp h).1
  have hlen : (bytes value).length ≤ maxTxtValueLength := by
    simpa using (Bool.and_eq_true_iff.mp h).2
  have hstring : appendCharacterString [UInt8.ofNat (bytes value).length] value =
      .ok (txtData value) := by
    unfold appendCharacterString txtData quoted
    rw [hascii, if_neg (by simp)]
    by_cases hspace : 32 ∉ bytes value
    · rw [if_pos hspace, if_pos hspace]
      rfl
    · rw [if_neg hspace, if_neg hspace]
      rfl
  unfold appendTxtRecord
  dsimp only
  rw [if_neg (by omega), hstring]
  change Except.ok _ = Except.ok _
  have htype : [0x00, 0x10, 0x80, 0x01] = u16 16 ++ u16 0x8001 := rfl
  unfold recordBytes
  rw [appendU32_eq, appendU16_eq, htype]
  simp only [List.append_assoc]

theorem appendTxtRecord_of_not_encodable {value : String} (out name : Bytes) (ttl : UInt32)
    (h : ¬ Encodable value) : ∃ e, appendTxtRecord out name ttl value = .error e := by
  unfold appendTxtRecord
  dsimp only
  by_cases hlen : (bytes value).length > maxTxtValueLength
  · rw [if_pos hlen]
    exact ⟨_, rfl⟩
  · have hascii : isAscii (bytes value) = false := by
      by_contra hne
      apply h
      simp only [Bool.not_eq_false] at hne
      simp only [Encodable, hne, Bool.true_and, decide_eq_true_eq]
      omega
    rw [if_neg hlen]
    unfold appendCharacterString
    rw [hascii]
    exact ⟨_, rfl⟩

section Response

variable (lib : Libp2p) (id : UInt16) (peerId : PeerId) (peerName : Bytes)
  (ttl : UInt32) (serviceName : Bytes)

def addressBytes (addr : Multiaddr) : Bytes :=
  recordBytes peerName ttl (txtToSend lib peerId addr)

theorem recordsOf_eq (addr : Multiaddr) :
    recordsOf lib peerId peerName ttl addr =
      if Announced lib peerId addr then [addressBytes lib peerId peerName ttl addr]
      else [] := by
  unfold recordsOf Announced
  by_cases h : Encodable (txtToSend lib peerId addr)
  · rw [appendTxtRecord_of_encodable [] peerName ttl h, if_pos h]
    rfl
  · obtain ⟨e, he⟩ := appendTxtRecord_of_not_encodable [] peerName ttl h
    rw [he, if_neg h]

/-! ## Batches -/

def announced (addresses : List Multiaddr) : List Multiaddr :=
  (addresses.take 65535).filter (Announced lib peerId)

def group (entries : List Multiaddr) (k : Nat) : List Multiaddr :=
  batch maxRecordsPerPacket entries k

theorem length_group_le (entries : List Multiaddr) (k : Nat) :
    (group entries k).length ≤ maxRecordsPerPacket := length_batch_le _ _ _

theorem mem_of_mem_group {entries : List Multiaddr} {k : Nat} {addr : Multiaddr}
    (h : addr ∈ group entries k) : addr ∈ entries := mem_of_mem_batch h

/-- There is a packet also where no address is announced. -/
def packetCount (entries : List Multiaddr) : Nat :=
  max 1 ((entries.length + (maxRecordsPerPacket - 1)) / maxRecordsPerPacket)

theorem flatMap_group (entries : List Multiaddr) :
    (List.range (packetCount entries)).flatMap (group entries) = entries := by
  have hmax : maxRecordsPerPacket = 29 := by decide
  have hle : entries.length ≤ maxRecordsPerPacket * packetCount entries := by
    unfold packetCount
    rw [hmax]
    omega
  exact (flatMap_range_batch _ _ entries).trans (List.take_of_length_le hle)

def Builds (packetOf : List Multiaddr → Bytes) : Prop :=
  ∀ group, queryResponsePacket id peerName
    (group.map (addressBytes lib peerId peerName ttl)) ttl serviceName =
      some (packetOf group)

/-- The loop hands out a packet each time a batch is full.  `pending` are the
addresses whose records wait when the loop begins. -/
theorem packRecords_eq {packetOf : List Multiaddr → Bytes}
    (hpacket : Builds lib id peerId peerName ttl serviceName packetOf)
    (addrs : List Multiaddr) (packets : List Bytes) (pending : List Multiaddr)
    (hpending : pending.length < maxRecordsPerPacket) {entries : List Multiaddr}
    (hentries : pending ++ addrs.filter (Announced lib peerId) = entries) :
    packRecords lib id peerId peerName ttl serviceName addrs packets
        (pending.map (addressBytes lib peerId peerName ttl)) =
      some (packets ++ (List.range (entries.length / maxRecordsPerPacket)).map fun k =>
          packetOf (group entries k),
        (entries.drop (maxRecordsPerPacket * (entries.length / maxRecordsPerPacket))).map
          (addressBytes lib peerId peerName ttl)) := by
  induction addrs generalizing packets pending entries with
  | nil =>
      rw [List.filter_nil, List.append_nil] at hentries
      subst hentries
      rw [Nat.div_eq_of_lt hpending]
      simp [packRecords]
  | cons addr addrs ih =>
      rw [packRecords, recordsOf_eq]
      by_cases hann : Announced lib peerId addr = true
      · have hrecords : pending.map (addressBytes lib peerId peerName ttl) ++
            [addressBytes lib peerId peerName ttl addr] =
            (pending ++ [addr]).map (addressBytes lib peerId peerName ttl) := by
          rw [List.map_append, List.map_singleton]
        rw [List.filter_cons_of_pos hann, List.append_cons] at hentries
        rw [if_pos hann, hrecords]
        by_cases hfull : (pending ++ [addr]).length = maxRecordsPerPacket
        · have hcount : entries.length / maxRecordsPerPacket =
              (addrs.filter (Announced lib peerId)).length / maxRecordsPerPacket + 1 := by
            rw [← hentries, List.length_append, hfull,
              Nat.add_div_left _ (by decide : 0 < maxRecordsPerPacket)]
          have hrest := ih (packets ++ [packetOf (pending ++ [addr])]) [] (by decide) rfl
          rw [List.map_nil] at hrest
          rw [if_pos (by rw [List.length_map, hfull]), hpacket, Option.bind_eq_bind,
            Option.bind_some, hrest, hcount, List.range_succ_eq_map, List.map_cons,
            List.map_map, ← hentries, drop_append_succ _ _ hfull, List.append_assoc,
            List.singleton_append]
          unfold group
          rw [batch_append_zero _ hfull]
          congr 4
          apply List.map_congr_left
          intro k _
          exact congrArg packetOf (batch_append_succ _ k hfull).symm
        · have hlt : (pending ++ [addr]).length < maxRecordsPerPacket := by
            rw [List.length_append, List.length_singleton] at hfull ⊢
            omega
          rw [if_neg (by rwa [List.length_map])]
          exact ih packets (pending ++ [addr]) hlt hentries
      · rw [List.filter_cons_of_neg hann] at hentries
        rw [if_neg hann, List.append_nil, if_neg (by rw [List.length_map]; omega)]
        exact ih packets pending hpending hentries

theorem packetCount_of_rest_nil {entries : List Multiaddr} (hne : entries ≠ [])
    (h : entries.drop (maxRecordsPerPacket * (entries.length / maxRecordsPerPacket)) = []) :
    packetCount entries = entries.length / maxRecordsPerPacket := by
  have hmax : maxRecordsPerPacket = 29 := by decide
  have hpos := List.length_pos_iff.mpr hne
  have hle := List.drop_eq_nil_iff.mp h
  unfold packetCount
  rw [hmax] at hle ⊢
  omega

theorem packetCount_of_rest {entries : List Multiaddr}
    (h : entries.drop (maxRecordsPerPacket * (entries.length / maxRecordsPerPacket)) ≠ []) :
    packetCount entries = entries.length / maxRecordsPerPacket + 1 := by
  have hmax : maxRecordsPerPacket = 29 := by decide
  have hlt : ¬ entries.length ≤ _ := fun hle => h (List.drop_eq_nil_iff.mpr hle)
  unfold packetCount
  rw [hmax] at hlt ⊢
  omega

theorem buildQueryResponse_eq {name : Bytes} {duration : Duration}
    {packetOf : List Multiaddr → Bytes} (hname : generatePeerName name = some peerName)
    (hlen : peerName.length ≤ 0xffff)
    (hpacket : Builds lib id peerId peerName (durationToSecs duration) serviceName packetOf)
    (addresses : List Multiaddr) :
    buildQueryResponse lib id peerId addresses duration serviceName name =
      some ((List.range (packetCount (announced lib peerId addresses))).map fun k =>
        packetOf (group (announced lib peerId addresses) k)) := by
  have hpack := packRecords_eq lib id peerId peerName (durationToSecs duration) serviceName
    hpacket (addresses.take 65535) [] [] (by decide) rfl
  have hguard : (guard (peerName.length ≤ 0xffff) : Option Unit) = some () := if_pos hlen
  have hempty := hpacket []
  rw [List.map_nil] at hpack hempty
  rw [List.nil_append, List.nil_append] at hpack
  unfold buildQueryResponse
  simp only [hname, hguard, hpack, Option.bind_eq_bind, Option.bind_some]
  change _ = some ((List.range (packetCount ((addresses.take 65535).filter
    (Announced lib peerId)))).map _)
  unfold announced
  generalize (addresses.take 65535).filter (Announced lib peerId) = entries
  have hmax : maxRecordsPerPacket = 29 := by decide
  by_cases hrest : entries.drop
      (maxRecordsPerPacket * (entries.length / maxRecordsPerPacket)) = []
  · rw [hrest, List.map_nil, if_neg (by simp)]
    by_cases hne : entries = []
    · subst hne
      rw [if_pos (by rfl), hempty]
      rfl
    · have hcount := packetCount_of_rest_nil hne hrest
      have hpos : packetCount entries ≠ 0 := by
        unfold packetCount
        omega
      rw [← hcount, if_neg (by simpa using hpos)]
  · have hlast : group entries (entries.length / maxRecordsPerPacket) =
        entries.drop (maxRecordsPerPacket * (entries.length / maxRecordsPerPacket)) := by
      apply batch_of_rest
      rw [List.length_drop, hmax]
      omega
    rw [if_pos (by simpa using hrest), hpacket, Option.map_some, Option.bind_some,
      if_neg (by simp), packetCount_of_rest hrest, List.range_succ, List.map_append,
      List.map_singleton, hlast]

end Response

end P2pa.Mdns.Iface
