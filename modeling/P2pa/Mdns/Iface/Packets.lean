import P2pa.Mdns.Iface.Names
import P2pa.Mdns.Iface.Query
import P2pa.Mdns.Iface.Records

/-!
# The packets of a response as DNS messages

Every packet of `build_query_response` is the encoding of one DNS message: a pointer
from the service name to the random peer name, and one text record under that name
for each address of a group.
-/

namespace P2pa.Mdns.Iface

open Utils Wire

/-! ## Durations -/

theorem toNat_durationToSecs (ttl : Duration) :
    (durationToSecs ttl).toNat =
      min ((ttl.nanos + 999999999) / 1000000000) (2 ^ 32 - 1) := by
  have hcarry : ttl.asSecs + (if ttl.subsecNanos > 0 then 1 else 0) =
      (ttl.nanos + 999999999) / 1000000000 := by
    unfold Duration.asSecs Duration.subsecNanos
    split <;> omega
  unfold durationToSecs
  dsimp only
  rw [hcarry, UInt32.toNat_ofNat']
  omega

/-! ## Names -/

/-- The text spells the name, with dots between its labels. -/
structure Spells (name : Dns.Name) (text : Bytes) : Prop where
  labels : name.labels.map Dns.Label.bytes = text.splitOn 46
  host : ∀ l ∈ name.labels, l.bytes.all isHostByte

theorem Spells.labels_ne_nil {name : Dns.Name} {text : Bytes} (h : Spells name text) :
    name.labels ≠ [] := by
  intro hnil
  have hlabels := h.labels
  rw [hnil, List.map_nil] at hlabels
  exact List.splitOn_ne_nil 46 _ hlabels.symm

theorem Spells.dotted_eq {name : Dns.Name} {text : Bytes} (h : Spells name text) :
    dotted name = text ++ [46] := by
  rw [← flatMap_splitOn, ← h.labels, List.flatMap_map]
  rfl

theorem toNat_lt_of_isHostByte {b : UInt8} (h : isHostByte b) : b.toNat < 128 := by
  simp only [isHostByte, isAlphanumeric, Bool.or_eq_true, Bool.and_eq_true,
    decide_eq_true_eq, UInt8.le_iff_toNat_le, ← UInt8.toNat_inj] at h
  simp only [UInt8.reduceToNat] at h
  omega

theorem isAscii_of_host {l : Bytes} (h : l.all isHostByte) : isAscii l := by
  unfold isAscii
  rw [List.all_eq_true] at h ⊢
  intro b hb
  simpa using toNat_lt_of_isHostByte (h b hb)

theorem isAscii_dotted {name : Dns.Name} (h : ∀ l ∈ name.labels, l.bytes.all isHostByte) :
    isAscii (dotted name) := by
  unfold isAscii
  rw [List.all_eq_true]
  intro b hb
  obtain ⟨l, hl, hbl⟩ := List.mem_flatMap.mp hb
  rcases List.mem_append.mp hbl with hin | hdot
  · exact List.all_eq_true.mp (isAscii_of_host (h l hl)) b hin
  · rw [List.mem_singleton.mp hdot]
    rfl

theorem Spells.ascii {name : Dns.Name} {text : Bytes} (h : Spells name text) :
    isAscii text := by
  have hdotted := isAscii_dotted h.host
  rw [h.dotted_eq, isAscii, List.all_append, Bool.and_eq_true] at hdotted
  exact hdotted.1

theorem Spells.written {name : Dns.Name} {text : Bytes} (h : Spells name text) :
    Written name text := ⟨h.ascii, h.labels⟩

/-- The dot-separated labels of a text are labels of host bytes, and fit a name. -/
structure IsHostName (text : Bytes) : Prop where
  length : ∀ l ∈ text.splitOn 46, 1 ≤ l.length ∧ l.length ≤ 63
  host : ∀ l ∈ text.splitOn 46, l.all isHostByte
  encoded_le : ((text.splitOn 46).map fun l => l.length + 1).sum + 1 ≤ 255

theorem IsHostName.exists_name {text : Bytes} (h : IsHostName text) :
    ∃ name, Spells name text := by
  have hle : (qname text).length ≤ 255 := by
    have hsum := sum_splitOn text
    have hencoded := h.encoded_le
    rw [length_qname]
    omega
  obtain ⟨name, hlabels⟩ := Iface.exists_name h.length hle
  refine ⟨name, hlabels, fun l hl => ?_⟩
  apply h.host
  rw [← hlabels]
  exact List.mem_map_of_mem hl

/-- Besides, each label is printed as it is. -/
structure IsPlainName (text : Bytes) : Prop extends IsHostName text where
  plain : ∀ l ∈ text.splitOn 46, isPlain l

theorem Hickory.PrintsPlain.prints {H : Hickory} (hH : H.PrintsPlain) {text : Bytes}
    (h : IsPlainName text) {name : Dns.Name} (hname : Spells name text) : H.Prints name := by
  apply hH name hname.labels_ne_nil
  intro l hl
  apply h.plain
  rw [← hname.labels]
  exact List.mem_map_of_mem hl

theorem isHostName_of_alphanumeric {text : Bytes} (hlen : 1 ≤ text.length ∧ text.length ≤ 63)
    (h : ∀ b ∈ text, isAlphanumeric b) : IsHostName text := by
  have hdot : 46 ∉ text := by
    intro hmem
    have := h 46 hmem
    revert this
    decide
  have hsplit : text.splitOn 46 = [text] := List.splitOn_eq_singleton hdot
  have hall : text.all isHostByte := by
    rw [List.all_eq_true]
    intro b hb
    simp [isHostByte, h b hb]
  refine ⟨?_, ?_, ?_⟩
  · simpa [hsplit] using hlen
  · simpa [hsplit] using hall
  · rw [hsplit, List.map_singleton, List.sum_singleton]
    omega

/-! ## Records -/

/-- A text longer than a character-string is cut; it is not encodable. -/
def charString (value : String) : Dns.CharString where
  bytes := (bytes value).take maxTxtValueLength
  length_le := by
    rw [List.length_take]
    exact Nat.min_le_left _ _

theorem charString_bytes {value : String} (h : Encodable value) :
    (charString value).bytes = bytes value := by
  have hle : (bytes value).length ≤ maxTxtValueLength := by
    simpa using (Bool.and_eq_true_iff.mp h).2
  exact List.take_of_length_le hle

def txtRecord (peer : Dns.Name) (ttl : UInt32) (value : String) : Dns.Record where
  name := peer
  cls := 0x8001
  ttl
  data := .txt [charString value]

/-- What a reader finds in the data of a text record.  A quoted text is longer than its
length byte says, and seldom a sequence of character-strings. -/
def textData (value : String) : Dns.RData :=
  match Dns.readCharStrings (txtData value).length (txtData value) with
  | some strings => .txt strings
  | none => .other 16 (txtData value)

theorem textData_encode (value : String) : (textData value).encode = txtData value := by
  unfold textData
  cases hread : Dns.readCharStrings (txtData value).length (txtData value) with
  | none => rfl
  | some strings => exact Dns.encode_of_readCharStrings hread

theorem textData_rtype (value : String) : (textData value).rtype = 16 := by
  unfold textData
  cases Dns.readCharStrings (txtData value).length (txtData value) with
  | none => rfl
  | some strings => rfl

theorem txtData_of_no_space {value : String} (h : Encodable value)
    (hspace : 32 ∉ bytes value) : txtData value = (charString value).encode := by
  unfold txtData quoted Dns.CharString.encode
  rw [if_pos hspace, charString_bytes h]

theorem readCharStrings_of_no_space {value : String} (h : Encodable value)
    (hspace : 32 ∉ bytes value) :
    Dns.readCharStrings (txtData value).length (txtData value) =
      some [charString value] := by
  have hread := Dns.readCharStrings_encode
    (show [charString value].length ≤ (charString value).encode.length by
      simp [Dns.CharString.encode])
  rw [List.flatMap_singleton] at hread
  rw [txtData_of_no_space h hspace, hread]

theorem textData_of_no_space {value : String} (h : Encodable value)
    (hspace : 32 ∉ bytes value) : textData value = .txt [charString value] := by
  unfold textData
  rw [readCharStrings_of_no_space h hspace]

section Response

variable (lib : Libp2p) (id : UInt16) (peerId : PeerId) (ttl : UInt32)
  (service peer : Dns.Name)

def textRecord (addr : Multiaddr) : Dns.Record where
  name := peer
  cls := 0x8001
  ttl
  data := textData (txtToSend lib peerId addr)

theorem textRecord_encode (addr : Multiaddr) :
    (textRecord lib peerId ttl peer addr).encode =
      addressBytes lib peerId peer.encode ttl addr := by
  unfold Dns.Record.encode textRecord addressBytes recordBytes
  rw [textData_encode, textData_rtype]

def addressRecord (addr : Multiaddr) : Dns.Record :=
  txtRecord peer ttl (txtToSend lib peerId addr)

theorem textRecord_of_no_space {addr : Multiaddr} (h : Announced lib peerId addr)
    (hspace : 32 ∉ bytes (txtToSend lib peerId addr)) :
    textRecord lib peerId ttl peer addr = addressRecord lib peerId ttl peer addr := by
  unfold textRecord addressRecord txtRecord
  rw [textData_of_no_space h hspace]

/-! ## Packets -/

def answerMessage (records : List Dns.Record) : Dns.Message where
  id
  flags := 0x8400
  queries := []
  answers := [{ name := service, cls := 1, ttl, data := .ptr peer }]
  nameServers := []
  additionals := records

def responseMessage (group : List Multiaddr) : Dns.Message where
  id
  flags := 0x8400
  queries := []
  answers := [{ name := service, cls := 1, ttl, data := .ptr peer }]
  nameServers := []
  additionals := group.map (addressRecord lib peerId ttl peer)

theorem pointer_encode :
    ({ name := service, cls := 1, ttl, data := .ptr peer } : Dns.Record).encode =
      service.encode ++ u16 0x000c ++ u16 0x0001 ++ u32 ttl ++
        u16 (UInt16.ofNat peer.encode.length) ++ peer.encode := rfl

theorem queryResponsePacket_eq {serviceName : Bytes} (hservice : Written service serviceName)
    (records : List Dns.Record) :
    queryResponsePacket id peer.encode (records.map Dns.Record.encode) ttl serviceName =
      some (answerMessage id ttl service peer records).encode := by
  unfold queryResponsePacket
  dsimp only
  simp only [appendU16_eq, appendU32_eq, hservice.appendQname_eq]
  simp [answerMessage, Dns.Message.encode, pointer_encode, List.flatMap_def]

def groupMessage (group : List Multiaddr) : Dns.Message :=
  answerMessage id ttl service peer (group.map (textRecord lib peerId ttl peer))

theorem groupMessage_of_no_space {group : List Multiaddr}
    (h : ∀ addr ∈ group, Announced lib peerId addr)
    (hspace : ∀ addr ∈ group, 32 ∉ bytes (txtToSend lib peerId addr)) :
    groupMessage lib id peerId ttl service peer group =
      responseMessage lib id peerId ttl service peer group := by
  unfold groupMessage
  rw [List.map_congr_left fun addr ha =>
    textRecord_of_no_space lib peerId ttl peer (h addr ha) (hspace addr ha)]
  rfl

theorem builds_groupMessage {serviceName : Bytes} (hservice : Written service serviceName) :
    Builds lib id peerId peer.encode ttl serviceName fun group =>
      (groupMessage lib id peerId ttl service peer group).encode := by
  intro group
  have hrecords : group.map (addressBytes lib peerId peer.encode ttl) =
      (group.map (textRecord lib peerId ttl peer)).map Dns.Record.encode := by
    rw [List.map_map]
    apply List.map_congr_left
    intro addr _
    exact (textRecord_encode lib peerId ttl peer addr).symm
  rw [hrecords]
  exact queryResponsePacket_eq id ttl service peer hservice _

/-- The packets of a response are the messages of the batches of its addresses. -/
theorem buildQueryResponse_messages {serviceName name : Bytes} (duration : Duration)
    (hservice : Written service serviceName) (hpeer : Written peer name)
    (addresses : List Multiaddr) :
    buildQueryResponse lib id peerId addresses duration serviceName name =
      some ((List.range (packetCount (announced lib peerId addresses))).map fun k =>
        (groupMessage lib id peerId (durationToSecs duration) service peer
          (group (announced lib peerId addresses) k)).encode) := by
  have hname : generatePeerName name = some peer.encode := by
    unfold generatePeerName
    rw [hpeer.appendQname_eq]
    rfl
  have hlen : peer.encode.length ≤ 0xffff := by
    have := peer.length_encode_le
    omega
  exact buildQueryResponse_eq lib id peerId peer.encode serviceName hname hlen
    (builds_groupMessage lib id peerId (durationToSecs duration) service peer hservice)
    addresses

/-- The packets of a response: consecutive groups of the announced addresses, and one
empty group if there are none. -/
theorem buildQueryResponse_groups {serviceName name : Bytes} (duration : Duration)
    (hservice : Spells service serviceName) (hpeer : Spells peer name)
    {addresses : List Multiaddr}
    (hspace : ∀ addr ∈ addresses, 32 ∉ bytes (txtToSend lib peerId addr)) :
    ∃ groups : List (List Multiaddr),
      buildQueryResponse lib id peerId addresses duration serviceName name =
        some (groups.map fun group => (responseMessage lib id peerId
          (durationToSecs duration) service peer group).encode) ∧
      groups.flatten = (addresses.take 65535).filter (Announced lib peerId) ∧
      (∀ group ∈ groups, group.length ≤ maxRecordsPerPacket) ∧
      (groups.flatten = [] → groups = [[]]) := by
  have hentries : announced lib peerId addresses =
      (addresses.take 65535).filter (Announced lib peerId) := rfl
  rw [buildQueryResponse_messages lib id peerId service peer duration hservice.written
      hpeer.written,
    ← hentries]
  have hmem : ∀ addr ∈ announced lib peerId addresses,
      Announced lib peerId addr ∧ 32 ∉ bytes (txtToSend lib peerId addr) := by
    intro addr ha
    obtain ⟨htake, hann⟩ := List.mem_filter.mp ha
    exact ⟨hann, hspace addr (List.mem_of_mem_take htake)⟩
  have hflatten := flatMap_group (announced lib peerId addresses)
  generalize announced lib peerId addresses = entries at hmem hflatten
  rw [List.flatMap_def] at hflatten
  refine ⟨(List.range (packetCount entries)).map (group entries), ?_, hflatten, ?_, ?_⟩
  · rw [List.map_map]
    congr 1
    apply List.map_congr_left
    intro k _
    have hgroup := fun addr (ha : addr ∈ group entries k) =>
      hmem addr (mem_of_mem_group ha)
    exact congrArg Dns.Message.encode (groupMessage_of_no_space lib id peerId
      (durationToSecs duration) service peer (fun addr ha => (hgroup addr ha).1)
      fun addr ha => (hgroup addr ha).2)
  · intro g hg
    obtain ⟨k, -, rfl⟩ := List.mem_map.mp hg
    exact length_group_le entries k
  · intro hnil
    rw [hflatten] at hnil
    subst hnil
    rfl

end Response

end P2pa.Mdns.Iface
