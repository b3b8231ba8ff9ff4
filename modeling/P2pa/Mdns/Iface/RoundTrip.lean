import P2pa.Mdns.Iface.Decoding
import P2pa.Mdns.Iface.Packets

/-!
# What a response carries

`MdnsPacket::new_from_bytes` finds in a packet of `build_query_response` one peer
with the addresses of its group, or none if the group is empty.  With the groups of
`Packets` this is the round trip of a whole response.
-/

namespace P2pa.Mdns.Iface

open Utils Wire

section Response

variable (lib : Libp2p) (id : UInt16) (peerId : PeerId) (ttl : UInt32)
  (service peer : Dns.Name)

theorem length_charString_encode_le (value : String) :
    (charString value).encode.length ≤ 256 := by
  have := (charString value).length_le
  rw [Dns.CharString.encode, List.length_cons]
  omega

theorem wellFormed_answer {records : List Dns.Record}
    (hlen : records.length ≤ maxRecordsPerPacket) (h : ∀ r ∈ records, r.WellFormed) :
    (answerMessage id ttl service peer records).WellFormed where
  queries_lt := by simp [answerMessage]
  answers_lt := by simp [answerMessage]
  nameServers_lt := by simp [answerMessage]
  additionals_lt := by
    have hmax : maxRecordsPerPacket = 29 := by decide
    change records.length < 65536
    omega
  answers := by
    intro r hr
    rw [answerMessage, List.mem_singleton] at hr
    subst hr
    refine ⟨?_, fun rtype bytes heq => by cases heq⟩
    have := peer.length_encode_le
    change peer.encode.length < 65536
    omega
  nameServers := by simp [answerMessage]
  additionals := h

theorem isMdns_answer {records : List Dns.Record} (hcls : ∀ r ∈ records, r.cls = 0x8001)
    (hdata : ∀ r ∈ records, ∃ strings, r.data = .txt strings ∧ strings ≠ []) :
    IsMdns (answerMessage id ttl service peer records) where
  flags := .inr rfl
  cls := by
    intro r hr
    simp only [answerMessage, List.append_nil, List.mem_append, List.mem_singleton] at hr
    rcases hr with rfl | hr
    · exact .inl rfl
    · exact .inr (hcls r hr)
  data := by
    intro r hr
    simp only [answerMessage, List.append_nil, List.mem_append, List.mem_singleton] at hr
    rcases hr with rfl | hr
    · exact .inl ⟨peer, rfl⟩
    · exact .inr (hdata r hr)

theorem wellFormed_response {group : List Multiaddr}
    (h : group.length ≤ maxRecordsPerPacket) :
    (responseMessage lib id peerId ttl service peer group).WellFormed := by
  apply wellFormed_answer id ttl service peer (by rwa [List.length_map])
  intro r hr
  obtain ⟨addr, -, rfl⟩ := List.mem_map.mp hr
  refine ⟨?_, fun rtype bytes heq => by cases heq⟩
  have := length_charString_encode_le (txtToSend lib peerId addr)
  change ([charString (txtToSend lib peerId addr)].flatMap
    Dns.CharString.encode).length < 65536
  rw [List.flatMap_singleton]
  omega

theorem isMdns_response (group : List Multiaddr) :
    IsMdns (responseMessage lib id peerId ttl service peer group) := by
  apply isMdns_answer id ttl service peer
  · intro r hr
    obtain ⟨addr, -, rfl⟩ := List.mem_map.mp hr
    rfl
  · intro r hr
    obtain ⟨addr, -, rfl⟩ := List.mem_map.mp hr
    exact ⟨_, rfl, List.cons_ne_nil _ _⟩

theorem said_charString {addr : Multiaddr} (hann : Announced lib peerId addr)
    (hparse : lib.multiaddrFromStr (lib.multiaddrToString addr ++ "/p2p/" ++
      lib.peerIdToBase58 peerId) = some (addr.push (.p2p peerId))) :
    said lib (charString (txtToSend lib peerId addr)) = some (peerId, addr) := by
  have hbytes : bytes (txtToSend lib peerId addr) = bytes "dnsaddr=" ++
      bytes (lib.multiaddrToString addr ++ "/p2p/" ++ lib.peerIdToBase58 peerId) := by
    simp [txtToSend]
  refine said_eq_some_iff.mpr ⟨_, ?_, hparse⟩
  rw [charString_bytes hann, hbytes]
  exact decodeCharacterString_of_ne nofun

section Decode

variable (H : Hickory) (src : SocketAddr)

theorem txtStrings_response (hH : H.Lawful) (group : List Multiaddr) :
    MdnsPeer.txtStrings H (responseMessage lib id peerId ttl service peer group) peer =
      group.map fun addr => charString (txtToSend lib peerId addr) := by
  unfold MdnsPeer.txtStrings responseMessage
  rw [List.flatMap_map]
  simp only [addressRecord, txtRecord, hH.nameEq_refl, if_true]
  rw [← List.map_eq_flatMap]

theorem saidUnder_response (hH : H.Lawful) {group : List Multiaddr}
    (hgroup : ∀ addr ∈ group, Announced lib peerId addr)
    (hparse : ∀ addr ∈ group, lib.multiaddrFromStr (lib.multiaddrToString addr ++ "/p2p/" ++
      lib.peerIdToBase58 peerId) = some (addr.push (.p2p peerId))) :
    saidUnder H lib (responseMessage lib id peerId ttl service peer group) peer =
      group.map fun addr => (peerId, addr) := by
  unfold saidUnder
  rw [← txtStrings_eq, txtStrings_response lib id peerId ttl service peer H hH,
    List.filterMap_map, ← List.filterMap_eq_map]
  apply List.filterMap_congr
  intro addr ha
  exact said_charString lib peerId (hgroup addr ha) (hparse addr ha)

theorem nameToString_eq {H : Hickory} {name : Dns.Name} {text : String}
    (h : Spells name (bytes text)) (hprints : H.Prints name) :
    H.nameToString name = text ++ "." := by
  apply bytes_injective
  rw [hprints.toString, h.dotted_eq, bytes_append]
  rfl

def peersOf (group : List Multiaddr) : List MdnsPeer :=
  if group = [] then [] else [{ addrs := group, peerId, ttl }]

/-- A packet is matched by the name its answer prints. -/
theorem newFromBytes_response (hH : H.Lawful) (serviceNameFqdn metaFqdn : String)
    {group : List Multiaddr} (hlen : group.length ≤ maxRecordsPerPacket)
    (hgroup : ∀ addr ∈ group, Announced lib peerId addr)
    (hparse : ∀ addr ∈ group, lib.multiaddrFromStr (lib.multiaddrToString addr ++ "/p2p/" ++
      lib.peerIdToBase58 peerId) = some (addr.push (.p2p peerId))) :
    MdnsPacket.newFromBytes H lib
        (responseMessage lib id peerId ttl service peer group).encode src
        serviceNameFqdn metaFqdn =
      .ok (some (.response {
        peers := if H.nameToString service = serviceNameFqdn then peersOf peerId ttl group else []
        src })) := by
  have hdecode := hH.fromVec_encode _ (wellFormed_response lib id peerId ttl service peer hlen)
    (isMdns_response lib id peerId ttl service peer group)
  have hpeer : MdnsPeer.new H lib (responseMessage lib id peerId ttl service peer group)
      peer ttl = if group = [] then none else some { addrs := group, peerId, ttl } := by
    rw [peerNew_eq, saidUnder_response lib id peerId ttl service peer H hH hgroup hparse]
    cases group with
    | nil => rfl
    | cons addr group =>
        rw [if_neg (List.cons_ne_nil _ _), List.map_cons, List.head?_cons, Option.map_some,
          ← List.map_cons, FirstKey.under_map_pair]
  unfold MdnsPacket.newFromBytes MdnsResponse.new
  rw [hdecode]
  dsimp only
  rw [if_pos (by rfl)]
  congr 4
  change [({ name := service, cls := 1, ttl, data := .ptr peer } : Dns.Record)].filterMap _ = _
  unfold MdnsResponse.peerOf peersOf
  rw [List.filterMap_cons, List.filterMap_nil]
  dsimp only
  by_cases hname : H.nameToString service = serviceNameFqdn
  · rw [if_neg (not_not.mpr hname), if_pos hname, hpeer]
    by_cases hgroup : group = []
    · simp [hgroup]
    · simp [hgroup]
  · rw [if_pos hname, if_neg hname]

end Decode

end Response

theorem flatMap_addrs_peersOf (peerId : PeerId) (ttl : UInt32)
    (groups : List (List Multiaddr)) :
    (groups.flatMap (peersOf peerId ttl)).flatMap MdnsPeer.addrs = groups.flatten := by
  rw [List.flatMap_assoc, ← List.flatMap_id']
  congr 1
  funext group
  unfold peersOf
  by_cases hgroup : group = []
  · simp [hgroup]
  · simp [hgroup]

theorem mem_peersOf {peerId : PeerId} {ttl : UInt32} {group : List Multiaddr}
    {peer : MdnsPeer} (h : peer ∈ peersOf peerId ttl group) :
    peer.peerId = peerId ∧ peer.ttl = ttl := by
  unfold peersOf at h
  split at h
  · exact absurd h (List.not_mem_nil)
  · rw [List.mem_singleton.mp h]
    exact ⟨rfl, rfl⟩

section RoundTrip

variable (H : Hickory) (lib : Libp2p) (id : UInt16) (peerId : PeerId) (duration : Duration)
  (addresses : List Multiaddr) (name : Bytes) (serviceName metaFqdn : String)
  (src : SocketAddr)

/-- What a node announces is what the others find: decoding the packets of a response
yields the announced addresses, in order and with multiplicity, under the peer's id,
with the ttl in whole seconds; with no address to announce there is one packet
without a peer. -/
def RoundTrips : Prop :=
  ∃ packets responses,
    buildQueryResponse lib id peerId addresses duration (bytes serviceName) name =
      some packets ∧
    (packets.map fun packet => MdnsPacket.newFromBytes H lib packet src
        (serviceName ++ ".") metaFqdn) =
      responses.map (fun response => .ok (some (.response response))) ∧
    (responses.flatMap MdnsResponse.peers).flatMap MdnsPeer.addrs =
      (addresses.take 65535).filter (Announced lib peerId) ∧
    (∀ peer ∈ responses.flatMap MdnsResponse.peers, peer.peerId = peerId ∧
      peer.ttl.toNat = min ((duration.nanos + 999999999) / 1000000000) (2 ^ 32 - 1)) ∧
    ((addresses.take 65535).filter (Announced lib peerId) = [] →
      ∃ response, responses = [response] ∧ response.peers = [])

variable {H lib peerId addresses name serviceName}

/-- With addresses that have no space and are parsed back, the round trip is up to how the
service's name is printed. -/
theorem roundTrips_iff (hH : H.Lawful)
    (hname : 32 ≤ name.length ∧ name.length ≤ 63) (halnum : ∀ b ∈ name, isAlphanumeric b)
    {service : Dns.Name} (hservice : Spells service (bytes serviceName))
    (hbase58 : 32 ∉ bytes (lib.peerIdToBase58 peerId))
    (hspace : ∀ addr ∈ addresses, 32 ∉ bytes (lib.multiaddrToString addr))
    (hparse : ∀ addr ∈ addresses,
      lib.multiaddrFromStr (lib.multiaddrToString addr ++ "/p2p/" ++
        lib.peerIdToBase58 peerId) = some (addr.push (.p2p peerId))) :
    RoundTrips H lib id peerId duration addresses name serviceName metaFqdn src ↔
      H.nameToString service = serviceName ++ "." ∨
        (addresses.take 65535).filter (Announced lib peerId) = [] := by
  obtain ⟨peer, hpeer⟩ :=
    (isHostName_of_alphanumeric ⟨by omega, hname.2⟩ halnum).exists_name
  have hspace' : ∀ addr ∈ addresses, 32 ∉ bytes (txtToSend lib peerId addr) := by
    intro addr ha
    have hfixed : 32 ∉ bytes "dnsaddr=" ∧ 32 ∉ bytes "/p2p/" := by decide
    simp [txtToSend, hfixed, hspace addr ha, hbase58]
  obtain ⟨groups, hbuild, hflatten, hlen, hempty⟩ :=
    buildQueryResponse_groups lib id peerId service peer duration hservice hpeer hspace'
  let ttl := durationToSecs duration
  let responseOf := fun group : List Multiaddr =>
    ({ peers := if H.nameToString service = serviceName ++ "." then peersOf peerId ttl group
        else [], src } : MdnsResponse)
  have hdecoded : (groups.map fun group => MdnsPacket.newFromBytes H lib
      (responseMessage lib id peerId ttl service peer group).encode src (serviceName ++ ".")
        metaFqdn) =
      (groups.map responseOf).map fun response => .ok (some (.response response)) := by
    rw [List.map_map]
    apply List.map_congr_left
    intro group hgroup
    have hmem : ∀ addr ∈ group, addr ∈ (addresses.take 65535).filter (Announced lib peerId) := by
      intro addr ha
      rw [← hflatten]
      exact List.mem_flatten.mpr ⟨group, hgroup, ha⟩
    exact newFromBytes_response lib id peerId ttl service peer H src hH _ _
      (hlen group hgroup) (fun addr ha => (List.mem_filter.mp (hmem addr ha)).2)
      fun addr ha => hparse addr (List.mem_of_mem_take (List.mem_filter.mp (hmem addr ha)).1)
  constructor
  · rintro ⟨packets, responses, hpackets, hresponses, haddrs, -, -⟩
    by_cases hprints : H.nameToString service = serviceName ++ "."
    · exact .inl hprints
    · refine .inr ?_
      rw [hbuild] at hpackets
      cases hpackets
      rw [List.map_map] at hresponses
      have hinjective : Function.Injective fun response : MdnsResponse =>
          (.ok (some (.response response)) : Except Unit (Option MdnsPacket)) := by
        intro r r' heq
        cases heq
        rfl
      have hsame : groups.map responseOf = responses :=
        hinjective.list_map (hdecoded.symm.trans hresponses)
      rw [← haddrs, ← hsame, List.flatMap_map]
      simp [responseOf, hprints]
  · intro hcondition
    have hpeers : (groups.map responseOf).flatMap MdnsResponse.peers =
        groups.flatMap (peersOf peerId ttl) := by
      rw [List.flatMap_map]
      rcases hcondition with hprints | hnone
      · simp [responseOf, hprints]
      · rw [hempty (hflatten.trans hnone)]
        simp [responseOf, peersOf]
    refine ⟨_, groups.map responseOf, hbuild, ?_, ?_, ?_, ?_⟩
    · rw [List.map_map]
      exact hdecoded
    · rw [hpeers, flatMap_addrs_peersOf, hflatten]
    · intro p hp
      rw [hpeers] at hp
      obtain ⟨group, -, hp⟩ := List.mem_flatMap.mp hp
      obtain ⟨hid, httl⟩ := mem_peersOf hp
      exact ⟨hid, by rw [httl, toNat_durationToSecs]⟩
    · intro hnone
      rw [hempty (hflatten.trans hnone)]
      exact ⟨responseOf [], rfl, by simp [responseOf, peersOf]⟩

/-- A response comes back whole if the labels of the service's name are printed as they
are. -/
theorem query_response_round_trip (hH : H.Lawful) (hprints : H.PrintsPlain)
    (hname : 32 ≤ name.length ∧ name.length ≤ 63) (halnum : ∀ b ∈ name, isAlphanumeric b)
    (hservice : IsPlainName (bytes serviceName))
    (hbase58 : 32 ∉ bytes (lib.peerIdToBase58 peerId))
    (hspace : ∀ addr ∈ addresses, 32 ∉ bytes (lib.multiaddrToString addr))
    (hparse : ∀ addr ∈ addresses,
      lib.multiaddrFromStr (lib.multiaddrToString addr ++ "/p2p/" ++
        lib.peerIdToBase58 peerId) = some (addr.push (.p2p peerId))) :
    RoundTrips H lib id peerId duration addresses name serviceName metaFqdn src := by
  obtain ⟨service, hspells⟩ := hservice.exists_name
  exact (roundTrips_iff id duration metaFqdn src hH hname halnum hspells hbase58 hspace hparse).mpr
    (.inl (nameToString_eq hspells (hprints.prints hservice hspells)))

end RoundTrip

/-! ## A DNS library for which the assumptions hold -/

/-- A hyphen at the start of a label is escaped.  Of the labels that are printed decoded, it
knows one. -/
def printLabel (l : Bytes) : String :=
  if l = bytes "xn--mnchen-3ya" then "münchen"
  else if l.head? = some 45 then "\\" ++ ofAscii l
  else ofAscii l

def printLabels (labels : List Bytes) : String :=
  labels.foldr (fun l text => printLabel l ++ "." ++ text) ""

/-- A DNS library that knows uncompressed messages and host names only. -/
def Hickory.plain : Hickory where
  fromVec := Dns.decode
  nameEq a b := a = b
  nameToString name := printLabels (name.labels.map Dns.Label.bytes)
  nameToUtf8 name := printLabels (name.labels.map Dns.Label.bytes)

theorem Hickory.plain_lawful : Hickory.plain.Lawful where
  fromVec_encode _ hm _ := Dns.decode_encode hm
  nameEq_refl _ := decide_eq_true rfl

theorem bytes_printLabel {l : Bytes} (h : isPlain l) : bytes (printLabel l) = l := by
  simp only [isPlain, Bool.and_eq_true, decide_eq_true_eq, Bool.not_eq_true'] at h
  obtain ⟨⟨hhost, hhyphen⟩, hencoded⟩ := h
  have hmunich : l ≠ bytes "xn--mnchen-3ya" := by
    rintro rfl
    revert hencoded
    decide
  unfold printLabel
  rw [if_neg hmunich, if_neg hhyphen]
  exact bytes_ofAscii (isAscii_of_host hhost)

theorem bytes_printLabels {labels : List Bytes} (h : ∀ l ∈ labels, isPlain l) :
    bytes (printLabels labels) = labels.flatMap fun l => l ++ [46] := by
  induction labels with
  | nil => rfl
  | cons l labels ih =>
      obtain ⟨hl, hrest⟩ := List.forall_mem_cons.mp h
      change bytes (printLabel l ++ "." ++ printLabels labels) = _
      rw [bytes_append, bytes_append, bytes_printLabel hl, ih hrest, List.flatMap_cons]
      rfl

theorem Hickory.plain_prints : Hickory.plain.PrintsPlain := by
  intro name _ hplain
  have hprinted : bytes (printLabels (name.labels.map Dns.Label.bytes)) = dotted name := by
    rw [bytes_printLabels (List.forall_mem_map.mpr hplain), List.flatMap_map]
    rfl
  exact ⟨hprinted, hprinted⟩

theorem query_response_round_trip_sample :
    RoundTrips Hickory.plain sampleLibp2p 0xf8f8 samplePeerId (.fromSecs 60) [sampleAddr]
      (List.replicate 32 97) "_p2p._udp.local" "_services._dns-sd._udp.local."
      ⟨.v4 0x01020304, 5353⟩ :=
  query_response_round_trip 0xf8f8 (.fromSecs 60) "_services._dns-sd._udp.local."
    ⟨.v4 0x01020304, 5353⟩ Hickory.plain_lawful Hickory.plain_prints (by decide)
    (fun b hb => by rw [List.eq_of_mem_replicate hb]; decide)
    ⟨⟨by decide, by decide, by decide⟩, by decide⟩ (by decide) (by decide) (by decide)

/-- The services `a.-b` and `a.xn--mnchen-3ya` find no address of each other's nodes. -/
theorem query_response_round_trip_fails :
    Hickory.plain.Lawful ∧ Hickory.plain.PrintsPlain ∧
      ∀ serviceName ∈ ["a.-b", "a.xn--mnchen-3ya"], IsHostName (bytes serviceName) ∧
        ¬ RoundTrips Hickory.plain sampleLibp2p 0xf8f8 samplePeerId (.fromSecs 60) [sampleAddr]
          (List.replicate 32 97) serviceName "_services._dns-sd._udp.local."
          ⟨.v4 0x01020304, 5353⟩ := by
  refine ⟨Hickory.plain_lawful, Hickory.plain_prints, fun serviceName hserviceName => ?_⟩
  have hlabels : IsHostName (bytes serviceName) ∧
      printLabels ((bytes serviceName).splitOn 46) ≠ serviceName ++ "." := by
    simp only [List.mem_cons, List.not_mem_nil, or_false] at hserviceName
    rcases hserviceName with rfl | rfl
    · exact ⟨⟨by decide, by decide, by decide⟩, by decide⟩
    · exact ⟨⟨by decide, by decide, by decide⟩, by decide⟩
  refine ⟨hlabels.1, fun hround => ?_⟩
  obtain ⟨service, hservice⟩ := hlabels.1.exists_name
  have hcondition := (roundTrips_iff 0xf8f8 (.fromSecs 60) "_services._dns-sd._udp.local."
    ⟨.v4 0x01020304, 5353⟩ Hickory.plain_lawful (by decide)
    (fun b hb => by rw [List.eq_of_mem_replicate hb]; decide) hservice (by decide) (by decide)
    (by decide)).mp hround
  rcases hcondition with hprinted | hnone
  · apply hlabels.2
    rw [← hservice.labels]
    exact hprinted
  · revert hnone
    decide

end P2pa.Mdns.Iface
