import P2pa.Mdns.Iface.Buffers
import P2pa.Mdns.Iface.RoundTrip

/-!
# Services do not hear each other

Two services with different names classify each other's packets as not theirs, and an
answer never makes its receiver answer.  The one exception is an address whose text is
written with quotes: its record has a length byte that is too small, and the packet is
no DNS message any more.
-/

namespace P2pa.Mdns.Iface

open Utils Wire

/-! ## What the program relies on -/

/-- Besides, a message with a text record that is not a sequence of character-strings is
refused. -/
structure Hickory.Standard (H : Hickory) : Prop extends H.Lawful where
  refuses : ∀ m : Dns.Message, m.Unreadable → H.fromVec m.encode = none

theorem Hickory.plain_standard : Hickory.plain.Standard where
  toLawful := plain_lawful
  refuses _ hm := Dns.decode_unreadable hm

/-! ## The names of a service -/

section Names

def serviceText (name : String) : String :=
  ServiceConfig.firstLabels name ++ "_p2p._udp.local"

def metaText (name : String) : String :=
  ServiceConfig.firstLabels name ++ "_services._dns-sd._udp.local"

variable (config : ServiceConfig) (name : String)

theorem serviceName_eq : (config.withServiceName name).serviceName = bytes (serviceText name) :=
  rfl

theorem serviceNameFqdn_eq :
    (config.withServiceName name).serviceNameFqdn = serviceText name ++ "." := by
  unfold serviceText
  rw [String.append_assoc]
  rfl

theorem metaQueryServiceFqdn_eq :
    (config.withServiceName name).metaQueryServiceFqdn = metaText name ++ "." := by
  unfold metaText
  rw [String.append_assoc]
  rfl

end Names

theorem append_right_injective {s t : String} (u : String) (h : s ++ u = t ++ u) : s = t := by
  have hbytes := congrArg bytes h
  rw [bytes_append, bytes_append] at hbytes
  exact bytes_injective (List.append_cancel_right hbytes)

theorem firstLabels_injective {n₁ n₂ : String}
    (h : ServiceConfig.firstLabels n₁ = ServiceConfig.firstLabels n₂) : n₁ = n₂ := by
  have hlabel : ∀ n : String, "" ≠ "_" ++ n ++ "." := by
    intro n hempty
    have hbytes := congrArg (List.length ∘ bytes) hempty
    have hunderscore : (bytes "_").length = 1 := by decide
    have hnone : (bytes "").length = 0 := by decide
    simp only [Function.comp_apply, bytes_append, List.length_append, hunderscore,
      hnone] at hbytes
    omega
  unfold ServiceConfig.firstLabels at h
  by_cases h₁ : n₁ = ""
  · by_cases h₂ : n₂ = ""
    · rw [h₁, h₂]
    · rw [if_neg (by simpa using h₁), if_pos h₂] at h
      exact absurd h (hlabel n₂)
  · by_cases h₂ : n₂ = ""
    · rw [if_pos h₁, if_neg (by simpa using h₂)] at h
      exact absurd h.symm (hlabel n₁)
    · rw [if_pos h₁, if_pos h₂] at h
      have hprefixed := congrArg bytes (append_right_injective "." h)
      rw [bytes_append, bytes_append] at hprefixed
      exact bytes_injective (List.append_cancel_left hprefixed)

theorem serviceText_injective {n₁ n₂ : String} (h : serviceText n₁ = serviceText n₂) :
    n₁ = n₂ := firstLabels_injective (append_right_injective _ h)

theorem metaText_injective {n₁ n₂ : String} (h : metaText n₁ = metaText n₂) : n₁ = n₂ :=
  firstLabels_injective (append_right_injective _ h)

/-- The label before `_udp` ends in a `p` in one name and in a `d` in the other. -/
theorem serviceText_ne_metaText (n₁ n₂ : String) : serviceText n₁ ≠ metaText n₂ := by
  intro h
  have hbytes := congrArg bytes h
  have hservice : bytes "_p2p._udp.local" = bytes "_p2" ++ bytes "p._udp.local" := by decide
  have hmeta : bytes "_services._dns-sd._udp.local" =
      bytes "_services._dns-s" ++ bytes "d._udp.local" := by decide
  unfold serviceText metaText at hbytes
  rw [bytes_append, bytes_append, hservice, hmeta, ← List.append_assoc,
    ← List.append_assoc] at hbytes
  have hends := List.append_inj_right' hbytes (by decide)
  exact absurd hends (by decide)

structure ValidName (name : String) : Prop where
  service : IsHostName (bytes (serviceText name))
  metaQuery : IsHostName (bytes (metaText name))

/-- The names of a service are printed as their labels. -/
structure Hickory.PrintsNames (H : Hickory) (name : String) : Prop where
  service : ∀ n, Spells n (bytes (serviceText name)) → H.Prints n
  metaQuery : ∀ n, Spells n (bytes (metaText name)) → H.Prints n

theorem Hickory.PrintsPlain.printsNames {H : Hickory} (hH : H.PrintsPlain) {name : String}
    (hservice : IsPlainName (bytes (serviceText name)))
    (hmeta : IsPlainName (bytes (metaText name))) : H.PrintsNames name where
  service _ := hH.prints hservice
  metaQuery _ := hH.prints hmeta

/-! ## Queries -/

def queryMessage (id : UInt16) (name : Dns.Name) : Dns.Message where
  id
  flags := 0
  queries := [{ name, qtype := 12, qclass := 1 }]
  answers := []
  nameServers := []
  additionals := []

theorem buildQuery_eq {name : Dns.Name} {text : Bytes} (h : Written name text)
    (id : UInt16) : buildQuery id text = some (queryMessage id name).encode := by
  unfold buildQuery buildQueryIn
  dsimp only
  simp only [appendQnameIn_true, appendU16_eq, h.appendQname_eq]
  simp [queryMessage, Dns.Message.encode, Dns.Question.encode]

section Classify

variable {H : Hickory} (lib : Libp2p) (id : UInt16) (src : SocketAddr)
  (serviceNameFqdn metaQueryServiceFqdn : String)

theorem nameToUtf8_eq {name : Dns.Name} {text : String} (h : Spells name (bytes text))
    (hprints : H.Prints name) : H.nameToUtf8 name = text ++ "." := by
  apply bytes_injective
  rw [hprints.toUtf8, h.dotted_eq, bytes_append]
  rfl

theorem newFromBytes_query (hH : H.Lawful) {name : Dns.Name} {text : String}
    (h : Spells name (bytes text)) (hprints : H.Prints name) :
    MdnsPacket.newFromBytes H lib (queryMessage id name).encode src serviceNameFqdn
        metaQueryServiceFqdn =
      if text ++ "." = serviceNameFqdn then .ok (some (.query { src, queryId := id }))
      else if text ++ "." = metaQueryServiceFqdn then
        .ok (some (.serviceDiscovery { src, queryId := id }))
      else .ok none := by
  have hwellFormed : (queryMessage id name).WellFormed := by
    constructor <;> simp [queryMessage]
  have hmdns : IsMdns (queryMessage id name) := by
    constructor <;> simp [queryMessage]
  unfold MdnsPacket.newFromBytes
  rw [hH.fromVec_encode _ hwellFormed hmdns]
  simp [queryMessage, nameToUtf8_eq h hprints]

/-! ## Answers -/

theorem newFromBytes_of_no_queries {m : Dns.Message} (hdecode : H.fromVec m.encode = some m)
    (hqueries : m.queries = []) :
    MdnsPacket.newFromBytes H lib m.encode src serviceNameFqdn metaQueryServiceFqdn =
      .ok (some (.response (MdnsResponse.new H lib m src serviceNameFqdn))) := by
  unfold MdnsPacket.newFromBytes
  rw [hdecode]
  dsimp only
  rw [if_pos hqueries]

theorem peers_eq_nil {m : Dns.Message}
    (h : ∀ r ∈ m.answers, H.nameToString r.name ≠ serviceNameFqdn) :
    (MdnsResponse.new H lib m src serviceNameFqdn).peers = [] := by
  apply List.filterMap_eq_nil_iff.mpr
  intro r hr
  unfold MdnsResponse.peerOf
  rw [if_pos (h r hr)]

end Classify

def discoveryMessage (id : UInt16) (ttl : UInt32) (service metaQuery : Dns.Name) :
    Dns.Message where
  id
  flags := 0x8400
  queries := []
  answers := [{ name := metaQuery, cls := 0x8001, ttl, data := .ptr service }]
  nameServers := []
  additionals := []

theorem buildServiceDiscoveryResponse_eq {service metaQuery : Dns.Name}
    {serviceName metaQueryService : Bytes} (hservice : Written service serviceName)
    (hmeta : Written metaQuery metaQueryService) (id : UInt16) (ttl : Duration) :
    buildServiceDiscoveryResponse id ttl serviceName metaQueryService =
      some (discoveryMessage id (durationToSecs ttl) service metaQuery).encode := by
  unfold buildServiceDiscoveryResponse buildServiceDiscoveryResponseIn
  dsimp only
  simp only [appendQnameIn_true, appendU16_eq, appendU32_eq, hservice.appendQname_eq,
    hmeta.appendQname_eq]
  simp [discoveryMessage, Dns.Message.encode, Dns.Record.encode, Dns.RData.encode,
    Dns.RData.rtype]

theorem wellFormed_discovery (id : UInt16) (ttl : UInt32) (service metaQuery : Dns.Name) :
    (discoveryMessage id ttl service metaQuery).WellFormed where
  queries_lt := by simp [discoveryMessage]
  answers_lt := by simp [discoveryMessage]
  nameServers_lt := by simp [discoveryMessage]
  additionals_lt := by simp [discoveryMessage]
  answers := by
    intro r hr
    rw [List.mem_singleton.mp hr]
    refine ⟨?_, fun rtype bytes heq => by cases heq⟩
    have := service.length_encode_le
    change service.encode.length < 65536
    omega
  nameServers := by simp [discoveryMessage]
  additionals := by simp [discoveryMessage]

theorem isMdns_discovery (id : UInt16) (ttl : UInt32) (service metaQuery : Dns.Name) :
    IsMdns (discoveryMessage id ttl service metaQuery) where
  flags := .inr rfl
  cls := by simp [discoveryMessage]
  data := by simp [discoveryMessage]

/-! ## Address responses -/

/-- The data written for the text is a sequence of character-strings. -/
def Readable (value : String) : Bool :=
  (Dns.readCharStrings (txtData value).length (txtData value)).isSome

theorem readable_of_no_space {value : String} (h : Encodable value)
    (hspace : 32 ∉ bytes value) : Readable value := by
  unfold Readable
  rw [readCharStrings_of_no_space h hspace]
  rfl

theorem length_escape_le (text : Bytes) : (escape text).length ≤ 2 * text.length := by
  induction text with
  | nil => simp [escape]
  | cons b text ih =>
      have hb : (if b = 92 then [92, 92] else if b = 34 then [92, 34] else [b] :
          Bytes).length ≤ 2 := by
        split
        · simp
        · split <;> simp
      unfold escape at ih ⊢
      rw [List.flatMap_cons, List.length_append, List.length_cons]
      omega

theorem length_txtData_le {value : String} (h : Encodable value) :
    (txtData value).length ≤ 513 := by
  have hmax : maxTxtValueLength = 255 := rfl
  have hlen : (bytes value).length ≤ maxTxtValueLength := by
    simpa using (Bool.and_eq_true_iff.mp h).2
  have hescape := length_escape_le (bytes value)
  unfold txtData quoted
  split
  · rw [List.length_cons]
    omega
  · simp only [List.length_cons, List.length_append, List.length_nil]
    omega

theorem textData_of_readable {value : String} (h : Readable value) :
    ∃ strings, textData value = .txt strings ∧ strings ≠ [] := by
  obtain ⟨strings, hstrings⟩ := Option.isSome_iff_exists.mp h
  refine ⟨strings, ?_, ?_⟩
  · unfold textData
    rw [hstrings]
  · rintro rfl
    have hencode := Dns.encode_of_readCharStrings hstrings
    cases hencode

theorem textData_of_not_readable {value : String} (h : ¬ Readable value) :
    textData value = .other 16 (txtData value) := by
  have hnone := Option.not_isSome_iff_eq_none.mp h
  unfold textData
  rw [hnone]

section Response

variable (lib : Libp2p) (id : UInt16) (peerId : PeerId) (ttl : UInt32)
  (service peer : Dns.Name)

theorem wellFormed_textRecord {addr : Multiaddr} (hann : Announced lib peerId addr)
    (h : Readable (txtToSend lib peerId addr)) :
    (textRecord lib peerId ttl peer addr).WellFormed where
  length_lt := by
    have hlen := length_txtData_le hann
    change (textData (txtToSend lib peerId addr)).encode.length < 65536
    rw [textData_encode]
    omega
  rtype_ne := by
    intro rtype bytes heq
    obtain ⟨strings, hstrings, -⟩ := textData_of_readable h
    change textData (txtToSend lib peerId addr) = _ at heq
    rw [hstrings] at heq
    cases heq

theorem fromVec_groupMessage {H : Hickory} (hH : H.Lawful) {group : List Multiaddr}
    (hlen : group.length ≤ maxRecordsPerPacket)
    (hann : ∀ addr ∈ group, Announced lib peerId addr)
    (h : ∀ addr ∈ group, Readable (txtToSend lib peerId addr)) :
    H.fromVec (groupMessage lib id peerId ttl service peer group).encode =
      some (groupMessage lib id peerId ttl service peer group) := by
  apply hH.fromVec_encode
  · apply wellFormed_answer id ttl service peer (by rwa [List.length_map])
    intro r hr
    obtain ⟨addr, ha, rfl⟩ := List.mem_map.mp hr
    exact wellFormed_textRecord lib peerId ttl peer (hann addr ha) (h addr ha)
  · apply isMdns_answer id ttl service peer
    · intro r hr
      obtain ⟨addr, -, rfl⟩ := List.mem_map.mp hr
      rfl
    · intro r hr
      obtain ⟨addr, ha, rfl⟩ := List.mem_map.mp hr
      exact textData_of_readable (h addr ha)

/-- The first address whose data is no sequence of character-strings makes the whole
message unreadable. -/
theorem unreadable_groupMessage {group : List Multiaddr}
    (hlen : group.length ≤ maxRecordsPerPacket)
    (hann : ∀ addr ∈ group, Announced lib peerId addr) {addr : Multiaddr} (ha : addr ∈ group)
    (h : ¬ Readable (txtToSend lib peerId addr)) :
    (groupMessage lib id peerId ttl service peer group).Unreadable := by
  have hfind : (group.find? fun addr => !Readable (txtToSend lib peerId addr)).isSome :=
    List.find?_isSome.mpr ⟨addr, ha, by simpa using h⟩
  obtain ⟨bad, hbad⟩ := Option.isSome_iff_exists.mp hfind
  obtain ⟨hunreadable, before, after, hgroup, hbefore⟩ := List.find?_eq_some_iff_append.mp hbad
  simp only [Bool.not_eq_true', Bool.not_not] at hunreadable hbefore
  have hmem : bad ∈ group := by
    rw [hgroup]
    simp
  have hdata : textData (txtToSend lib peerId bad) = .other 16 _ :=
    textData_of_not_readable (by simpa using hunreadable)
  have hlength := length_txtData_le (hann bad hmem)
  have hwellFormed := wellFormed_answer id ttl service peer
    (show ([] : List Dns.Record).length ≤ maxRecordsPerPacket by simp) (by simp)
  refine ⟨hwellFormed.queries_lt, hwellFormed.answers_lt, hwellFormed.nameServers_lt, ?_,
    hwellFormed.answers, hwellFormed.nameServers,
    before.map (textRecord lib peerId ttl peer), textRecord lib peerId ttl peer bad,
    after.map (textRecord lib peerId ttl peer), _, ?_, ?_, hdata, by omega, ?_⟩
  · have hmax : maxRecordsPerPacket = 29 := by decide
    change (group.map (textRecord lib peerId ttl peer)).length < 65536
    rw [List.length_map]
    omega
  · change group.map (textRecord lib peerId ttl peer) = _
    rw [hgroup, List.map_append, List.map_cons]
  · intro r hr
    obtain ⟨first, hfirst, rfl⟩ := List.mem_map.mp hr
    have hin : first ∈ group := by
      rw [hgroup]
      simp [hfirst]
    exact wellFormed_textRecord lib peerId ttl peer (hann first hin) (hbefore first hfirst)
  · exact Option.not_isSome_iff_eq_none.mp (by simpa [Readable] using hunreadable)

end Response

/-! ## Isolation -/

section Isolated

variable (H : Hickory) (lib : Libp2p) (sender receiver : ServiceConfig) (n₁ n₂ : String)
  (id : UInt16) (peerId : PeerId) (addresses : List Multiaddr) (ttl : Duration)
  (name : Bytes) (src : SocketAddr)

/-- What a receiver of the service `n₂` makes of a packet. -/
def hear (packet : Bytes) : Except Unit (Option MdnsPacket) :=
  MdnsPacket.newFromBytes H lib packet src (receiver.withServiceName n₂).serviceNameFqdn
    (receiver.withServiceName n₂).metaQueryServiceFqdn

/-- What a receiver of the service `n₂` makes of the packets of the service `n₁`. -/
structure Isolated : Prop where
  query : ∃ packet, buildQuery id (sender.withServiceName n₁).serviceName = some packet ∧
    hear H lib receiver n₂ src packet =
      .ok (if n₁ = n₂ then some (.query { src, queryId := id }) else none)
  metaQuery : ∃ packet,
    buildQuery id (sender.withServiceName n₁).metaQueryService = some packet ∧
    hear H lib receiver n₂ src packet =
      .ok (if n₁ = n₂ then some (.serviceDiscovery { src, queryId := id }) else none)
  response : ∃ packets,
    buildQueryResponse lib id peerId addresses ttl (sender.withServiceName n₁).serviceName
      name = some packets ∧
    ∀ packet ∈ packets, ∃ response,
      hear H lib receiver n₂ src packet = .ok (some (.response response)) ∧
        (response.peers ≠ [] → n₁ = n₂)
  serviceDiscovery : ∃ packet,
    buildServiceDiscoveryResponse id ttl (sender.withServiceName n₁).serviceName
      (sender.withServiceName n₁).metaQueryService = some packet ∧
    ∃ response, hear H lib receiver n₂ src packet = .ok (some (.response response)) ∧
      response.peers = []
  /-- An answer never makes the task that reads it send anything. -/
  silent : ∀ (s t : InterfaceState) (around : Surroundings) (response : MdnsResponse),
    s.handlePacket lib around (.response response) = some t → t.sendBuffer = s.sendBuffer

variable {H n₁ n₂}

theorem hear_query (hH : H.Lawful) {text : String} {service : Dns.Name}
    (h : Spells service (bytes text)) (hprints : H.Prints service) :
    hear H lib receiver n₂ src (queryMessage id service).encode =
      if text = serviceText n₂ then .ok (some (.query { src, queryId := id }))
      else if text = metaText n₂ then .ok (some (.serviceDiscovery { src, queryId := id }))
      else .ok none := by
  unfold hear
  rw [newFromBytes_query lib id src _ _ hH h hprints, serviceNameFqdn_eq, metaQueryServiceFqdn_eq]
  have hdot : ∀ other : String, text ++ "." = other ++ "." ↔ text = other := fun other =>
    ⟨append_right_injective ".", fun heq => by rw [heq]⟩
  simp only [hdot]

theorem handlePacket_response_sendBuffer {s t : InterfaceState} {around : Surroundings}
    {response : MdnsResponse}
    (h : s.handlePacket lib around (.response response) = some t) :
    t.sendBuffer = s.sendBuffer := by
  unfold InterfaceState.handlePacket at h
  dsimp only at h
  split at h
  · exact (sameBuffers_resetTimer h).sendBuffer
  · cases h
    rfl

/-- A packet whose answer is under the service name of `n₁` carries peers for receivers of
`n₁` only. -/
theorem hear_groupMessage (hH : H.Lawful) {service peer : Dns.Name}
    (hservice : Spells service (bytes (serviceText n₁))) (hprints : H.Prints service)
    (ttl : UInt32)
    {group : List Multiaddr} (hlen : group.length ≤ maxRecordsPerPacket)
    (hann : ∀ addr ∈ group, Announced lib peerId addr)
    (h : ∀ addr ∈ group, Readable (txtToSend lib peerId addr)) :
    ∃ response, hear H lib receiver n₂ src
        (groupMessage lib id peerId ttl service peer group).encode =
          .ok (some (.response response)) ∧ (response.peers ≠ [] → n₁ = n₂) := by
  have hdecode := fromVec_groupMessage lib id peerId ttl service peer hH hlen hann h
  refine ⟨_, newFromBytes_of_no_queries lib src _ _ hdecode rfl, fun hpeers => ?_⟩
  by_contra hne
  apply hpeers
  apply peers_eq_nil
  intro r hr
  rw [List.mem_singleton.mp hr, serviceNameFqdn_eq]
  change H.nameToString service ≠ _
  rw [nameToString_eq hservice hprints]
  exact fun heq => hne (serviceText_injective (append_right_injective "." heq))

theorem readable_of_isolated (hH : H.Standard) (hvalid : ValidName n₁)
    (hname : 32 ≤ name.length ∧ name.length ≤ 63) (halnum : ∀ b ∈ name, isAlphanumeric b)
    (h : Isolated H lib sender receiver n₁ n₂ id peerId addresses ttl name src)
    {addr : Multiaddr} (ha : addr ∈ announced lib peerId addresses) :
    Readable (txtToSend lib peerId addr) := by
  obtain ⟨service, hservice⟩ := hvalid.service.exists_name
  obtain ⟨peer, hpeer⟩ :=
    (isHostName_of_alphanumeric ⟨by omega, hname.2⟩ halnum).exists_name
  have hpackets := buildQueryResponse_messages lib id peerId service peer ttl
    hservice.written hpeer.written addresses
  by_contra hunreadable
  rw [← flatMap_group (announced lib peerId addresses)] at ha
  obtain ⟨k, hk, hin⟩ := List.mem_flatMap.mp ha
  have hann : ∀ addr ∈ group (announced lib peerId addresses) k,
      Announced lib peerId addr := fun addr ha =>
    (List.mem_filter.mp (mem_of_mem_group ha)).2
  obtain ⟨packets, hbuild, hheard⟩ := h.response
  rw [serviceName_eq, hpackets] at hbuild
  cases hbuild
  obtain ⟨response, hresponse, -⟩ := hheard _ (List.mem_map_of_mem hk)
  have hnone := hH.refuses _ (unreadable_groupMessage lib id peerId (durationToSecs ttl)
    service peer (length_group_le _ k) hann hin hunreadable)
  unfold hear MdnsPacket.newFromBytes at hresponse
  rw [hnone] at hresponse
  cases hresponse

theorem isolated_of_readable (hH : H.Lawful) (hvalid : ValidName n₁)
    (hprints : H.PrintsNames n₁)
    (hname : 32 ≤ name.length ∧ name.length ≤ 63) (halnum : ∀ b ∈ name, isAlphanumeric b)
    (h : ∀ addr ∈ announced lib peerId addresses, Readable (txtToSend lib peerId addr)) :
    Isolated H lib sender receiver n₁ n₂ id peerId addresses ttl name src := by
  obtain ⟨service, hservice⟩ := hvalid.service.exists_name
  obtain ⟨metaQuery, hmeta⟩ := hvalid.metaQuery.exists_name
  obtain ⟨peer, hpeer⟩ :=
    (isHostName_of_alphanumeric ⟨by omega, hname.2⟩ halnum).exists_name
  refine ⟨⟨_, buildQuery_eq hservice.written id, ?_⟩,
    ⟨_, buildQuery_eq hmeta.written id, ?_⟩,
    ⟨_, buildQueryResponse_messages lib id peerId service peer ttl hservice.written
      hpeer.written addresses, ?_⟩,
    ⟨_, buildServiceDiscoveryResponse_eq hservice.written hmeta.written id ttl, ?_⟩,
    fun s t around response => handlePacket_response_sendBuffer lib⟩
  · rw [hear_query lib receiver id src hH hservice (hprints.service _ hservice),
      if_neg (serviceText_ne_metaText n₁ n₂)]
    by_cases heq : n₁ = n₂
    · rw [if_pos heq, if_pos (by rw [heq])]
    · rw [if_neg heq, if_neg (fun h => heq (serviceText_injective h))]
  · rw [hear_query lib receiver id src hH hmeta (hprints.metaQuery _ hmeta),
      if_neg (serviceText_ne_metaText n₂ n₁).symm]
    by_cases heq : n₁ = n₂
    · rw [if_pos heq, if_pos (by rw [heq])]
    · rw [if_neg heq, if_neg (fun h => heq (metaText_injective h))]
  · intro packet hpacket
    obtain ⟨k, -, rfl⟩ := List.mem_map.mp hpacket
    exact hear_groupMessage lib receiver id peerId src hH hservice
      (hprints.service _ hservice) _ (length_group_le _ k)
      (fun addr ha => (List.mem_filter.mp (mem_of_mem_group ha)).2)
      fun addr ha => h addr (mem_of_mem_group ha)
  · have hdecode := hH.fromVec_encode _
      (wellFormed_discovery id (durationToSecs ttl) service metaQuery)
      (isMdns_discovery id (durationToSecs ttl) service metaQuery)
    refine ⟨_, newFromBytes_of_no_queries lib src _ _ hdecode rfl, ?_⟩
    apply peers_eq_nil
    intro r hr
    rw [List.mem_singleton.mp hr, serviceNameFqdn_eq]
    change H.nameToString metaQuery ≠ _
    rw [nameToString_eq hmeta (hprints.metaQuery _ hmeta)]
    exact fun heq => serviceText_ne_metaText n₂ n₁ (append_right_injective "." heq).symm

/-- The services are isolated exactly when every announced text is written as a sequence
of character-strings, as every text without a space is. -/
theorem isolated_iff (hH : H.Standard) (hvalid : ValidName n₁) (hprints : H.PrintsNames n₁)
    (hname : 32 ≤ name.length ∧ name.length ≤ 63) (halnum : ∀ b ∈ name, isAlphanumeric b) :
    Isolated H lib sender receiver n₁ n₂ id peerId addresses ttl name src ↔
      ∀ addr ∈ announced lib peerId addresses, Readable (txtToSend lib peerId addr) :=
  ⟨fun h _ ha => readable_of_isolated lib sender receiver id peerId addresses ttl name src
      hH hvalid hname halnum h ha,
    isolated_of_readable lib sender receiver id peerId addresses ttl name src hH.toLawful hvalid
      hprints hname halnum⟩

end Isolated

theorem validName_a : ValidName "a" :=
  ⟨⟨by decide, by decide, by decide⟩, ⟨by decide, by decide, by decide⟩⟩

theorem printsNames_a : Hickory.plain.PrintsNames "a" :=
  Hickory.plain_prints.printsNames ⟨validName_a.service, by decide⟩
    ⟨validName_a.metaQuery, by decide⟩

theorem isolated_iff_sample :
    Isolated Hickory.plain sampleLibp2p sampleConfig sampleConfig "a" "b" 7 samplePeerId
        [sampleAddr] (.fromSecs 300) (List.replicate 32 97) ⟨.v4 0x01020304, 5353⟩ ↔
      ∀ addr ∈ announced sampleLibp2p samplePeerId [sampleAddr],
        Readable (txtToSend sampleLibp2p samplePeerId addr) :=
  isolated_iff sampleLibp2p sampleConfig sampleConfig 7 samplePeerId [sampleAddr]
    (.fromSecs 300) (List.replicate 32 97) ⟨.v4 0x01020304, 5353⟩ Hickory.plain_standard
    validName_a printsNames_a (by decide)
    (fun b hb => by rw [List.eq_of_mem_replicate hb]; decide)

def spacedAddr : Multiaddr := [.other "dns4" "a b", .tcp 5000]

def spacedLibp2p : Libp2p :=
  { sampleLibp2p with
    multiaddrToString := fun addr =>
      if addr = spacedAddr then "/dns4/a b/tcp/5000" else sampleLibp2p.multiaddrToString addr }

/-- With an address whose text has a space, the services `a` and `b` are not isolated: the
packet that carries it is refused. -/
theorem isolation_fails :
    ValidName "a" ∧
      ¬ Isolated Hickory.plain spacedLibp2p sampleConfig sampleConfig "a" "b" 7 samplePeerId
        [spacedAddr] (.fromSecs 300) (List.replicate 32 97) ⟨.v4 0x01020304, 5353⟩ := by
  refine ⟨validName_a, fun hisolated => ?_⟩
  have hann : spacedAddr ∈ announced spacedLibp2p samplePeerId [spacedAddr] := by decide
  have hreadable := readable_of_isolated spacedLibp2p sampleConfig sampleConfig 7 samplePeerId
    [spacedAddr] (.fromSecs 300) (List.replicate 32 97) ⟨.v4 0x01020304, 5353⟩
    Hickory.plain_standard validName_a (by decide)
    (fun b hb => by rw [List.eq_of_mem_replicate hb]; decide) hisolated hann
  exact absurd hreadable (by decide)

end P2pa.Mdns.Iface
