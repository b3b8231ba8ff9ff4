import P2pa.Mdns.Iface.Isolation
import P2pa.Mdns.Iface.Limits

/-!
# What the packets of a task tell another one

A packet is read out of a buffer that may have cut it.  Whoever reads it, it tells of a peer
only if it is an answer to a query, and then of the peer that built it.
-/

namespace P2pa.Mdns.Iface

open Utils Wire

/-- Besides, a message is decoded from the front, and what follows it is ignored. -/
structure Hickory.Sequential (H : Hickory) : Prop extends H.Standard where
  fromVec_append : ∀ bs more m, H.fromVec bs = some m → H.fromVec (bs ++ more) = some m

theorem Hickory.plain_sequential : Hickory.plain.Sequential where
  toStandard := plain_standard
  fromVec_append _ more _ h := Dns.decode_append h more

/-- The texts of the addresses have no space and are parsed back, and the random name is one
`generate_peer_name` can draw. -/
structure Surroundings.Regular (lib : Libp2p) (peerId : PeerId) (around : Surroundings) :
    Prop where
  peerName : IsPeerName around.peerName
  noSpace : ∀ addr ∈ around.listenAddresses, 32 ∉ bytes (txtToSend lib peerId addr)
  parse : ∀ addr ∈ around.listenAddresses,
    lib.multiaddrFromStr (lib.multiaddrToString addr ++ "/p2p/" ++
      lib.peerIdToBase58 peerId) = some (addr.push (.p2p peerId))

section Overheard

variable {H : Hickory} {lib : Libp2p}

variable (lib) in
/-- A datagram that has been cut is refused, or parsed as the whole of it. -/
theorem parse_cut (hH : H.Sequential) (settings : Settings) (data : Bytes)
    (src : SocketAddr) :
    settings.parse H lib data src = .error () ∨
      settings.parse H lib data src = MdnsPacket.newFromBytes H lib data src
        settings.config.serviceNameFqdn settings.config.metaQueryServiceFqdn := by
  unfold Settings.parse MdnsPacket.newFromBytes
  cases hcut : H.fromVec (received data) with
  | none => exact .inl rfl
  | some m =>
      have hwhole := hH.fromVec_append _ (data.drop recvBufferSize) m hcut
      unfold received at hwhole
      rw [List.take_append_drop] at hwhole
      rw [hwhole]
      exact .inr rfl

variable (lib) in
/-- What a task makes of a datagram that another task's packet came in. -/
theorem parse_hear (hH : H.Sequential) {settings : Settings} {receiver : ServiceConfig}
    {n₂ : String} (hconfig : settings.config = receiver.withServiceName n₂) (data : Bytes)
    (src : SocketAddr) :
    settings.parse H lib data src = .error () ∨
      settings.parse H lib data src = hear H lib receiver n₂ src data := by
  have hcut := parse_cut lib hH settings data src
  rw [hconfig] at hcut
  exact hcut

def told (H : Hickory) (lib : Libp2p) (settings : Settings) (data : Bytes)
    (src : SocketAddr) : List MdnsPeer :=
  match settings.parse H lib data src with
  | .ok (some (.response response)) => response.peers
  | _ => []

def observedFrom (src : SocketAddr) : Multiaddr :=
  [MdnsResponse.protocolOf src.ip, .udp src.port]

theorem extracted_eq (settings : Settings) (data : Bytes) (src : SocketAddr)
    (around : Surroundings) :
    (Call.read (.datagram data src) around).extracted H lib settings =
      MdnsResponse.extractDiscovered lib { peers := told H lib settings data src, src }
        around.now settings.localPeerId := by
  rw [extracted_read]
  unfold Call.packet told
  dsimp only
  cases hparse : settings.parse H lib data src with
  | error e => rfl
  | ok packet =>
      match packet with
      | none => rfl
      | some (.query query) => rfl
      | some (.serviceDiscovery discovery) => rfl
      | some (.response response) =>
          have hsrc : response.src = src := by
            unfold Settings.parse MdnsPacket.newFromBytes at hparse
            split at hparse
            · cases hparse
            · split at hparse
              · cases hparse
                rfl
              · split at hparse
                · cases hparse
                · split at hparse <;> cases hparse
          change response.extractDiscovered lib around.now settings.localPeerId = _
          rw [← hsrc]

theorem mem_extractDiscovered_iff {response : MdnsResponse} {now : Instant}
    {localPeerId : PeerId} {tuple : Discovered} :
    tuple ∈ response.extractDiscovered lib now localPeerId ↔
      ∃ peer ∈ response.peers, peer.peerId ≠ localPeerId ∧ ∃ addr ∈ peer.addrs, ∃ newAddr,
        lib.addressTranslation addr (observedFrom response.src) = some newAddr ∧
          (peer.peerId, newAddr, now + peer.ttl.toNat * 1000000000) = tuple := by
  unfold MdnsResponse.extractDiscovered MdnsResponse.observedAddress observedFrom
  simp only [List.mem_flatMap, List.mem_filter, List.mem_filterMap, Option.map_eq_some_iff,
    decide_eq_true_eq, and_assoc]

section Receiver

variable {settings : Settings} {receiver : ServiceConfig} {n₁ n₂ : String} {src : SocketAddr}

theorem told_eq_nil (hH : H.Sequential) (hconfig : settings.config = receiver.withServiceName n₂)
    {data : Bytes} {packet : Option MdnsPacket}
    (hhear : hear H lib receiver n₂ src data = .ok packet)
    (hpeers : ∀ response, packet = some (.response response) → response.peers = []) :
    told H lib settings data src = [] := by
  unfold told
  rcases parse_hear lib hH hconfig data src with hparse | hparse
  · rw [hparse]
  · rw [hparse, hhear]
    match packet, hpeers with
    | none, _ => rfl
    | some (.query query), _ => rfl
    | some (.response response), hpeers => exact hpeers response rfl
    | some (.serviceDiscovery discovery), _ => rfl

theorem told_query (hH : H.Sequential) (hconfig : settings.config = receiver.withServiceName n₂)
    {service : Dns.Name} (hservice : Spells service (bytes (serviceText n₁)))
    (hprints : H.Prints service) (id : UInt16) :
    told H lib settings (queryMessage id service).encode src = [] := by
  have hhear : hear H lib receiver n₂ src (queryMessage id service).encode = _ :=
    hear_query lib receiver id src hH.toLawful hservice hprints
  rw [if_neg (serviceText_ne_metaText n₁ n₂)] at hhear
  by_cases hname : serviceText n₁ = serviceText n₂
  · rw [if_pos hname] at hhear
    exact told_eq_nil hH hconfig hhear nofun
  · rw [if_neg hname] at hhear
    exact told_eq_nil hH hconfig hhear nofun

theorem told_discovery (hH : H.Sequential)
    (hconfig : settings.config = receiver.withServiceName n₂) {service metaQuery : Dns.Name}
    (hmeta : Spells metaQuery (bytes (metaText n₁))) (hprints : H.Prints metaQuery)
    (id : UInt16) (ttl : UInt32) :
    told H lib settings (discoveryMessage id ttl service metaQuery).encode src = [] := by
  have hdecode := hH.fromVec_encode _ (wellFormed_discovery id ttl service metaQuery)
    (isMdns_discovery id ttl service metaQuery)
  refine told_eq_nil hH hconfig (newFromBytes_of_no_queries lib src _ _ hdecode rfl) ?_
  rintro response ⟨⟩
  apply peers_eq_nil
  intro r hr
  rw [List.mem_singleton.mp hr, serviceNameFqdn_eq]
  change H.nameToString metaQuery ≠ _
  rw [nameToString_eq hmeta hprints]
  exact fun heq => serviceText_ne_metaText n₂ n₁ (append_right_injective "." heq).symm

variable (src) in
theorem told_group (hH : H.Sequential) (hconfig : settings.config = receiver.withServiceName n₂)
    {service peer : Dns.Name} (hservice : Spells service (bytes (serviceText n₁)))
    (hprints : H.Prints service) (id : UInt16) (peerId : PeerId) (ttl : UInt32)
    {group : List Multiaddr} (hlen : group.length ≤ maxRecordsPerPacket)
    (hann : ∀ addr ∈ group, Announced lib peerId addr)
    (hspace : ∀ addr ∈ group, 32 ∉ bytes (txtToSend lib peerId addr))
    (hparse : ∀ addr ∈ group, lib.multiaddrFromStr (lib.multiaddrToString addr ++ "/p2p/" ++
      lib.peerIdToBase58 peerId) = some (addr.push (.p2p peerId))) :
    let data := (groupMessage lib id peerId ttl service peer group).encode
    (told H lib settings data src = [] ∨
        n₁ = n₂ ∧ told H lib settings data src = peersOf peerId ttl group) ∧
      (n₁ = n₂ → received data = data →
        told H lib settings data src = peersOf peerId ttl group) := by
  intro data
  have hdata : data = (responseMessage lib id peerId ttl service peer group).encode :=
    congrArg Dns.Message.encode (groupMessage_of_no_space lib id peerId ttl service peer hann
      hspace)
  have hsame : n₁ = n₂ → hear H lib receiver n₂ src data =
      .ok (some (.response { peers := peersOf peerId ttl group, src })) := by
    rintro rfl
    rw [hdata]
    unfold hear
    rw [serviceNameFqdn_eq, newFromBytes_response lib id peerId ttl service peer H src
      hH.toLawful _ _ hlen hann hparse, if_pos (nameToString_eq hservice hprints)]
  constructor
  · by_cases hname : n₁ = n₂
    · rcases parse_hear lib hH hconfig data src with herror | hparsed
      · refine .inl ?_
        unfold told
        rw [herror]
      · refine .inr ⟨hname, ?_⟩
        unfold told
        rw [hparsed, hsame hname]
    · obtain ⟨response, hhear, hpeers⟩ : ∃ response,
          hear H lib receiver n₂ src data = .ok (some (.response response)) ∧
            (response.peers ≠ [] → n₁ = n₂) :=
        hear_groupMessage lib receiver id peerId src hH.toLawful hservice hprints ttl hlen hann
          fun addr ha => readable_of_no_space (hann addr ha) (hspace addr ha)
      refine .inl (told_eq_nil hH hconfig hhear ?_)
      rintro response' ⟨⟩
      by_contra hne
      exact hname (hpeers hne)
  · intro hname hwhole
    have hparsed : settings.parse H lib data src = hear H lib receiver n₂ src data := by
      unfold Settings.parse hear
      rw [hwhole, hconfig]
    unfold told
    rw [hparsed, hsame hname]

end Receiver

/-! ## The packets of a task -/

section Sender

variable (H lib) (settings : Settings) (name : String)

/-- A packet that a call makes the task of a service build, by what the call is. -/
inductive BuiltPacket (call : Call) : Bytes → Prop
  | query (id : UInt16) (service : Dns.Name) (hcall : call = .tick id)
      (hservice : Spells service (bytes (serviceText name))) :
      BuiltPacket call (queryMessage id service).encode
  | answer (query : MdnsQuery) (outcome : ReadOutcome) (around : Surroundings)
      (service peer : Dns.Name) (k : Nat) (hcall : call = .read outcome around)
      (hpacket : call.packet H lib settings = some (.query query))
      (hservice : Spells service (bytes (serviceText name)))
      (hk : k < packetCount (announced lib settings.localPeerId around.listenAddresses)) :
      BuiltPacket call (groupMessage lib query.queryId settings.localPeerId
        (durationToSecs settings.ttl) service peer
        (group (announced lib settings.localPeerId around.listenAddresses) k)).encode
  | discovery (discovery : MdnsServiceDiscovery) (service metaQuery : Dns.Name)
      (hpacket : call.packet H lib settings = some (.serviceDiscovery discovery))
      (hmeta : Spells metaQuery (bytes (metaText name))) :
      BuiltPacket call (discoveryMessage discovery.queryId (durationToSecs settings.ttl) service
        metaQuery).encode

variable {H lib settings name} {config : ServiceConfig} {call : Call}

/-- The packets of an answer, one for each batch. -/
theorem built_answer (hconfig : settings.config = config.withServiceName name)
    (hvalid : ValidName name) {outcome : ReadOutcome} {around : Surroundings}
    {query : MdnsQuery}
    (hpacket : (Call.read outcome around).packet H lib settings = some (.query query))
    (hname : IsPeerName around.peerName) :
    ∃ service peer, Spells service (bytes (serviceText name)) ∧
      (Call.read outcome around).built H lib settings =
        some ((List.range (packetCount (announced lib settings.localPeerId
          around.listenAddresses))).map fun k =>
            (groupMessage lib query.queryId settings.localPeerId (durationToSecs settings.ttl)
              service peer (group (announced lib settings.localPeerId around.listenAddresses)
                k)).encode) := by
  obtain ⟨service, hservice⟩ := hvalid.service.exists_name
  obtain ⟨peer, hpeer⟩ := (isHostName_of_alphanumeric
    ⟨by have := hname.length; omega, hname.length.2⟩ hname.alphanumeric).exists_name
  refine ⟨service, peer, hservice, ?_⟩
  rw [built_read, hpacket, hconfig]
  exact buildQueryResponse_messages lib query.queryId settings.localPeerId service peer
    settings.ttl hservice.written hpeer.written around.listenAddresses

theorem packet_of_enqueued (hconfig : settings.config = config.withServiceName name)
    (hvalid : ValidName name)
    (hname : ∀ outcome around, call = .read outcome around → IsPeerName around.peerName)
    {data : Bytes} (hdata : data ∈ call.enqueued H lib settings) :
    BuiltPacket H lib settings name call data := by
  obtain ⟨service, hservice⟩ := hvalid.service.exists_name
  obtain ⟨metaQuery, hmeta⟩ := hvalid.metaQuery.exists_name
  unfold Call.enqueued at hdata
  cases call with
  | tick id =>
      have hquery : (Call.tick id).built H lib settings =
          some [(queryMessage id service).encode] := by
        change (buildQuery id settings.config.serviceName).map _ = _
        rw [hconfig, serviceName_eq, buildQuery_eq hservice.written]
        rfl
      rw [hquery] at hdata
      rw [List.mem_singleton.mp hdata]
      exact .query id service rfl hservice
  | write packet dst outcome => cases hdata
  | send tuple outcome => cases hdata
  | read outcome around =>
      cases hpacket : (Call.read outcome around).packet H lib settings with
      | none =>
          rw [built_read, hpacket] at hdata
          cases hdata
      | some packet =>
          cases packet with
          | query query =>
              obtain ⟨service, peer, hservice, hbuilt⟩ :=
                built_answer hconfig hvalid hpacket (hname outcome around rfl)
              rw [hbuilt] at hdata
              obtain ⟨k, hk, rfl⟩ := List.mem_map.mp hdata
              exact .answer query outcome around service peer k rfl hpacket hservice
                (List.mem_range.mp hk)
          | response response =>
              rw [built_read, hpacket] at hdata
              cases hdata
          | serviceDiscovery discovery =>
              rw [built_read, hpacket] at hdata
              dsimp only at hdata
              rw [hconfig] at hdata
              rw [serviceName_eq, show (config.withServiceName name).metaQueryService =
                bytes (metaText name) from rfl,
                buildServiceDiscoveryResponse_eq hservice.written hmeta.written] at hdata
              rw [List.mem_singleton.mp hdata]
              exact .discovery discovery service metaQuery hpacket hmeta

theorem mem_told (hH : H.Sequential) (hconfig : settings.config = config.withServiceName name)
    (hvalid : ValidName name) (hprints : H.PrintsNames name)
    (hregular : ∀ outcome around, call = .read outcome around →
      around.Regular lib settings.localPeerId)
    {data : Bytes} (hdata : data ∈ call.enqueued H lib settings)
    {receiver : ServiceConfig} {n₂ : String} {settings' : Settings}
    (hconfig' : settings'.config = receiver.withServiceName n₂) {src : SocketAddr}
    {peer : MdnsPeer} (hpeer : peer ∈ told H lib settings' data src) :
    name = n₂ ∧ peer.peerId = settings.localPeerId ∧
      peer.ttl = durationToSecs settings.ttl ∧
      ∃ query outcome around, call = .read outcome around ∧
        call.packet H lib settings = some (.query query) ∧
        ∀ addr ∈ peer.addrs, addr ∈ announced lib settings.localPeerId
          around.listenAddresses := by
  have hkind := packet_of_enqueued hconfig hvalid
    (fun outcome around hcall => (hregular outcome around hcall).peerName) hdata
  cases hkind with
  | query id service _ hservice =>
      rw [told_query hH hconfig' hservice (hprints.service _ hservice)] at hpeer
      cases hpeer
  | discovery discovery service metaQuery _ hmeta =>
      rw [told_discovery hH hconfig' hmeta (hprints.metaQuery _ hmeta)] at hpeer
      cases hpeer
  | answer query outcome around service peerName k hcall hpacket hservice hk =>
      have haround := hregular outcome around hcall
      have hgroup : ∀ addr ∈ group (announced lib settings.localPeerId
          around.listenAddresses) k, Announced lib settings.localPeerId addr ∧
            addr ∈ around.listenAddresses := by
        intro addr ha
        obtain ⟨htake, hann⟩ := List.mem_filter.mp (mem_of_mem_group ha)
        exact ⟨hann, List.mem_of_mem_take htake⟩
      rcases (told_group src hH hconfig' hservice (hprints.service _ hservice) query.queryId
          settings.localPeerId (durationToSecs settings.ttl) (length_group_le _ k)
          (fun addr ha => (hgroup addr ha).1)
          (fun addr ha => haround.noSpace addr (hgroup addr ha).2)
          fun addr ha => haround.parse addr (hgroup addr ha).2).1 with hnone | ⟨hsame, htold⟩
      · rw [hnone] at hpeer
        cases hpeer
      · rw [htold] at hpeer
        obtain ⟨hid, httl⟩ := mem_peersOf hpeer
        refine ⟨hsame, hid, httl, query, outcome, around, hcall, hpacket, fun addr ha => ?_⟩
        unfold peersOf at hpeer
        split at hpeer
        · cases hpeer
        · rw [List.mem_singleton.mp hpeer] at ha
          exact mem_of_mem_group ha

end Sender

end Overheard

end P2pa.Mdns.Iface
