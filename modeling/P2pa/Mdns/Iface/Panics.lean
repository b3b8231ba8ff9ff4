import P2pa.Mdns.Iface.Isolation
import P2pa.Mdns.Iface.Limits

/-!
# Service names that can be written

The text that configures a service becomes the first labels of its names, with an
underscore before and a dot after it.  Nothing checks it before `append_qname` does.
-/

namespace P2pa.Mdns.Iface

open Utils Wire

/-! ## Names on the wire -/

theorem ofNat_length_ne_zero {l : Bytes} (h : 1 ≤ l.length ∧ l.length ≤ 63) :
    UInt8.ofNat l.length ≠ 0 := by
  intro hzero
  have hbyte := congrArg UInt8.toNat hzero
  rw [UInt8.toNat_ofNat', UInt8.toNat_zero] at hbyte
  omega

/-- Labels closed by a zero byte are read in one way. -/
theorem labels_inj {ls ls' : List Bytes} {rest rest' : Bytes}
    (h : ∀ l ∈ ls, 1 ≤ l.length ∧ l.length ≤ 63)
    (h' : ∀ l ∈ ls', 1 ≤ l.length ∧ l.length ≤ 63)
    (heq : ls.flatMap encodeLabel ++ 0 :: rest = ls'.flatMap encodeLabel ++ 0 :: rest') :
    ls = ls' := by
  induction ls generalizing ls' with
  | nil =>
      cases ls' with
      | nil => rfl
      | cons l' ls' =>
          have hne := ofNat_length_ne_zero (h' l' (by simp))
          exact absurd (List.cons.inj heq).1.symm hne
  | cons l ls ih =>
      cases ls' with
      | nil =>
          have hne := ofNat_length_ne_zero (h l (by simp))
          exact absurd (List.cons.inj heq).1 hne
      | cons l' ls' =>
          have hl := h l (by simp)
          have hl' := h' l' (by simp)
          rw [List.flatMap_cons, List.flatMap_cons, List.append_assoc, List.append_assoc]
            at heq
          obtain ⟨hbyte, hrest⟩ := List.cons.inj heq
          have hlength : l.length = l'.length := by
            have := congrArg UInt8.toNat hbyte
            rw [UInt8.toNat_ofNat', UInt8.toNat_ofNat'] at this
            omega
          obtain ⟨hlabel, hrest⟩ := List.append_inj hrest hlength
          rw [hlabel, ih (fun x hx => h x (List.mem_cons_of_mem l hx))
            (fun x hx => h' x (List.mem_cons_of_mem l' hx)) hrest]

theorem qname_eq_encode {text : Bytes} {name : Dns.Name} {rest rest' : Bytes}
    (h : IsQname text) (heq : qname text ++ rest = name.encode ++ rest') :
    qname text = name.encode := by
  unfold qname Dns.Name.encode at heq ⊢
  rw [flatMap_encode, List.append_assoc, List.append_assoc] at heq
  rw [flatMap_encode, labels_inj h.labels (length_labels name) heq]

/-! ## The names of a service -/

/-- A text whose names can be written: ASCII, with labels of 1 to 63 bytes, of which the
first has its underscore to come and may be missing. -/
structure IsServiceName (name : String) : Prop where
  ascii : isAscii (bytes name) = true
  length : (bytes name).length ≤ 223
  first : ∀ l ∈ ((bytes name).splitOn 46).head?, l.length ≤ 62
  others : ∀ l ∈ ((bytes name).splitOn 46).tail, 1 ≤ l.length ∧ l.length ≤ 63

section Names

variable {name suffix : String}

theorem bytes_firstLabels (h : name ≠ "") :
    bytes (ServiceConfig.firstLabels name ++ suffix) =
      95 :: bytes name ++ 46 :: bytes suffix := by
  have hunderscore : bytes "_" = [95] := by decide
  have hdot : bytes "." = [46] := by decide
  unfold ServiceConfig.firstLabels
  rw [if_pos h, bytes_append, bytes_append, bytes_append, hunderscore, hdot]
  simp

theorem firstLabels_nil : ServiceConfig.firstLabels "" ++ suffix = suffix := by
  unfold ServiceConfig.firstLabels
  rw [if_neg (by simp), String.empty_append]

theorem splitOn_firstLabels (h : name ≠ "") :
    (bytes (ServiceConfig.firstLabels name ++ suffix)).splitOn 46 =
      ((bytes name).splitOn 46).modifyHead (95 :: ·) ++ (bytes suffix).splitOn 46 := by
  rw [bytes_firstLabels h, List.splitOn_append_cons_self, List.splitOn_cons_eq_if_modifyHead,
    if_neg (by decide)]

theorem forall_modifyHead_iff {ls : List Bytes} (h : ls ≠ []) :
    (∀ l ∈ ls.modifyHead (95 :: ·), 1 ≤ l.length ∧ l.length ≤ 63) ↔
      (∀ l ∈ ls.head?, l.length ≤ 62) ∧ ∀ l ∈ ls.tail, 1 ≤ l.length ∧ l.length ≤ 63 := by
  cases ls with
  | nil => exact absurd rfl h
  | cons first others =>
      rw [List.modifyHead_cons, List.forall_mem_cons, List.head?_cons, List.tail_cons,
        List.length_cons]
      apply and_congr
      · constructor
        · intro hfirst l hl
          cases hl
          omega
        · intro hfirst
          have := hfirst first rfl
          omega
      · exact Iff.rfl

theorem isQname_firstLabels_iff (hsuffix : IsQname (bytes suffix)) :
    IsQname (bytes (ServiceConfig.firstLabels name ++ suffix)) ↔
      isAscii (bytes name) = true ∧
        (∀ l ∈ ((bytes name).splitOn 46).head?, l.length ≤ 62) ∧
        ∀ l ∈ ((bytes name).splitOn 46).tail, 1 ≤ l.length ∧ l.length ≤ 63 := by
  by_cases hname : name = ""
  · subst hname
    rw [firstLabels_nil]
    exact iff_of_true hsuffix ⟨by decide, by decide, by decide⟩
  · have hlabels := forall_modifyHead_iff (List.splitOn_ne_nil 46 (bytes name))
    have hascii : isAscii (bytes (ServiceConfig.firstLabels name ++ suffix)) =
        isAscii (bytes name) := by
      have hrest : isAscii (bytes suffix) = true := hsuffix.ascii
      unfold isAscii at hrest ⊢
      rw [bytes_firstLabels hname, List.all_append, List.all_cons, List.all_cons, hrest]
      simp
    constructor
    · intro h
      refine ⟨hascii ▸ h.ascii, hlabels.mp fun l hl => h.labels l ?_⟩
      rw [splitOn_firstLabels hname]
      exact List.mem_append_left _ hl
    · rintro ⟨hname', hfirst⟩
      refine ⟨hascii.trans hname', ?_⟩
      rw [splitOn_firstLabels hname, List.forall_mem_append]
      exact ⟨hlabels.mpr hfirst, hsuffix.labels⟩

end Names

theorem isQname_serviceSuffix : IsQname (bytes "_p2p._udp.local") :=
  ⟨by decide, by decide⟩

theorem isQname_metaSuffix : IsQname (bytes "_services._dns-sd._udp.local") :=
  ⟨by decide, by decide⟩

theorem length_metaText (name : String) :
    (bytes (metaText name)).length = (bytes (serviceText name)).length + 13 := by
  have hlength : (bytes "_services._dns-sd._udp.local").length =
      (bytes "_p2p._udp.local").length + 13 := by decide
  unfold metaText serviceText
  rw [bytes_append, bytes_append, List.length_append, List.length_append, hlength]
  omega

theorem length_metaText_le_iff (name : String) :
    (qname (bytes (metaText name))).length ≤ 255 ↔ (bytes name).length ≤ 223 := by
  have hlength : (bytes "_services._dns-sd._udp.local").length = 28 := by decide
  rw [length_qname]
  unfold metaText
  by_cases hname : name = ""
  · subst hname
    exact iff_of_true (by decide) (by decide)
  · rw [bytes_firstLabels hname, List.length_append, List.length_cons, List.length_cons,
      hlength]
    omega

/-! ## What is written of the names -/

/-- The builders trip no assertion: what they return are messages with domain names, and
the buffers of the first two are filled. -/
structure Sound (config : ServiceConfig) : Prop where
  query : ∀ id, ∃ service : Dns.Name,
    buildQuery id config.serviceName = some (queryMessage id service).encode ∧
      (queryMessage id service).encode.length = 18 + config.serviceName.length
  discovery : ∀ id ttl, ∃ service metaQuery : Dns.Name,
    buildServiceDiscoveryResponse id ttl config.serviceName config.metaQueryService =
        some (discoveryMessage id (durationToSecs ttl) service metaQuery).encode ∧
      (discoveryMessage id (durationToSecs ttl) service metaQuery).encode.length =
        26 + config.serviceName.length + config.metaQueryService.length
  response : ∀ lib id peerId addresses ttl name, IsPeerName name →
    ∃ service peer : Dns.Name,
      buildQueryResponse lib id peerId addresses ttl config.serviceName name =
        some ((List.range (packetCount (announced lib peerId addresses))).map fun k =>
          (groupMessage lib id peerId (durationToSecs ttl) service peer
            (group (announced lib peerId addresses) k)).encode)

theorem sound_of_written {config : ServiceConfig} {service metaQuery : Dns.Name}
    (hservice : Written service config.serviceName)
    (hmeta : Written metaQuery config.metaQueryService) : Sound config where
  query id := by
    have hquery := buildQuery_eq hservice id
    exact ⟨service, hquery, length_buildQuery hquery⟩
  discovery id ttl := by
    have hdiscovery := buildServiceDiscoveryResponse_eq hservice hmeta id ttl
    exact ⟨service, metaQuery, hdiscovery, length_buildServiceDiscoveryResponse hdiscovery⟩
  response lib id peerId addresses ttl name hname := by
    have hlength := hname.length
    obtain ⟨peer, hpeer⟩ :=
      (isHostName_of_alphanumeric ⟨by omega, hlength.2⟩ hname.alphanumeric).exists_name
    exact ⟨service, peer, buildQueryResponse_messages lib id peerId service peer ttl hservice
      hpeer.written addresses⟩

/-- The name a discovery response answers is read from where it was written. -/
theorem metaQueryService_of_discovery {id : UInt16} {ttl : Duration}
    {serviceName metaQueryService : Bytes} {service metaQuery : Dns.Name}
    (h : buildServiceDiscoveryResponse id ttl serviceName metaQueryService =
      some (discoveryMessage id (durationToSecs ttl) service metaQuery).encode) :
    IsQname metaQueryService ∧ qname metaQueryService = metaQuery.encode := by
  obtain ⟨out, hout, h⟩ := Option.bind_eq_some_iff.mp h
  obtain ⟨name, hname, h⟩ := Option.bind_eq_some_iff.mp h
  obtain ⟨hmeta, rfl⟩ := appendQname_eq_some_iff.mp hout
  have hbytes := congrArg (List.drop 12) (Option.some.inj h)
  simp only [appendU16_eq, appendU32_eq, discoveryMessage, Dns.Message.encode,
    Dns.Record.encode, List.append_assoc, List.nil_append, List.flatMap_nil,
    List.flatMap_singleton] at hbytes
  -- the name follows the six fields of the header
  change qname metaQueryService ++ _ = metaQuery.encode ++ _ at hbytes
  exact ⟨hmeta, qname_eq_encode hmeta hbytes⟩

/-- The names of a service can be written exactly if its text is ASCII, has 223 bytes, a
first label of at most 62 and others of 1 to 63. -/
theorem sound_iff (config : ServiceConfig) (name : String) :
    Sound (config.withServiceName name) ↔ IsServiceName name := by
  have hmeta : (config.withServiceName name).metaQueryService = bytes (metaText name) := rfl
  constructor
  · intro h
    obtain ⟨service, metaQuery, hbuild, -⟩ := h.discovery 0 (.fromSecs 0)
    obtain ⟨hqname, hencode⟩ := metaQueryService_of_discovery hbuild
    rw [hmeta] at hqname hencode
    obtain ⟨hascii, hfirst, hothers⟩ := (isQname_firstLabels_iff isQname_metaSuffix).mp hqname
    have hle := (length_metaText_le_iff name).mp (hencode ▸ metaQuery.length_encode_le)
    exact ⟨hascii, hle, hfirst, hothers⟩
  · intro h
    have hlength := length_metaText name
    have hle := (length_metaText_le_iff name).mpr h.length
    have hle' : (qname (bytes (serviceText name))).length ≤ 255 := by
      rw [length_qname] at hle ⊢
      omega
    obtain ⟨service, hservice⟩ := exists_written
      ((isQname_firstLabels_iff isQname_serviceSuffix).mpr ⟨h.ascii, h.first, h.others⟩) hle'
    obtain ⟨metaQuery, hwritten⟩ := exists_written
      ((isQname_firstLabels_iff isQname_metaSuffix).mpr ⟨h.ascii, h.first, h.others⟩) hle
    exact sound_of_written hservice hwritten

/-- Two dots in a row leave an empty label. -/
theorem sound_fails : ∃ name, ¬ Sound (ServiceConfig.default.withServiceName name) := by
  refine ⟨"a..b", fun h => ?_⟩
  have hnone : buildQuery 7 (ServiceConfig.default.withServiceName "a..b").serviceName = none := by
    decide
  obtain ⟨service, hquery, -⟩ := h.query 7
  rw [hnone] at hquery
  cases hquery

end P2pa.Mdns.Iface
