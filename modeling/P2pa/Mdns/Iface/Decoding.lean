import P2pa.Mdns.Iface.Query
import P2pa.Support.FirstKey

/-!
# What is discovered in a response

The strings under the target of a pointer record say which peer listens where.  A response
is worth the addresses of the peer its first such string is about, record by record.
-/

namespace P2pa.Mdns.Iface

open Utils Wire

/-! ## What a string says -/

/-- The string is `dnsaddr=` and the text of an address that ends in `/p2p/<peer>`. -/
def Says (lib : Libp2p) (txt : Dns.CharString) (peer : PeerId) (addr : Multiaddr) : Prop :=
  ∃ text : String,
    decodeCharacterString txt.bytes = .ok (bytes "dnsaddr=" ++ bytes text) ∧
      lib.multiaddrFromStr text = some (addr.push (.p2p peer))

def peerAndRest (addr : Multiaddr) : Option (PeerId × Multiaddr) :=
  match addr.getLast? with
  | some (.p2p peer) => some (peer, addr.dropLast)
  | _ => none

def said (lib : Libp2p) (txt : Dns.CharString) : Option (PeerId × Multiaddr) :=
  (MdnsPeer.addrOf lib txt).bind peerAndRest

theorem decodeCharacterString_of_ne {src : Bytes} (h : src.head? ≠ some 34) :
    decodeCharacterString src = .ok src := by
  unfold decodeCharacterString
  cases src with
  | nil => rfl
  | cons first rest =>
      have hfirst : first ≠ 34 := fun heq => h (congrArg some heq)
      exact if_neg hfirst

theorem fromUtf8_eq_some_iff {bs : Bytes} {text : String} :
    fromUtf8 bs = some text ↔ bs = bytes text := by
  constructor
  · intro h
    unfold fromUtf8 String.fromUTF8? at h
    split at h
    · cases h
      rfl
    · cases h
  · rintro rfl
    exact fromUtf8_bytes text

theorem isPrefixOf_iff {pre bs : Bytes} :
    pre.isPrefixOf bs = true ↔ bs = pre ++ bs.drop pre.length := by
  rw [List.isPrefixOf_iff_prefix, List.prefix_iff_eq_append, eq_comm]

theorem addrOf_eq_some_iff {lib : Libp2p} {txt : Dns.CharString} {addr : Multiaddr} :
    MdnsPeer.addrOf lib txt = some addr ↔
      ∃ text : String,
        decodeCharacterString txt.bytes = .ok (bytes "dnsaddr=" ++ bytes text) ∧
          lib.multiaddrFromStr text = some addr := by
  have hlength : (bytes "dnsaddr=").length = 8 := by decide
  unfold MdnsPeer.addrOf
  cases hdecode : decodeCharacterString txt.bytes with
  | error e => simp
  | ok content =>
      dsimp only
      constructor
      · intro h
        by_cases hpre : (bytes "dnsaddr=").isPrefixOf content = true
        · rw [if_pos hpre] at h
          obtain ⟨text, htext, haddr⟩ := Option.bind_eq_some_iff.mp h
          have hcontent := isPrefixOf_iff.mp hpre
          rw [hlength, fromUtf8_eq_some_iff.mp htext] at hcontent
          exact ⟨text, congrArg Except.ok hcontent, haddr⟩
        · rw [if_neg hpre] at h
          cases h
      · rintro ⟨text, hcontent, haddr⟩
        obtain rfl := Except.ok.inj hcontent
        have hpre : (bytes "dnsaddr=").isPrefixOf (bytes "dnsaddr=" ++ bytes text) = true :=
          List.isPrefixOf_iff_prefix.mpr (List.prefix_append _ _)
        have hrest : (bytes "dnsaddr=" ++ bytes text).drop 8 = bytes text := by
          rw [← hlength, List.drop_left]
        rw [if_pos hpre, hrest, fromUtf8_bytes, Option.bind_some, haddr]

theorem peerAndRest_eq_some_iff {addr rest : Multiaddr} {peer : PeerId} :
    peerAndRest addr = some (peer, rest) ↔ addr = rest.push (.p2p peer) := by
  unfold peerAndRest Multiaddr.push
  constructor
  · intro h
    split at h
    · rename_i peer' hlast
      cases h
      exact (List.dropLast_append_getLast? _ hlast).symm
    · cases h
  · rintro rfl
    rw [List.getLast?_concat, List.dropLast_concat]

theorem said_eq_some_iff {lib : Libp2p} {txt : Dns.CharString} {peer : PeerId}
    {addr : Multiaddr} : said lib txt = some (peer, addr) ↔ Says lib txt peer addr := by
  unfold said Says
  rw [Option.bind_eq_some_iff]
  constructor
  · rintro ⟨whole, hwhole, hrest⟩
    obtain rfl := peerAndRest_eq_some_iff.mp hrest
    exact addrOf_eq_some_iff.mp hwhole
  · intro h
    exact ⟨_, addrOf_eq_some_iff.mpr h, peerAndRest_eq_some_iff.mpr rfl⟩

/-! ## The peer of a pointer record -/

theorem collect_eq (lib : Libp2p) (acc : Option PeerId × List Multiaddr)
    (txt : Dns.CharString) :
    MdnsPeer.collect lib acc txt =
      match said lib txt with
      | some entry => FirstKey.keep acc entry
      | none => acc := by
  obtain ⟨first, kept⟩ := acc
  unfold MdnsPeer.collect said
  cases MdnsPeer.addrOf lib txt with
  | none => rfl
  | some addr =>
      rw [Option.bind_some]
      unfold peerAndRest Multiaddr.pop FirstKey.keep
      cases hlast : addr.getLast? with
      | none => simp only [hlast]
      | some last =>
          cases last with
          | p2p peer =>
              cases first with
              | none => simp only [hlast]
              | some pid => by_cases hpid : peer = pid <;> simp [hlast, hpid]
          | _ => simp only [hlast]

theorem foldl_collect (lib : Libp2p) (strings : List Dns.CharString) :
    strings.foldl (MdnsPeer.collect lib) (none, []) =
      (strings.filterMap (said lib)).foldl FirstKey.keep (none, []) := by
  rw [List.foldl_filterMap]
  congr 1
  funext acc txt
  rw [collect_eq]
  cases said lib txt with
  | none => rfl
  | some entry => rfl

/-! ## The tuples of a response -/

theorem flatMap_filter {α β : Type} (p : α → Bool) (f : α → List β) (xs : List α) :
    (xs.filter p).flatMap f = xs.flatMap fun x => if p x then f x else [] := by
  induction xs with
  | nil => rfl
  | cons x xs ih =>
      rw [List.flatMap_cons, ← ih]
      by_cases hx : p x = true
      · rw [List.filter_cons_of_pos hx, List.flatMap_cons, if_pos hx]
      · rw [List.filter_cons_of_neg hx, if_neg hx, List.nil_append]

def stringsOf : Dns.RData → List Dns.CharString
  | .txt strings => strings
  | _ => []

def targetOf : Dns.RData → Option Dns.Name
  | .ptr target => some target
  | _ => none

section Response

variable (H : Hickory) (lib : Libp2p) (message : Dns.Message) (src : SocketAddr)
  (serviceNameFqdn : String) (now : Instant) (localPeerId : PeerId)

def stringsUnder (target : Dns.Name) : List Dns.CharString :=
  (message.additionals.filter fun record => H.nameEq record.name target).flatMap
    fun record => stringsOf record.data

def saidUnder (target : Dns.Name) : List (PeerId × Multiaddr) :=
  (stringsUnder H message target).filterMap (said lib)

def pointsTo (record : Dns.Record) : Option Dns.Name :=
  if H.nameToString record.name = serviceNameFqdn then targetOf record.data else none

def seenAs (addr : Multiaddr) : Option Multiaddr :=
  lib.addressTranslation addr [MdnsResponse.protocolOf src.ip, .udp src.port]

/-- The tuples of an answer about the service: the addresses of the peer that the first
string under its target is about. -/
def tuplesUnder (target : Dns.Name) (ttl : UInt32) : List (PeerId × Multiaddr × Instant) :=
  match (saidUnder H lib message target).head? with
  | none => []
  | some (peer, _) =>
      if peer = localPeerId then []
      else
        (FirstKey.under peer (saidUnder H lib message target)).filterMap fun addr =>
          (seenAs lib src addr).map fun addr => (peer, addr, now + ttl.toNat * 1000000000)

def tuplesOf (record : Dns.Record) : List (PeerId × Multiaddr × Instant) :=
  match pointsTo H serviceNameFqdn record with
  | none => []
  | some target => tuplesUnder H lib message src now localPeerId target record.ttl

theorem txtStrings_eq (target : Dns.Name) :
    MdnsPeer.txtStrings H message target = stringsUnder H message target := by
  unfold MdnsPeer.txtStrings stringsUnder
  rw [flatMap_filter]
  apply List.flatMap_congr
  intro record _
  cases record.data with
  | ptr name => rfl
  | txt strings => rfl
  | other rtype bs => rfl

theorem peerNew_eq (target : Dns.Name) (ttl : UInt32) :
    MdnsPeer.new H lib message target ttl =
      (saidUnder H lib message target).head?.map fun entry =>
        { addrs := FirstKey.under entry.1 (saidUnder H lib message target)
          peerId := entry.1
          ttl } := by
  unfold MdnsPeer.new saidUnder
  rw [txtStrings_eq, foldl_collect]
  cases (stringsUnder H message target).filterMap (said lib) with
  | nil => rfl
  | cons entry entries =>
      rw [FirstKey.foldl_keep_cons]
      rfl

theorem peerOf_eq (record : Dns.Record) :
    MdnsResponse.peerOf H lib message serviceNameFqdn record =
      (pointsTo H serviceNameFqdn record).bind fun target =>
        MdnsPeer.new H lib message target record.ttl := by
  unfold MdnsResponse.peerOf pointsTo
  by_cases hname : H.nameToString record.name = serviceNameFqdn
  · rw [if_neg (not_not.mpr hname), if_pos hname]
    cases record.data with
    | ptr target => rfl
    | txt strings => rfl
    | other rtype bs => rfl
  · rw [if_pos hname, if_neg hname]
    rfl

def tuplesOfPeer (peer : MdnsPeer) : List (PeerId × Multiaddr × Instant) :=
  if peer.peerId = localPeerId then []
  else
    peer.addrs.filterMap fun addr =>
      (seenAs lib src addr).map fun addr =>
        (peer.peerId, addr, now + peer.ttl.toNat * 1000000000)

theorem extractDiscovered_eq (peers : List MdnsPeer) :
    MdnsResponse.extractDiscovered lib { peers, src } now localPeerId =
      peers.flatMap (tuplesOfPeer lib src now localPeerId) := by
  unfold MdnsResponse.extractDiscovered
  rw [flatMap_filter]
  apply List.flatMap_congr
  intro peer _
  unfold tuplesOfPeer
  by_cases hlocal : peer.peerId = localPeerId
  · rw [if_pos hlocal, if_neg (by simp [hlocal])]
  · rw [if_neg hlocal, if_pos (by simp [hlocal])]
    rfl

theorem tuplesOf_eq (record : Dns.Record) :
    (MdnsResponse.peerOf H lib message serviceNameFqdn record).toList.flatMap
        (tuplesOfPeer lib src now localPeerId) =
      tuplesOf H lib message src serviceNameFqdn now localPeerId record := by
  rw [peerOf_eq]
  unfold tuplesOf
  cases pointsTo H serviceNameFqdn record with
  | none => rfl
  | some target =>
      change _ = tuplesUnder H lib message src now localPeerId target record.ttl
      rw [Option.bind_some, peerNew_eq]
      unfold tuplesUnder
      cases (saidUnder H lib message target).head? with
      | none => rfl
      | some entry => exact List.append_nil _

def discovered : List (PeerId × Multiaddr × Instant) :=
  (MdnsResponse.new H lib message src serviceNameFqdn).extractDiscovered lib now localPeerId

theorem discovered_eq :
    discovered H lib message src serviceNameFqdn now localPeerId =
      message.answers.flatMap
        (tuplesOf H lib message src serviceNameFqdn now localPeerId) := by
  unfold discovered MdnsResponse.new
  rw [extractDiscovered_eq, List.filterMap_eq_flatMap_toList, List.flatMap_assoc]
  apply List.flatMap_congr
  intro record _
  exact tuplesOf_eq H lib message src serviceNameFqdn now localPeerId record

/-! ## Whose address it is -/

def SaidUnder (target : Dns.Name) (ttl : UInt32) (tuple : PeerId × Multiaddr × Instant) :
    Prop :=
  ∃ txt ∈ stringsUnder H message target, ∃ addr,
    Says lib txt tuple.1 addr ∧ tuple.1 ≠ localPeerId ∧
      seenAs lib src addr = some tuple.2.1 ∧ tuple.2.2 = now + ttl.toNat * 1000000000

theorem saidUnder_of_mem {target : Dns.Name} {ttl : UInt32}
    {tuple : PeerId × Multiaddr × Instant}
    (h : tuple ∈ tuplesUnder H lib message src now localPeerId target ttl) :
    SaidUnder H lib message src now localPeerId target ttl tuple := by
  unfold tuplesUnder at h
  split at h
  · cases h
  · rename_i peer first hhead
    by_cases hlocal : peer = localPeerId
    · rw [if_pos hlocal] at h
      cases h
    · rw [if_neg hlocal] at h
      obtain ⟨addr, haddr, htuple⟩ := List.mem_filterMap.mp h
      obtain ⟨seen, hseen, rfl⟩ := Option.map_eq_some_iff.mp htuple
      obtain ⟨txt, htxt, hsaid⟩ := List.mem_filterMap.mp (FirstKey.mem_under haddr)
      exact ⟨txt, htxt, addr, said_eq_some_iff.mp hsaid, hlocal, hseen, rfl⟩

/-! ## Strings under other names -/

/-- The message without the additional records whose names no answer about the service
points to. -/
def withoutOthers : Dns.Message :=
  { message with
    additionals := message.additionals.filter fun record =>
      message.answers.any fun answer =>
        (pointsTo H serviceNameFqdn answer).any fun target =>
          H.nameEq record.name target }

theorem stringsUnder_withoutOthers {answer : Dns.Record} {target : Dns.Name}
    (hanswer : answer ∈ message.answers)
    (htarget : pointsTo H serviceNameFqdn answer = some target) :
    stringsUnder H (withoutOthers H message serviceNameFqdn) target =
      stringsUnder H message target := by
  unfold stringsUnder withoutOthers
  dsimp only
  rw [List.filter_filter]
  congr 1
  apply List.filter_congr
  intro record _
  rw [Bool.and_eq_left_iff_imp]
  intro hname
  refine List.any_eq_true.mpr ⟨answer, hanswer, ?_⟩
  rw [htarget]
  exact hname

theorem discovered_withoutOthers :
    discovered H lib (withoutOthers H message serviceNameFqdn) src serviceNameFqdn now
        localPeerId =
      discovered H lib message src serviceNameFqdn now localPeerId := by
  rw [discovered_eq, discovered_eq]
  apply List.flatMap_congr
  intro answer hanswer
  unfold tuplesOf
  cases htarget : pointsTo H serviceNameFqdn answer with
  | none => rfl
  | some target =>
      have hstrings := stringsUnder_withoutOthers H message serviceNameFqdn hanswer htarget
      dsimp only
      unfold tuplesUnder saidUnder
      rw [hstrings]

/-- Of each answer about the service come, in order, the addresses that the peer of the
first string under its target has in such strings.  Each address is in a string with the
peer it is discovered for, and no string under another name counts. -/
theorem discovered_exactly :
    (∀ txt peer addr, said lib txt = some (peer, addr) ↔ Says lib txt peer addr) ∧
      discovered H lib message src serviceNameFqdn now localPeerId =
          message.answers.flatMap
            (tuplesOf H lib message src serviceNameFqdn now localPeerId) ∧
      (∀ tuple ∈ discovered H lib message src serviceNameFqdn now localPeerId,
        ∃ answer ∈ message.answers, ∃ target,
          pointsTo H serviceNameFqdn answer = some target ∧
            SaidUnder H lib message src now localPeerId target answer.ttl tuple) ∧
      discovered H lib (withoutOthers H message serviceNameFqdn) src serviceNameFqdn now
          localPeerId =
        discovered H lib message src serviceNameFqdn now localPeerId := by
  refine ⟨fun _ _ _ => said_eq_some_iff, discovered_eq .., ?_, discovered_withoutOthers ..⟩
  intro tuple htuple
  rw [discovered_eq] at htuple
  obtain ⟨answer, hanswer, htuple⟩ := List.mem_flatMap.mp htuple
  unfold tuplesOf at htuple
  split at htuple
  · cases htuple
  · rename_i target htarget
    exact ⟨answer, hanswer, target, htarget,
      saidUnder_of_mem H lib message src now localPeerId htuple⟩

end Response

end P2pa.Mdns.Iface
