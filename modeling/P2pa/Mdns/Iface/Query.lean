import P2pa.Mdns.Iface.Dns

/-!
# Decoding of mDNS packets

`behaviours/mdns_bhv/iface/query.rs`.  The DNS library that parses a datagram and
compares and prints names is a parameter (`Hickory`).
-/

namespace P2pa.Mdns.Iface

open Utils Wire

inductive IpAddr
  | v4 (addr : UInt32)
  | v6 (addr : BitVec 128)
deriving DecidableEq, Repr

structure SocketAddr where
  ip : IpAddr
  port : UInt16
deriving DecidableEq, Repr

/-- The functions of `hickory_proto` the decoder calls. -/
structure Hickory where
  /-- `Message::from_vec`. -/
  fromVec : Bytes → Option Dns.Message
  /-- `<Name as PartialEq>::eq`. -/
  nameEq : Dns.Name → Dns.Name → Bool
  /-- `<Name as ToString>::to_string`. -/
  nameToString : Dns.Name → String
  /-- `Name::to_utf8`. -/
  nameToUtf8 : Dns.Name → String

structure MdnsQuery where
  src : SocketAddr
  queryId : UInt16
deriving DecidableEq, Repr

structure MdnsServiceDiscovery where
  src : SocketAddr
  queryId : UInt16
deriving DecidableEq, Repr

structure MdnsPeer where
  addrs : List Multiaddr
  peerId : PeerId
  ttl : UInt32
deriving DecidableEq, Repr

structure MdnsResponse where
  peers : List MdnsPeer
  src : SocketAddr
deriving DecidableEq, Repr

inductive MdnsPacket
  | query (query : MdnsQuery)
  | response (response : MdnsResponse)
  | serviceDiscovery (discovery : MdnsServiceDiscovery)
deriving DecidableEq, Repr

namespace MdnsPeer

def txtStrings (H : Hickory) (packet : Dns.Message) (recordValue : Dns.Name) :
    List Dns.CharString :=
  packet.additionals.flatMap fun record =>
    if H.nameEq record.name recordValue then
      match record.data with
      | .txt strings => strings
      | _ => []
    else []

def addrOf (lib : Libp2p) (txt : Dns.CharString) : Option Multiaddr :=
  match decodeCharacterString txt.bytes with
  | .error _ => none
  | .ok addr =>
      if (bytes "dnsaddr=").isPrefixOf addr then
        (fromUtf8 (addr.drop 8)).bind lib.multiaddrFromStr
      else none

/-- The step of the `filter_map` whose closure holds `my_peer_id`: the state is the
peer id seen first and the addresses kept so far. -/
def collect (lib : Libp2p) (acc : Option PeerId × List Multiaddr)
    (txt : Dns.CharString) : Option PeerId × List Multiaddr :=
  match addrOf lib txt with
  | none => acc
  | some addr =>
      match addr.pop with
      | (some (.p2p peerId), addr) =>
          match acc.1 with
          | some pid => if peerId ≠ pid then acc else (some pid, acc.2 ++ [addr])
          | none => (some peerId, acc.2 ++ [addr])
      | _ => acc

def new (H : Hickory) (lib : Libp2p) (packet : Dns.Message) (recordValue : Dns.Name)
    (ttl : UInt32) : Option MdnsPeer :=
  let (myPeerId, addrs) :=
    (txtStrings H packet recordValue).foldl (collect lib) (none, [])
  myPeerId.map fun peerId => { addrs, peerId, ttl }

end MdnsPeer

namespace MdnsResponse

def peerOf (H : Hickory) (lib : Libp2p) (packet : Dns.Message) (serviceNameFqdn : String)
    (record : Dns.Record) : Option MdnsPeer :=
  if H.nameToString record.name ≠ serviceNameFqdn then none
  else
    match record.data with
    | .ptr recordValue => MdnsPeer.new H lib packet recordValue record.ttl
    | _ => none

def new (H : Hickory) (lib : Libp2p) (packet : Dns.Message) (src : SocketAddr)
    (serviceNameFqdn : String) : MdnsResponse where
  peers := packet.answers.filterMap (peerOf H lib packet serviceNameFqdn)
  src

def protocolOf : IpAddr → Protocol
  | .v4 addr => .ip4 addr
  | .v6 addr => .ip6 addr

def observedAddress (response : MdnsResponse) : Multiaddr :=
  [protocolOf response.src.ip, .udp response.src.port]

/-- The ttl is in seconds, `Instant` counts nanoseconds. -/
def extractDiscovered (lib : Libp2p) (response : MdnsResponse) (now : Instant)
    (localPeerId : PeerId) : List (PeerId × Multiaddr × Instant) :=
  (response.peers.filter fun peer => peer.peerId ≠ localPeerId).flatMap fun peer =>
    peer.addrs.filterMap fun address =>
      (lib.addressTranslation address response.observedAddress).map fun newAddr =>
        (peer.peerId, newAddr, now + peer.ttl.toNat * 1000000000)

end MdnsResponse

/-- `MdnsPacket::new_from_bytes`; the error is hickory's. -/
def MdnsPacket.newFromBytes (H : Hickory) (lib : Libp2p) (buf : Bytes) (src : SocketAddr)
    (serviceNameFqdn metaQueryServiceFqdn : String) : Except Unit (Option MdnsPacket) :=
  match H.fromVec buf with
  | none => .error ()
  | some packet =>
      if packet.queries = [] then
        .ok (some (.response (MdnsResponse.new H lib packet src serviceNameFqdn)))
      else if packet.queries.any fun q => H.nameToUtf8 q.name == serviceNameFqdn then
        .ok (some (.query { src, queryId := packet.id }))
      else if packet.queries.any fun q => H.nameToUtf8 q.name == metaQueryServiceFqdn then
        .ok (some (.serviceDiscovery { src, queryId := packet.id }))
      else .ok none

/-! ## What the program relies on -/

def isAlphanumeric (b : UInt8) : Bool :=
  (48 ≤ b && b ≤ 57) || (65 ≤ b && b ≤ 90) || (97 ≤ b && b ≤ 122)

/-- The bytes host names are made of: letters, digits, hyphens and underscores. -/
def isHostByte (b : UInt8) : Bool := isAlphanumeric b || b = 45 || b = 95

def dotted (name : Dns.Name) : Bytes := name.labels.flatMap fun l => l.bytes ++ [46]

/-- A standard query or an authoritative response whose records are pointers and
non-empty texts of class `IN`, with or without the cache-flush bit. -/
structure IsMdns (m : Dns.Message) : Prop where
  flags : m.flags = 0 ∨ m.flags = 0x8400
  cls : ∀ r ∈ m.answers ++ m.nameServers ++ m.additionals, r.cls = 1 ∨ r.cls = 0x8001
  data : ∀ r ∈ m.answers ++ m.nameServers ++ m.additionals,
    (∃ name, r.data = .ptr name) ∨ ∃ strings, r.data = .txt strings ∧ strings ≠ []

/-- Uncompressed messages are decoded, and a name equals itself. -/
structure Hickory.Lawful (H : Hickory) : Prop where
  fromVec_encode : ∀ m : Dns.Message, m.WellFormed → IsMdns m → H.fromVec m.encode = some m
  nameEq_refl : ∀ name, H.nameEq name name = true

/-- The name is printed as its labels, each with its dot. -/
structure Hickory.Prints (H : Hickory) (name : Dns.Name) : Prop where
  toString : bytes (H.nameToString name) = dotted name
  toUtf8 : bytes (H.nameToUtf8 name) = dotted name

/-- A label that is printed as it is.  A hyphen at the start of a label is escaped, and what
follows `xn--` is printed decoded. -/
def isPlain (l : Bytes) : Bool :=
  l.all isHostByte && l.head? ≠ some 45 && !(bytes "xn--").isPrefixOf l

def Hickory.PrintsPlain (H : Hickory) : Prop :=
  ∀ name : Dns.Name, name.labels ≠ [] → (∀ l ∈ name.labels, isPlain l.bytes) → H.Prints name

end P2pa.Mdns.Iface
