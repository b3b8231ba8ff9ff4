import P2pa.Libp2p
import P2pa.Support.Dns
import P2pa.Utils.Backoff
import P2pa.Utils.Text

/-!
# Encoding of mDNS packets

`behaviours/mdns_bhv/iface/dns.rs`.  A buffer is the list of its bytes; a function
that appends to a buffer returns the extended one.  `none` is a failed assertion.
-/

namespace P2pa.Mdns.Iface

open Utils Wire

def maxTxtValueLength : Nat := 255

def maxTxtRecordSize : Nat := maxTxtValueLength + 45

def maxPacketSize : Nat := 9000 - 68

def maxRecordsPerPacket : Nat := (maxPacketSize - 100) / maxTxtRecordSize

inductive MdnsResponseError
  | txtRecordTooLong
  | nonAsciiMultiaddr
deriving DecidableEq, Repr

def decodeCharacterString (src : Bytes) : Except Unit Bytes :=
  match src with
  | [] => .ok []
  | first :: rest =>
      -- 34 is the double quote
      if first = 34 then
        if rest = [] ∨ src.getLast? ≠ some 34 then .error ()
        else .ok rest.dropLast
      else .ok src

def appendU32 (out : Bytes) (value : UInt32) : Bytes :=
  out ++ [((value >>> 24) &&& 0xff).toUInt8, ((value >>> 16) &&& 0xff).toUInt8,
    ((value >>> 8) &&& 0xff).toUInt8, (value &&& 0xff).toUInt8]

def appendU16 (out : Bytes) (value : UInt16) : Bytes :=
  out ++ [((value >>> 8) &&& 0xff).toUInt8, (value &&& 0xff).toUInt8]

def appendElements (out : Bytes) : List Bytes → Option Bytes
  | [] => some out
  | element :: rest =>
      if element.length < 64 ∧ element.length ≠ 0 then
        appendElements (out ++ UInt8.ofNat element.length :: element) rest
      else none

/-- `append_qname` in a build with or without debug assertions. -/
def appendQnameIn (debug : Bool) (out name : Bytes) : Option Bytes :=
  if debug && !isAscii name then none
  else (appendElements out (name.splitOn 46)).map fun out => out ++ [0]

/-- The functions without a flag are those of a build with debug assertions. -/
def appendQname (out name : Bytes) : Option Bytes := appendQnameIn true out name

theorem appendQnameIn_true (out name : Bytes) :
    appendQnameIn true out name = appendQname out name := rfl

/-- The random transaction id is an argument. -/
def buildQueryIn (debug : Bool) (id : UInt16) (serviceName : Bytes) : Option Bytes := do
  let out := appendU16 [] id
  let out := appendU16 out 0x0
  let out := appendU16 out 0x1
  let out := appendU16 out 0x0
  let out := appendU16 out 0x0
  let out := appendU16 out 0x0
  let out ← appendQnameIn debug out serviceName
  let out := appendU16 out 0x0c
  some (appendU16 out 0x01)

def buildQuery (id : UInt16) (serviceName : Bytes) : Option Bytes :=
  buildQueryIn true id serviceName

/-- The random alphanumeric string is the argument. -/
def generatePeerName (peerName : Bytes) : Option Bytes := appendQname [] peerName

/-- The bytes of a text that is quoted because it contains a space. -/
def escape (ascii : Bytes) : Bytes :=
  ascii.flatMap fun chr =>
    if chr = 92 then [92, 92] else if chr = 34 then [92, 34] else [chr]

def appendCharacterString (out : Bytes) (asciiStr : String) :
    Except MdnsResponseError Bytes :=
  if !isAscii (bytes asciiStr) then .error .nonAsciiMultiaddr
  else if (32 : UInt8) ∉ bytes asciiStr then .ok (out ++ bytes asciiStr)
  else .ok (out ++ 34 :: escape (bytes asciiStr) ++ [34])

/-- The caller drops the buffer where the result is an error. -/
def appendTxtRecord (out name : Bytes) (ttlSecs : UInt32) (value : String) :
    Except MdnsResponseError Bytes := do
  let out := out ++ name
  let out := out ++ [0x00, 0x10, 0x80, 0x01]
  let out := appendU32 out ttlSecs
  if (bytes value).length > maxTxtValueLength then
    .error .txtRecordTooLong
  else
    let buffer ← appendCharacterString [UInt8.ofNat (bytes value).length] value
    let out := appendU16 out (UInt16.ofNat buffer.length)
    .ok (out ++ buffer)

/-- `u64::saturating_add`, then the cap of 32 bits. -/
def durationToSecs (duration : Duration) : UInt32 :=
  let carry := if duration.subsecNanos > 0 then 1 else 0
  let secs := min (duration.asSecs + carry) (2 ^ 64 - 1)
  UInt32.ofNat (min secs (2 ^ 32 - 1))

def buildServiceDiscoveryResponseIn (debug : Bool) (id : UInt16) (ttl : Duration)
    (serviceName metaQueryService : Bytes) : Option Bytes := do
  let ttl := durationToSecs ttl
  let out := appendU16 [] id
  let out := appendU16 out 0x8400
  let out := appendU16 out 0x0
  let out := appendU16 out 0x1
  let out := appendU16 out 0x0
  let out := appendU16 out 0x0
  let out ← appendQnameIn debug out metaQueryService
  let out := appendU16 out 0x000c
  let out := appendU16 out 0x8001
  let out := appendU32 out ttl
  let name ← appendQnameIn debug [] serviceName
  let out := appendU16 out (UInt16.ofNat name.length)
  some (out ++ name)

def buildServiceDiscoveryResponse (id : UInt16) (ttl : Duration)
    (serviceName metaQueryService : Bytes) : Option Bytes :=
  buildServiceDiscoveryResponseIn true id ttl serviceName metaQueryService

def queryResponsePacket (id : UInt16) (peerId : Bytes) (records : List Bytes)
    (ttl : UInt32) (serviceName : Bytes) : Option Bytes := do
  let out := appendU16 [] id
  let out := appendU16 out 0x8400
  let out := appendU16 out 0x0
  let out := appendU16 out 0x1
  let out := appendU16 out 0x0
  let out := appendU16 out (UInt16.ofNat records.length)
  let out ← appendQname out serviceName
  let out := appendU16 out 0x000c
  let out := appendU16 out 0x0001
  let out := appendU32 out ttl
  let out := appendU16 out (UInt16.ofNat peerId.length)
  let out := out ++ peerId
  some (out ++ records.flatten)

def txtToSend (lib : Libp2p) (peerId : PeerId) (addr : Multiaddr) : String :=
  "dnsaddr=" ++ lib.multiaddrToString addr ++ "/p2p/" ++ lib.peerIdToBase58 peerId

def recordsOf (lib : Libp2p) (peerId : PeerId) (peerName : Bytes) (ttl : UInt32)
    (addr : Multiaddr) : List Bytes :=
  match appendTxtRecord [] peerName ttl (txtToSend lib peerId addr) with
  | .ok record => [record]
  | .error _ => []

section Response

variable (lib : Libp2p) (id : UInt16) (peerId : PeerId) (peerName : Bytes)
  (ttl : UInt32) (serviceName : Bytes)

def packRecords :
    List Multiaddr → List Bytes → List Bytes → Option (List Bytes × List Bytes)
  | [], packets, records => some (packets, records)
  | addr :: rest, packets, records => do
      let records := records ++ recordsOf lib peerId peerName ttl addr
      if records.length = maxRecordsPerPacket then
        let packet ← queryResponsePacket id peerName records ttl serviceName
        packRecords rest (packets ++ [packet]) []
      else packRecords rest packets records

end Response

/-- `name` is the random peer name. -/
def buildQueryResponse (lib : Libp2p) (id : UInt16) (peerId : PeerId)
    (addresses : List Multiaddr) (ttl : Duration) (serviceName name : Bytes) :
    Option (List Bytes) := do
  let ttl := durationToSecs ttl
  let addresses := addresses.take 65535
  let peerName ← generatePeerName name
  guard (peerName.length ≤ 0xffff)
  let (packets, records) ←
    packRecords lib id peerId peerName ttl serviceName addresses [] []
  let packets ←
    if records ≠ [] then
      (queryResponsePacket id peerName records ttl serviceName).map fun packet =>
        packets ++ [packet]
    else some packets
  if packets = [] then
    (queryResponsePacket id peerName [] ttl serviceName).map fun packet =>
      packets ++ [packet]
  else some packets

end P2pa.Mdns.Iface
