/-!
# The libp2p values the program computes with

Peer ids, multiaddresses and rendezvous namespaces, with the operations whose
behaviour the program's control flow depends on.  What libp2p computes from or to
text, and its address arithmetic, is a parameter (`Libp2p`): the program only
looks at the results.
-/

namespace P2pa

/-- `libp2p::PeerId`, compared by the bytes of its multihash. -/
structure PeerId where
  multihash : List UInt8
deriving DecidableEq, Repr

/-- `multiaddr::Protocol`.  The components no function of the program looks into
are `other`. -/
inductive Protocol
  | ip4 (addr : UInt32)
  | ip6 (addr : BitVec 128)
  | tcp (port : UInt16)
  | udp (port : UInt16)
  | p2p (peer : PeerId)
  | p2pCircuit
  | other (name argument : String)
deriving DecidableEq, Repr

abbrev Multiaddr := List Protocol

namespace Multiaddr

def push (a : Multiaddr) (p : Protocol) : Multiaddr := a ++ [p]

/-- `Multiaddr::pop`: the last component and what remains. -/
def pop (a : Multiaddr) : Option Protocol × Multiaddr := (a.getLast?, a.dropLast)

end Multiaddr

def isLoopback (addr : Multiaddr) : Bool :=
  addr.any fun p => p == Protocol.ip4 0x7f000001

structure Namespace where
  value : String
deriving DecidableEq, Repr

inductive ConnectedPoint
  | dialer (address : Multiaddr)
  | listener (localAddr sendBackAddr : Multiaddr)
deriving DecidableEq, Repr

/-- The pure functions of libp2p the program calls. -/
structure Libp2p where
  /-- `Multiaddr::from_str`. -/
  multiaddrFromStr : String → Option Multiaddr
  /-- `<Multiaddr as ToString>::to_string`. -/
  multiaddrToString : Multiaddr → String
  /-- `PeerId::from_str`. -/
  peerIdFromStr : String → Option PeerId
  /-- `PeerId::to_base58`. -/
  peerIdToBase58 : PeerId → String
  /-- `Namespace::new`; `none` is `NamespaceTooLong`. -/
  namespaceNew : String → Option Namespace
  /-- `Multiaddr::ends_with`. -/
  endsWith : Multiaddr → Multiaddr → Bool
  /-- `libp2p::core::address_translation`. -/
  addressTranslation : Multiaddr → Multiaddr → Option Multiaddr
  /-- `ConnectedPoint::is_relayed`. -/
  isRelayed : ConnectedPoint → Bool
  /-- `ConnectedPoint::get_remote_address`. -/
  getRemoteAddress : ConnectedPoint → Multiaddr

/-- The errors that `?` passes on as `anyhow::Error`. -/
inductive Error
  | multiaddr
  | peerId
  | namespaceTooLong
  | dial
  | listen
  | elapsed
  | send
deriving DecidableEq, Repr

/-! ## One address and one peer -/

def sampleAddr : Multiaddr := [.ip4 0x01020304, .tcp 5000]

def samplePeerId : PeerId where
  multihash := [18, 32, 157, 255, 59, 23, 215, 76, 244, 211, 138, 80, 216, 182, 56, 62, 146,
    209, 129, 161, 3, 149, 165, 231, 58, 114, 109, 204, 203, 210, 27, 246, 240, 185]

def sampleLibp2p : Libp2p where
  multiaddrFromStr s :=
    if s = "/ip4/1.2.3.4/tcp/5000/p2p/QmYyQSo1c1Ym7orWxLYvCrM2EmxFTANf8wXmmE7DWjhx5N" then
      some (sampleAddr.push (.p2p samplePeerId))
    else none
  multiaddrToString _ := "/ip4/1.2.3.4/tcp/5000"
  peerIdFromStr s :=
    if s = "QmYyQSo1c1Ym7orWxLYvCrM2EmxFTANf8wXmmE7DWjhx5N" then some samplePeerId else none
  peerIdToBase58 _ := "QmYyQSo1c1Ym7orWxLYvCrM2EmxFTANf8wXmmE7DWjhx5N"
  namespaceNew s := if s.utf8ByteSize ≤ 255 then some ⟨s⟩ else none
  endsWith a b := b.isSuffixOf a
  addressTranslation original _ := some original
  isRelayed _ := false
  getRemoteAddress
    | .dialer address => address
    | .listener _ sendBackAddr => sendBackAddr

end P2pa
