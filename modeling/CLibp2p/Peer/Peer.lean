import CLibp2p.Protobuf.Fields

/-!
# The protobuf of a peer

`libp2p_peer_protobuf_encode` and `libp2p_peer_protobuf_decode` of `peer/peer.c`. The multiaddress library
is not part of the repository.
-/

namespace CLibp2p.Peer

open Duplex

/-- The bytes in a `struct MultiAddress` and `multiaddress_new_from_bytes`, where `none` is NULL. -/
structure MultiaddrBytes (μ : Type) where
  bytes : μ → Bytes
  newFromBytes : Bytes → Option μ

/-- The fields of `struct Libp2pPeer` that are sent. An item of the list of addresses may be NULL. -/
structure SentPeer (μ : Type) where
  id : Bytes
  addresses : List (Option μ)
  connectionType : UInt32
deriving Repr, DecidableEq

variable {μ : Type}

/-- `libp2p_peer_new`. -/
def SentPeer.new : SentPeer μ := ⟨[], [], 0⟩

def SentPeer.fields (addrs : MultiaddrBytes μ) (peer : SentPeer μ) : List (Nat × FieldValue) :=
  (1, .bytes peer.id) ::
    ((peer.addresses.reduceOption.map fun address => (2, .bytes (addrs.bytes address))) ++
      [(3, .varint peer.connectionType.toUInt64)])

/-- `libp2p_peer_protobuf_encode_size`. It counts in an `int`. -/
def peerEncodeSize (addrs : MultiaddrBytes μ) (peer : SentPeer μ) : Nat :=
  sizeOfInt (peer.addresses.reduceOption.foldl
    (fun sz address => intOfSize (sizeOfInt sz + (maxFieldHeader + (addrs.bytes address).length)))
    (intOfSize (maxFieldHeader + peer.id.length + maxFieldHeader)))

/-- `libp2p_peer_protobuf_encode`. -/
def peerEncode (lib : FieldLibrary) (addrs : MultiaddrBytes μ) (peer : SentPeer μ) (maxOut : Nat) :
    Option Bytes :=
  lib.encode (peer.fields addrs) maxOut

def peerField (lib : FieldLibrary) (addrs : MultiaddrBytes μ) (fieldNo : Nat) (input : Bytes)
    (peer : SentPeer μ) : Option (SentPeer μ × Nat) :=
  match fieldNo with
  | 1 => lengthDelimited lib.toProtobuf input fun data => { peer with id := data }
  | 2 => lengthDelimited lib.toProtobuf input fun data =>
      { peer with addresses := peer.addresses ++ [addrs.newFromBytes data] }
  | 3 => varintField lib.toProtobuf input fun value => { peer with connectionType := value.toUInt32 }
  | _ => some (peer, 0)

/-- `libp2p_peer_protobuf_decode`. -/
def peerDecode (lib : FieldLibrary) (addrs : MultiaddrBytes μ) (input behind : Bytes) :
    Option (SentPeer μ) :=
  decodeBuffer lib.toProtobuf (peerField lib addrs) input behind .new

end CLibp2p.Peer
