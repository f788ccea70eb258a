import CLibp2p.Peer.Peer
import CLibp2p.Record.Record

/-!
# Kademlia messages

The protobuf of `record/message.c`. A record and the peers are messages of their own inside, each encoded
into a buffer that its size function asks for, and decoded from a copy.
-/

namespace CLibp2p.Record

open Duplex Peer

/-- `struct KademliaMessage`. -/
structure KademliaMessage (μ : Type) where
  messageType : UInt32
  key : Option Bytes
  record : Option Libp2pRecord
  closerPeers : List (SentPeer μ)
  providerPeers : List (SentPeer μ)
  clusterLevelRaw : Int32
deriving Repr, DecidableEq

def messageTypePing : UInt32 := 5

variable {μ : Type}

/-- `libp2p_message_new`. -/
def KademliaMessage.new : KademliaMessage μ := ⟨messageTypePing, none, none, [], [], 0⟩

/-- A buffer for a peer and the peer in it. -/
def peerBuffer (lib : FieldLibrary) (addrs : MultiaddrBytes μ) (peer : SentPeer μ) : Option Bytes :=
  if peerEncodeSize addrs peer < mallocBound then peerEncode lib addrs peer (peerEncodeSize addrs peer)
  else none

def peerFields (lib : FieldLibrary) (addrs : MultiaddrBytes μ) (fieldNo : Nat)
    (peers : List (SentPeer μ)) : Option (List (Nat × FieldValue)) :=
  peers.mapM fun peer => (peerBuffer lib addrs peer).map fun buffer => (fieldNo, .bytes buffer)

def recordFields (lib : FieldLibrary) : Option Libp2pRecord → Option (List (Nat × FieldValue))
  | none => some []
  | some record =>
      (recordEncode lib record (recordEncodeSize record)).map fun buffer => [(3, .bytes buffer)]

/-- The fields that `libp2p_message_protobuf_encode` writes, unless a message inside cannot be encoded. -/
def KademliaMessage.fields (lib : FieldLibrary) (addrs : MultiaddrBytes μ)
    (message : KademliaMessage μ) : Option (List (Nat × FieldValue)) := do
  let record ← recordFields lib message.record
  let closerPeers ← peerFields lib addrs 8 message.closerPeers
  let providerPeers ← peerFields lib addrs 9 message.providerPeers
  return (1, .varint message.messageType.toUInt64) :: (message.key.toList.map fun key => (2, .bytes key)) ++
    record ++ closerPeers ++ providerPeers ++ [(10, .varint message.clusterLevelRaw.toInt64.toUInt64)]

/-- `libp2p_message_protobuf_encode`. -/
def messageEncode (lib : FieldLibrary) (addrs : MultiaddrBytes μ) (message : KademliaMessage μ)
    (maxOut : Nat) : Option Bytes :=
  (message.fields lib addrs).bind fun fields => lib.encode fields maxOut

/-- `libp2p_message_protobuf_encode_size`. It counts a key and a record that are not there with the size
zero. -/
def messageEncodeSize (addrs : MultiaddrBytes μ) (message : KademliaMessage μ) : Nat :=
  (maxFieldHeader + maxFieldHeader + ((message.key.getD []).length + maxFieldHeader) +
    (maxFieldHeader + (message.record.map recordEncodeSize).getD 0) +
    (message.closerPeers.map fun peer => maxFieldHeader + peerEncodeSize addrs peer).sum +
    (message.providerPeers.map fun peer => maxFieldHeader + peerEncodeSize addrs peer).sum) % 2 ^ 64

/-- A message inside. `heap` gives what lies behind its copy, by what was left of the buffer there. -/
def nestedField {ρ τ : Type} (pb : Protobuf) (heap : Bytes → Bytes)
    (decode : (input behind : Bytes) → Option τ) (input : Bytes) (set : τ → ρ) : Option (ρ × Nat) :=
  match pb.decodeLengthDelimited input with
  | none => none
  | some (buffer, count) => (decode buffer (heap input)).map fun inner => (set inner, count)

/-- The numbers 4 to 7 are let through without a field; any other unknown number is an error. -/
def messageField (lib : FieldLibrary) (addrs : MultiaddrBytes μ) (heap : Bytes → Bytes) (fieldNo : Nat)
    (input : Bytes) (message : KademliaMessage μ) : Option (KademliaMessage μ × Nat) :=
  if fieldNo < 1 ∨ 10 < fieldNo then none
  else match fieldNo with
    | 1 => varintField lib.toProtobuf input fun value =>
        { message with messageType := value.toUInt32 }
    | 2 => lengthDelimited lib.toProtobuf input fun data => { message with key := some data }
    | 3 => nestedField lib.toProtobuf heap (recordDecode lib) input fun record =>
        { message with record := some record }
    | 8 => nestedField lib.toProtobuf heap (peerDecode lib addrs) input fun peer =>
        { message with closerPeers := message.closerPeers ++ [peer] }
    | 9 => nestedField lib.toProtobuf heap (peerDecode lib addrs) input fun peer =>
        { message with providerPeers := message.providerPeers ++ [peer] }
    | 10 => varintField lib.toProtobuf input fun value =>
        { message with clusterLevelRaw := value.toUInt32.toInt32 }
    | _ => some (message, 0)

/-- `libp2p_message_protobuf_decode`. -/
def messageDecode (lib : FieldLibrary) (addrs : MultiaddrBytes μ) (heap : Bytes → Bytes)
    (input behind : Bytes) : Option (KademliaMessage μ) :=
  decodeBuffer lib.toProtobuf (messageField lib addrs heap) input behind .new

end CLibp2p.Record
