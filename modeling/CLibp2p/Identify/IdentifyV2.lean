import CLibp2p.Crypto.PeerId
import CLibp2p.Net.Multiaddr
import CLibp2p.Stream.Prog

/-!
# Identify over a v2 stream

`libp2p_identify_send_response` and `libp2p_identify_receive` of `v2/src/identify/identify_v2.c`. The
message goes behind a varint that counts its bytes. `protobuf_decode_string` says how many bytes it took,
the varint in front of the string with them.
-/

namespace CLibp2p.IdentifyV2

open Duplex Duplex.Prog Net

/-- A call of `libp2p_crypto_public_key_protobuf_decode`: the block that `buffer` points to, and
`buffer_length`. -/
structure KeyCall where
  buffer : Bytes
  bufferLength : Nat
deriving Repr, DecidableEq

abbrev Code := Prog UInt8 KeyCall Unit

abbrev Wire := Duplex.Wire UInt8 KeyCall Unit

/-- The protobuf library, with its `varint_encode`. -/
structure IdentifyLibrary extends FieldLibrary where
  varintEncode : (value : UInt64) → (maxOut : Nat) → Bytes

/-- A varint that has the space is one byte after the other until the high bit is off, and at most ten. -/
structure IdentifyLibrary.Lawful (lib : IdentifyLibrary) : Prop
    extends toFieldLawful : lib.toFieldLibrary.Lawful where
  encodesLength : ∀ value maxOut, 10 ≤ maxOut →
    ∃ more last, lib.varintEncode value maxOut = more ++ [last] ∧ more.length < 10 ∧
      (∀ byte ∈ more, byte &&& 0x80 ≠ 0) ∧ last &&& 0x80 = 0
  readsLength : ∀ value maxOut, 10 ≤ maxOut →
    lib.varintDecode (lib.varintEncode value maxOut) = (value, (lib.varintEncode value maxOut).length)

def identifyProtocolVersion : CString :=
  ⟨"ipfs/0.1.0".toUTF8.toList, CLibp2p.identifyProtocolVersion.property⟩

def identifyAgentVersion : CString := ⟨"c-ipfs/0.1.0".toUTF8.toList, by decide +kernel⟩

/-- `IdentifyInfo`. -/
structure IdentifyInfo where
  publicKey : Option Bytes
  publicKeyLen : Nat
  listenAddrs : List CString
  protocols : List CString
  observedAddr : Option Bytes
  observedAddrLen : Nat
  protocolVersion : Option CString
  agentVersion : Option CString
deriving DecidableEq

def IdentifyInfo.new : IdentifyInfo := ⟨none, 0, [], [], none, 0, none, none⟩

/-- `struct Libp2pV2Peerstore`, as far as identify reads it. A key that is NULL is empty. -/
structure Peerstore where
  publicKey : Bytes
  listenAddrs : List CString
deriving DecidableEq

/-- `struct Libp2pPeer`, as far as identify sets it. -/
structure Libp2pPeer where
  peerId : Option Bytes
  addrHead : List ParsedAddress
deriving DecidableEq

/-! ### The channel -/

/-- The loop of `identify_read_varint_length`, with space for `room` more bytes. -/
def readLengthBytes : (room : Nat) → (got : Bytes) → Code (Option Bytes)
  | 0, _ => .done none
  | room + 1, got => .read 1 fun
      | [] => .done none
      | byte :: _ =>
          if byte &&& 0x80 = 0 then .done (some (got ++ [byte])) else readLengthBytes room (got ++ [byte])

def readVarintLength (lib : IdentifyLibrary) : Code (Option Nat) := do
  match ← readLengthBytes 16 [] with
  | none => pure none
  | some lengthBytes =>
      let (value, bytes) := lib.varintDecode lengthBytes
      pure (if bytes = lengthBytes.length then some value.toNat else none)

/-- The loop of `identify_write_all`. A write that it goes on after takes at least one byte. -/
def writeLoop : (fuel : Nat) → Bytes → Code Bool
  | _, [] => .done true
  | 0, _ :: _ => .done false
  | fuel + 1, byte :: data => .write (byte :: data) fun ret =>
      if ret ≤ 0 then .done false else writeLoop fuel ((byte :: data).drop ret.toNat)

def writeAll (data : Bytes) : Code Bool := writeLoop data.length data

/-! ### The sender -/

def Peerstore.fields (peerstore : Peerstore) : List (Nat × FieldValue) :=
  [(5, .string identifyProtocolVersion.val), (6, .string identifyAgentVersion.val)] ++
    (if peerstore.publicKey = [] then [] else [(1, .bytes peerstore.publicKey)]) ++
    peerstore.listenAddrs.map fun addr => (2, .bytes addr.val)

/-- The size of the buffers on the stack. -/
def bufSize : Nat := 4096

/-- `libp2p_identify_send_response`. -/
def sendResponse (lib : IdentifyLibrary) (peerstore : Peerstore) : Code Bool :=
  match lib.encode peerstore.fields bufSize with
  | none => pure false
  | some body => do
      if ← writeAll (lib.varintEncode (UInt64.ofNat body.length) 16) then writeAll body else pure false

/-! ### The receiver -/

/-- What stands after a tag. A string that is skipped moves on by what the library took of it. -/
def infoField (lib : FieldLibrary) (fieldNo type : Nat) (input : Bytes) (info : IdentifyInfo) :
    Option (IdentifyInfo × Nat) :=
  match fieldNo with
  | 1 => match lib.decodeString input with
      | none => none
      | some (text, count) => some ({ info with publicKey := some text, publicKeyLen := count }, count)
  | 2 => stringField lib input fun text => { info with listenAddrs := info.listenAddrs ++ [stringAt text] }
  | 3 => stringField lib input fun text => { info with protocols := info.protocols ++ [stringAt text] }
  | 4 => match lib.decodeString input with
      | none => none
      | some (text, count) => some ({ info with observedAddr := some text, observedAddrLen := count }, count)
  | 5 => stringField lib input fun text => { info with protocolVersion := some (stringAt text) }
  | 6 => stringField lib input fun text => { info with agentVersion := some (stringAt text) }
  | _ =>
      if type = wiretypeLengthDelimited then
        match lib.decodeString input with
        | none => some (info, 0)
        | some (_, count) => some (info, count)
      else some (info, 0)

/-- The loop of the receiver over the first `size` bytes of `memory`. The tag is read from what is left,
whose size goes through an `int`. A library that takes nothing leaves the loop without end. -/
def infoLoop (lib : FieldLibrary) (memory : Bytes) (size : Nat) :
    (fuel pos : Nat) → IdentifyInfo → Option IdentifyInfo
  | 0, pos, info => if size ≤ pos then some info else none
  | fuel + 1, pos, info =>
      if size ≤ pos then some info
      else match lib.decodeFieldAndType ((memory.drop pos).take (sizeOfInt (intOfSize (size - pos)))) with
        | none => none
        | some (fieldNo, type, fieldBytes) =>
            let pos := pos + fieldBytes
            match infoField lib fieldNo type ((memory.drop pos).take (sizeLeft size pos)) info with
            | none => none
            | some (info, count) => infoLoop lib memory size fuel (pos + count) info

/-- What the receiver works with: the hash and the multihash library behind a peer id, and what its
memory holds behind a block with these bytes. -/
structure Receiver where
  prims : Secio.Primitives
  ids : Crypto.IdLibrary
  behind : Bytes → Bytes

/-- `libp2p_crypto_public_key_protobuf_decode`, on as many bytes as it is told. -/
def KeyCall.decode (pb : Protobuf) (receiver : Receiver) (call : KeyCall) : Option Secio.PublicKey :=
  let memory := call.buffer ++ receiver.behind call.buffer
  Secio.publicKeyDecode pb (memory.take call.bufferLength) (memory.drop call.bufferLength)

/-- The peer id that is set; a call that fails leaves the old one. -/
def newPeerId (pb : Protobuf) (receiver : Receiver) (call : KeyCall) (peerId : Option Bytes) :
    Option Bytes :=
  match call.decode pb receiver with
  | none => peerId
  | some publicKey => (Crypto.publicKeyToPeerId receiver.prims pb receiver.ids publicKey).or peerId

/-- Each address that can be parsed goes to the head of the list. -/
def pushAddrs (listenAddrs : List CString) (addrHead : List ParsedAddress) : List ParsedAddress :=
  listenAddrs.foldl (fun addrHead addr =>
    match multiaddrNewFromString addr with
    | none => addrHead
    | some ma => ma :: addrHead) addrHead

/-- What is done once the message is decoded. A string has a zero byte behind it. -/
def populate (pb : Protobuf) (receiver : Receiver) (info : IdentifyInfo) (peer : Libp2pPeer) :
    Code Libp2pPeer :=
  match info.publicKey with
  | none => pure peer
  | some text =>
      if 0 < info.publicKeyLen then do
        let call : KeyCall := ⟨text ++ [0], info.publicKeyLen⟩
        note call
        pure ⟨newPeerId pb receiver call peer.peerId, pushAddrs info.listenAddrs peer.addrHead⟩
      else pure peer

/-- `libp2p_identify_receive`: its result, and the peer after it. -/
def receive (lib : IdentifyLibrary) (receiver : Receiver) (peer : Libp2pPeer) :
    Code (Bool × Libp2pPeer) := do
  match ← readVarintLength lib with
  | none => pure (false, peer)
  | some msgLen =>
      if msgLen = 0 ∨ mallocBound ≤ msgLen then pure (false, peer)
      else do
        match ← readExactly msgLen with
        | none => pure (false, peer)
        | some buf =>
            match infoLoop lib.toFieldLibrary (buf ++ receiver.behind buf) msgLen msgLen 0 .new with
            | none => pure (false, peer)
            | some info => do
                let peer ← populate lib.toProtobuf receiver info peer
                pure (true, peer)

/-! ### The wire format -/

def IdentifyLibrary.varints : IdentifyLibrary where
  toFieldLibrary := .varints
  varintEncode value maxOut := CLibp2p.varintEncode maxOut value.toNat

end CLibp2p.IdentifyV2
