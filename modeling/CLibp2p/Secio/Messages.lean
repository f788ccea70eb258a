import CLibp2p.Protobuf.Fields
import CLibp2p.Secio.Negotiate

/-!
# The messages of the secio handshake

`secio/propose.c`, `secio/exchange.c` and the public key of `crypto/key.c`. The encoders write field
after field; the decoders share one loop over tags. They are given what lies behind their buffer.
-/

namespace CLibp2p.Secio

open Duplex

/-- What is written, and whether every field was. -/
def encodeFields (pb : Protobuf) : (fields : List (Nat × Bytes)) → (maxOut : Nat) → Bytes × Bool
  | [], _ => ([], true)
  | (fieldNo, data) :: fields, maxOut =>
      match pb.encodeLengthDelimited fieldNo data maxOut with
      | none => ([], false)
      | some out =>
          let more := encodeFields pb fields (maxOut - out.length)
          (out ++ more.1, more.2)

/-- The size of a buffer for these fields. -/
def encodeSize : (fields : List (Nat × Bytes)) → Nat
  | [] => 0
  | (_, data) :: fields => maxFieldHeader + data.length + encodeSize fields

/-! ### Propose -/

def Propose.fields (propose : Propose) : List (Nat × Bytes) :=
  [(1, propose.rand), (2, propose.publicKey), (3, propose.exchanges), (4, propose.ciphers),
    (5, propose.hashes)]

/-- `libp2p_secio_propose_protobuf_encode`, into a buffer of
`libp2p_secio_propose_protobuf_encode_size` bytes. -/
def proposeEncode (pb : Protobuf) (propose : Propose) : Option Bytes :=
  match encodeFields pb propose.fields (encodeSize propose.fields) with
  | (out, true) => some out
  | (_, false) => none

/-- The record of the decoder, with `got_something`. -/
def proposeField (pb : Protobuf) (fieldNo : Nat) (input : Bytes) (record : Propose × Bool) :
    Option ((Propose × Bool) × Nat) :=
  match fieldNo with
  | 1 => lengthDelimited pb input fun data => ({ record.1 with rand := data }, true)
  | 2 => lengthDelimited pb input fun data => ({ record.1 with publicKey := data }, true)
  | 3 => lengthDelimited pb input fun data => ({ record.1 with exchanges := data }, true)
  | 4 => lengthDelimited pb input fun data => ({ record.1 with ciphers := data }, true)
  | 5 => lengthDelimited pb input fun data => ({ record.1 with hashes := data }, true)
  | _ => some (record, 0)

def proposeDecode (pb : Protobuf) (input behind : Bytes) : Option Propose :=
  match decodeBuffer pb (proposeField pb) input behind (⟨[], [], [], [], []⟩, false) with
  | some (propose, true) => some propose
  | _ => none

/-! ### Exchange -/

/-- `struct Exchange`; a missing signature is empty. -/
structure Exchange where
  epubkey : Bytes
  signature : Bytes
deriving Repr, DecidableEq

def Exchange.fields (exchange : Exchange) : List (Nat × Bytes) :=
  [(1, exchange.epubkey), (2, exchange.signature)]

/-- What the handshake sends after `libp2p_secio_exchange_protobuf_encode`, whose result it does not
look at. -/
def exchangeEncode (pb : Protobuf) (exchange : Exchange) : Bytes :=
  (encodeFields pb exchange.fields (encodeSize exchange.fields)).1

def exchangeField (pb : Protobuf) (fieldNo : Nat) (input : Bytes) (record : Exchange) :
    Option (Exchange × Nat) :=
  match fieldNo with
  | 1 => lengthDelimited pb input fun data => { record with epubkey := data }
  | 2 => lengthDelimited pb input fun data => { record with signature := data }
  | _ => some (record, 0)

def exchangeDecode (pb : Protobuf) (input behind : Bytes) : Option Exchange :=
  decodeBuffer pb (exchangeField pb) input behind ⟨[], []⟩

/-! ### The public key of a proposal -/

def keytypeRsa : Nat := 0
def keytypeInvalid : Nat := 2

structure PublicKey where
  type : Nat
  data : Bytes
deriving Repr, DecidableEq

def publicKeyField (pb : Protobuf) (fieldNo : Nat) (input : Bytes) (record : PublicKey) :
    Option (PublicKey × Nat) :=
  match fieldNo with
  | 1 => varintField pb input fun value => { record with type := value.toNat % 2 ^ 32 }
  | 2 => lengthDelimited pb input fun data => { record with data := data }
  | _ => some (record, 0)

def publicKeyDecode (pb : Protobuf) (input behind : Bytes) : Option PublicKey :=
  decodeBuffer pb (publicKeyField pb) input behind ⟨keytypeInvalid, []⟩

end CLibp2p.Secio
