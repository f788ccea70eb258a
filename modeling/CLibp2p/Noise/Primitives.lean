import CLibp2p.Protobuf

/-!
# The building blocks of `v2/src/conn/noise.c`

The cryptographic functions of OpenSSL are not part of the repository, so they are parameters here, as
is the protobuf library. What the file builds from them is modelled as it stands: the key derivation,
the transcript hash, the AEAD calls with their counter nonce, and the identity payload with its decoder.
-/

namespace CLibp2p.Noise

open Duplex

def tagLength : Nat := 16
def dhLength : Nat := 32

/-- What the file calls in OpenSSL. An X25519 or AEAD call can fail. -/
structure Primitives where
  sha256 : Bytes → Bytes
  hmacSha256 : (key data : Bytes) → Bytes
  x25519Public : (privateKey : Bytes) → Bytes
  x25519Derive : (privateKey publicKey : Bytes) → Option Bytes
  chachaSeal : (key nonce ad plaintext : Bytes) → Option Bytes
  chachaOpen : (key nonce ad ciphertext : Bytes) → Option Bytes

/-- A stand-in to evaluate the model with: the tag says nothing and a shared secret is a sum. -/
def Primitives.plain : Primitives where
  sha256 data := List.replicate 32 data.sum
  hmacSha256 key data := List.replicate 32 (key.sum + 3 * data.sum)
  x25519Public privateKey := (privateKey ++ List.replicate 32 0).take 32
  x25519Derive privateKey publicKey :=
    some [((privateKey ++ List.replicate 32 0).take 32).sum + publicKey.sum]
  chachaSeal _ _ _ plaintext := some (plaintext ++ List.replicate 16 0)
  chachaOpen _ _ _ ciphertext :=
    if ciphertext.drop (ciphertext.length - 16) = List.replicate 16 0 then
      some (ciphertext.take (ciphertext.length - 16))
    else none

/-- The counter, little-endian in the last eight of twelve bytes. -/
def nonceBytes (nonce : UInt64) : Bytes := [0, 0, 0, 0] ++ le64 nonce

/-- `noise_hkdf` with both outputs. -/
def hkdf (prims : Primitives) (salt ikm : Bytes) : Bytes × Bytes :=
  let prk := prims.hmacSha256 salt ikm
  let okm1 := prims.hmacSha256 prk [1]
  let okm2 := prims.hmacSha256 prk (okm1 ++ [2])
  (okm1, okm2)

def encrypt (prims : Primitives) (key : Bytes) (nonce : UInt64) (ad plaintext : Bytes) :
    Option Bytes :=
  prims.chachaSeal key (nonceBytes nonce) ad plaintext

def decrypt (prims : Primitives) (key : Bytes) (nonce : UInt64) (ad ciphertext : Bytes) :
    Option Bytes :=
  if ciphertext.length < tagLength then none
  else prims.chachaOpen key (nonceBytes nonce) ad ciphertext

/-- The locals `h`, `ck`, `temp_k` and `nonce` of a handshake. -/
structure Symmetric where
  h : Bytes
  ck : Bytes
  tempK : Bytes
  nonce : UInt64
deriving Repr, DecidableEq

def mixHash (prims : Primitives) (sym : Symmetric) (data : Bytes) : Symmetric :=
  { sym with h := prims.sha256 (sym.h ++ data) }

/-- `noise_mix_key`; every call is followed by `nonce = 0`. -/
def mixKey (prims : Primitives) (sym : Symmetric) (ikm : Bytes) : Symmetric :=
  { sym with ck := (hkdf prims sym.ck ikm).1, tempK := (hkdf prims sym.ck ikm).2, nonce := 0 }

/-- `noise_encrypt`, `nonce++` and `noise_mix_hash` over the ciphertext. -/
def encryptAndHash (prims : Primitives) (sym : Symmetric) (plaintext : Bytes) :
    Option (Bytes × Symmetric) :=
  match encrypt prims sym.tempK sym.nonce sym.h plaintext with
  | none => none
  | some ciphertext =>
      some (ciphertext, mixHash prims { sym with nonce := sym.nonce + 1 } ciphertext)

/-- `noise_decrypt`, `nonce++` and `noise_mix_hash` over the ciphertext. -/
def decryptAndHash (prims : Primitives) (sym : Symmetric) (ciphertext : Bytes) :
    Option (Bytes × Symmetric) :=
  match decrypt prims sym.tempK sym.nonce sym.h ciphertext with
  | none => none
  | some plaintext =>
      some (plaintext, mixHash prims { sym with nonce := sym.nonce + 1 } ciphertext)

def protocolName : Bytes := "Noise_XX_25519_ChaChaPoly_SHA256".toUTF8.toList

/-- The state after the protocol name, which fills `h` exactly, and the empty prologue. -/
def Symmetric.start (prims : Primitives) : Symmetric :=
  mixHash prims
    { h := protocolName, ck := protocolName, tempK := List.replicate 32 0, nonce := 0 } []

/-! ### The identity payload -/

/-- A field without bytes is left out. -/
def payloadField (pb : Protobuf) (fieldNo : Nat) (data : Bytes) (maxOut : Nat) : Option Bytes :=
  if data.length = 0 then some [] else pb.encodeLengthDelimited fieldNo data maxOut

def payloadEncode (pb : Protobuf) (identityKey identitySig : Bytes) (maxOut : Nat) :
    Option Bytes := do
  let key ← payloadField pb 1 identityKey maxOut
  let sig ← payloadField pb 2 identitySig (maxOut - key.length)
  return key ++ sig

/-- A pointer into a buffer with a length, as `noise_payload_decode` returns them. -/
structure Slice where
  offset : UInt64
  length : UInt64
deriving Repr, DecidableEq

def Slice.of (slice : Slice) (buffer : Bytes) : Bytes :=
  (buffer.drop slice.offset.toNat).take slice.length.toNat

structure Fields where
  key : Option Slice
  sig : Option Slice
deriving Repr, DecidableEq

def Fields.set (fields : Fields) (fieldNo : Nat) (slice : Slice) : Fields :=
  match fieldNo with
  | 1 => { fields with key := some slice }
  | 2 => { fields with sig := some slice }
  | _ => fields

inductive Decoded where
  | fields (fields : Fields)
  | rejected
  | endless
deriving Repr, DecidableEq

/-- The loop of `noise_payload_decode`. Its position is a `size_t`: the sum with the length of a field
can wrap to a smaller position. -/
def payloadLoop (pb : Protobuf) (input : Bytes) : (fuel : Nat) → UInt64 → Fields → Decoded
  | 0, _, _ => .endless
  | fuel + 1, pos, fields =>
      if input.length ≤ pos.toNat then .fields fields
      else match pb.decodeFieldAndType (input.drop pos.toNat) with
        | none => .rejected
        | some (fieldNo, wireType, headerBytes) =>
            let pos := pos + UInt64.ofNat headerBytes
            if wireType ≠ wiretypeLengthDelimited then .rejected
            else
              let (dataLength, varintLength) := pb.varintDecode (input.drop pos.toNat)
              let start := pos + UInt64.ofNat varintLength
              if varintLength = 0 ∨ input.length < (start + dataLength).toNat then .rejected
              else payloadLoop pb input fuel (start + dataLength)
                (fields.set fieldNo ⟨start, dataLength⟩)

/-- `noise_payload_decode`. What a pass does depends on its position alone, so a loop that makes more
passes than there are positions never ends. -/
def payloadDecode (pb : Protobuf) (input : Bytes) : Decoded :=
  payloadLoop pb input (input.length + 1) 0 ⟨none, none⟩

end CLibp2p.Noise
