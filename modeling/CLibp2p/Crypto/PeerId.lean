import CLibp2p.Secio.Messages

/-!
# Peer ids

`libp2p_crypto_public_key_to_peer_id` of `crypto/key.c`, with `PrettyID` and the base58 encoder it ends
in. A peer id is base58 over a multihash over the protobuf of the key; the protobuf and the multihash
library are not part of the repository.
-/

namespace CLibp2p.Crypto

open Duplex Secio

structure IdLibrary where
  encodeVarint : (fieldNo value maxOut : Nat) → Option Bytes
  mhNew : (code : Nat) → (digest : Bytes) → Option Bytes

def b58digitsOrdered : Bytes := name "123456789ABCDEFGHJKLMNPQRSTUVWXYZabcdefghijkmnopqrstuvwxyz"

/-- The inner loop of the encoder, over digits from the low end: 256 times the number plus `carry`. -/
def carryInto : (carry : Nat) → (buf : List Nat) → List Nat
  | _, [] => []
  | carry, digit :: buf =>
      (carry + 256 * digit) % 58 :: carryInto ((carry + 256 * digit) / 58) buf

/-- `libp2p_crypto_encoding_base58_encode`. The `memset` for leading zeros hits the pointer to the
output and not the output, so there is no result then, and none if the output is too short. -/
def base58Encode (bin : Bytes) (base58Size : Nat) : Option Bytes :=
  if bin.head? = some 0 then none
  else
    let size := bin.length * 138 / 100 + 1
    let buf := bin.foldl (fun buf byte => carryInto byte.toNat buf) (List.replicate size 0)
    let digits := buf.reverse.dropWhile (· = 0)
    if base58Size ≤ digits.length then none
    else some (digits.map fun digit => b58digitsOrdered.getD digit 0)

def mhSha2256 : Nat := 0x12

/-- `PrettyID`. The multihash lies in a buffer of zeros, and `strlen` gives its length. -/
def prettyId (lib : IdLibrary) (idBuf : Bytes) (rezbufLen : Nat) : Option Bytes :=
  match lib.mhNew mhSha2256 idBuf with
  | none => none
  | some multihash => base58Encode (multihash.takeWhile (· ≠ 0)) rezbufLen

/-- What `libp2p_crypto_public_key_protobuf_encode` writes. -/
def publicKeyEncode (pb : Protobuf) (lib : IdLibrary) (publicKey : PublicKey) : Bytes :=
  let maxOut := maxFieldHeader + maxFieldHeader + publicKey.data.length
  let type := (lib.encodeVarint 1 publicKey.type maxOut).getD []
  type ++ (pb.encodeLengthDelimited 2 publicKey.data (maxOut - type.length)).getD []

def publicKeyToPeerId (prims : Primitives) (pb : Protobuf) (lib : IdLibrary)
    (publicKey : PublicKey) : Option Bytes :=
  prettyId lib (prims.sha256 (publicKeyEncode pb lib publicKey)) 100

end CLibp2p.Crypto
