import CLibp2p.Secio.Messages

/-!
# Keys

The private key of `crypto/key.c`, whose protobuf is read as that of a public key is.
-/

namespace CLibp2p.Crypto

open Duplex Secio

/-- `struct PrivateKey`. -/
structure PrivateKey where
  type : Nat
  data : Bytes
deriving Repr, DecidableEq

def privateKeyField (pb : Protobuf) (fieldNo : Nat) (input : Bytes) (record : PrivateKey) :
    Option (PrivateKey × Nat) :=
  match fieldNo with
  | 1 => varintField pb input fun value => { record with type := value.toNat % 2 ^ 32 }
  | 2 => lengthDelimited pb input fun data => { record with data := data }
  | _ => some (record, 0)

/-- `libp2p_crypto_private_key_protobuf_decode`. -/
def privateKeyDecode (pb : Protobuf) (input behind : Bytes) : Option PrivateKey :=
  decodeBuffer pb (privateKeyField pb) input behind ⟨keytypeInvalid, []⟩

end CLibp2p.Crypto
