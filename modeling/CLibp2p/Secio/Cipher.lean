import CLibp2p.Secio.Negotiate

/-!
# `libp2p_secio_encrypt` and `libp2p_secio_decrypt`

A message is enciphered in counter mode and followed by its MAC. The counter lies in the stretched key,
the rest of the state of the cipher in the session, once for each direction. `mbedtls_aes_crypt_ctr` is
written out; a block of AES and the HMAC are left to mbedTLS.
-/

namespace CLibp2p.Secio

open Duplex

structure CipherLibrary where
  aesEncrypt : (key block : Bytes) → Bytes
  hmacSha256 : (key data : Bytes) → Bytes
  hmac_length : ∀ key data, (hmacSha256 key data).length = 32

/-! ### Counter mode -/

def countUp : Bytes → Bytes
  | [] => []
  | byte :: rest => if byte + 1 ≠ 0 then (byte + 1) :: rest else 0 :: countUp rest

/-- A new block of the key stream, if the last one is used up. -/
def CtrState.refill (encryptBlock : Bytes → Bytes) (state : CtrState) : CtrState :=
  if state.offset = 0 then
    { state with
      block := encryptBlock state.counter
      counter := (countUp state.counter.reverse).reverse }
  else state

/-- `mbedtls_aes_crypt_ctr`. -/
def cryptCtr (encryptBlock : Bytes → Bytes) : CtrState → (input : Bytes) → Bytes × CtrState
  | state, [] => ([], state)
  | state, byte :: input =>
      let state := state.refill encryptBlock
      let rest := cryptCtr encryptBlock { state with offset := (state.offset + 1) % 16 } input
      ((byte ^^^ state.block.getD state.offset 0) :: rest.1, rest.2)

/-! ### The session -/

/-- What the cipher finds through a `struct StretchedKey`: the 16 bytes at `iv`, which it counts up, the
cipher key, and the `mac_size` bytes at `mac_key`. -/
structure KeyMemory where
  counter : Bytes
  cipherKey : Bytes
  macKey : Bytes
deriving Repr, DecidableEq

/-- The fields of `struct SessionContext` that the cipher uses. -/
structure CipherSession where
  localStretchedKey : KeyMemory
  remoteStretchedKey : KeyMemory
  aesEncodeNonceOffset : Nat
  aesEncodeStreamBlock : Bytes
  aesDecodeNonceOffset : Nat
  aesDecodeStreamBlock : Bytes
deriving Repr, DecidableEq

/-- `libp2p_secio_initialize_crypto`. -/
def CipherSession.initializeCrypto (session : CipherSession) : CipherSession :=
  { session with
    aesDecodeNonceOffset := 0
    aesEncodeNonceOffset := 0
    aesDecodeStreamBlock := List.replicate 16 0
    aesEncodeStreamBlock := List.replicate 16 0 }

/-- The key lengths that `mbedtls_aes_setkey_enc` takes; it gets the number of bits as an `unsigned`. -/
def acceptsKey (cipherKey : Bytes) : Bool :=
  let keybits := cipherKey.length * 8 % 2 ^ 32
  keybits = 128 || keybits = 192 || keybits = 256

def CipherSession.encodeState (session : CipherSession) : CtrState :=
  ⟨session.aesEncodeNonceOffset, session.localStretchedKey.counter, session.aesEncodeStreamBlock⟩

def CipherSession.setEncodeState (session : CipherSession) (state : CtrState) : CipherSession :=
  { session with
    localStretchedKey := { session.localStretchedKey with counter := state.counter }
    aesEncodeNonceOffset := state.offset
    aesEncodeStreamBlock := state.block }

def CipherSession.decodeState (session : CipherSession) : CtrState :=
  ⟨session.aesDecodeNonceOffset, session.remoteStretchedKey.counter, session.aesDecodeStreamBlock⟩

def CipherSession.setDecodeState (session : CipherSession) (state : CtrState) : CipherSession :=
  { session with
    remoteStretchedKey := { session.remoteStretchedKey with counter := state.counter }
    aesDecodeNonceOffset := state.offset
    aesDecodeStreamBlock := state.block }

/-- `libp2p_secio_encrypt`, with what it puts into `outgoing`. -/
def CipherSession.encrypt (lib : CipherLibrary) (session : CipherSession) (incoming : Bytes) :
    Option Bytes × CipherSession :=
  let key := session.localStretchedKey
  if acceptsKey key.cipherKey then
    let (buffer, state) := cryptCtr (lib.aesEncrypt key.cipherKey) session.encodeState incoming
    (some (buffer ++ lib.hmacSha256 key.macKey buffer), session.setEncodeState state)
  else (none, session)

/-- What `libp2p_secio_decrypt` returns and what it leaves in `outgoing`. -/
structure Decrypted where
  retVal : Int
  outgoing : Option Bytes
deriving Repr, DecidableEq

/-- `libp2p_secio_decrypt`. What has no room for a MAC makes it hash memory without end. -/
def CipherSession.decrypt (lib : CipherLibrary) (session : CipherSession) (incoming : Bytes) :
    Option (Decrypted × CipherSession) :=
  if incoming.length < 32 then none
  else
    let key := session.remoteStretchedKey
    let data := incoming.take (incoming.length - 32)
    if incoming.drop (incoming.length - 32) ≠ lib.hmacSha256 key.macKey data then
      -- the message goes out as it came in
      some (⟨0, some incoming⟩, session)
    else if acceptsKey key.cipherKey then
      let (buffer, state) := cryptCtr (lib.aesEncrypt key.cipherKey) session.decodeState data
      some (⟨intOfSize buffer.length, some buffer⟩, session.setDecodeState state)
    else some (⟨0, none⟩, session)

def CipherSession.encryptAll (lib : CipherLibrary) :
    CipherSession → List Bytes → Option (List Bytes × CipherSession)
  | session, [] => some ([], session)
  | session, message :: messages =>
      match session.encrypt lib message with
      | (none, _) => none
      | (some out, session) =>
          match session.encryptAll lib messages with
          | none => none
          | some (outs, session) => some (out :: outs, session)

def CipherSession.decryptAll (lib : CipherLibrary) :
    CipherSession → List Bytes → Option (List Decrypted × CipherSession)
  | session, [] => some ([], session)
  | session, message :: messages =>
      match session.decrypt lib message with
      | none => none
      | some (decrypted, session) =>
          match session.decryptAll lib messages with
          | none => none
          | some (rest, session) => some (decrypted :: rest, session)

end CLibp2p.Secio
