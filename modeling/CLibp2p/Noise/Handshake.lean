import CLibp2p.Noise.Stream

/-!
# The Noise XX handshake of `v2/src/conn/noise.c`

Both roles of the handshake, over the same sequence of hash, key and AEAD steps. The keys that
`noise_x25519_generate` draws and the results of the identity callbacks are inputs; the call of
`verify` is a question to the environment, so that a run shows whether it was asked.
-/

namespace CLibp2p.Noise

open Duplex Duplex.Prog

/-- `noise_identity_callbacks_t`: which pointers are set and what the calls give. A `NULL` structure
is one without pointers. -/
structure Callbacks where
  getIdentityKey : Option (Option Bytes)
  sign : Option (Bytes → Option Bytes)
  verify : Bool

/-- The private keys `noise_x25519_generate` draws, `none` if it fails. -/
structure Keys where
  ephemeral : Option Bytes
  static : Option Bytes
deriving Repr, DecidableEq

/-- The stream returned, and the locals of the handshake at that point. `remotePayload` is `none` if
the payload of the peer was shorter than a tag. -/
structure Established where
  stream : StreamContext
  h : Bytes
  ck : Bytes
  remoteStatic : Bytes
  remotePayload : Option Bytes
deriving Repr, DecidableEq

def maxIdentityPayload : Nat := 1024
def maxRemotePayload : Nat := 2048
def maxMessage : Nat := 4096

/-- The identity payload; nothing at all if a callback or the encoder fails. -/
def identityPayload (pb : Protobuf) (callbacks : Callbacks) (sPublic : Bytes) : Bytes :=
  match callbacks.getIdentityKey, callbacks.sign with
  | some (some identityKey), some sign =>
      match sign sPublic with
      | some identitySig =>
          (payloadEncode pb identityKey identitySig maxIdentityPayload).getD []
      | none => []
  | _, _ => []

/-- Verify the identity if the payload decodes and has both fields, and be content otherwise. A decoder
that never ends never lets the handshake return. -/
def checkIdentity (pb : Protobuf) (callbacks : Callbacks) (remoteStatic payload : Bytes) : Code Bool :=
  if callbacks.verify then
    match payloadDecode pb payload with
    | .fields ⟨some key, some sig⟩ => query ⟨payload, key, sig, remoteStatic⟩
    | .fields _ => pure true
    | .rejected => pure true
    | .endless => pure false
  else pure true

/-- The end of the peer's message, in both roles. -/
def takePayload (prims : Primitives) (pb : Protobuf) (callbacks : Callbacks) (sym : Symmetric)
    (remoteStatic frame : Bytes) : Code (Option (Option Bytes × Symmetric)) :=
  if tagLength + maxRemotePayload < frame.length then pure none
  else if tagLength ≤ frame.length then
    match decryptAndHash prims sym frame with
    | none => pure none
    | some (payload, sym) => do
        if ← checkIdentity pb callbacks remoteStatic payload then pure (some (some payload, sym))
        else pure none
  else pure (some (none, mixHash prims sym frame))

def encryptedStaticLength : Nat := dhLength + tagLength

/-- What the initiator does with `e` and `s` of the responder's message: the ephemeral and the static
key of the peer, and the state for the payload. -/
def readResponderKeys (prims : Primitives) (ePrivate : Bytes) (sym : Symmetric) (msg : Bytes) :
    Option (Bytes × Bytes × Symmetric) := do
  guard (dhLength ≤ msg.length)
  let rePublic := msg.take dhLength
  let sym := mixHash prims sym rePublic
  let ee ← prims.x25519Derive ePrivate rePublic
  let sym := mixKey prims sym ee
  guard (dhLength + encryptedStaticLength ≤ msg.length)
  let (remoteStatic, sym) ←
    decryptAndHash prims sym ((msg.drop dhLength).take encryptedStaticLength)
  let es ← prims.x25519Derive ePrivate remoteStatic
  return (rePublic, remoteStatic, mixKey prims sym es)

/-- The initiator's last message: `s` under the key of `es`, and the payload under that of `se`. -/
def initiatorMessage (prims : Primitives) (pb : Protobuf) (callbacks : Callbacks)
    (static : Option Bytes) (rePublic : Bytes) (sym : Symmetric) : Option (Bytes × Symmetric) := do
  let sPrivate ← static
  let sPublic := prims.x25519Public sPrivate
  let (encryptedS, sym) ← encryptAndHash prims sym sPublic
  let se ← prims.x25519Derive sPrivate rePublic
  let sym := mixKey prims sym se
  let (encryptedPayload, sym) ← encryptAndHash prims sym (identityPayload pb callbacks sPublic)
  return (encryptedS ++ encryptedPayload, sym)

/-- What both sides know once the initiator's `e` is out. -/
def afterFirstMessage (prims : Primitives) (ePublic : Bytes) : Symmetric :=
  mixHash prims (mixHash prims (Symmetric.start prims) ePublic) []

/-- `libp2p_noise_handshake_raw`. -/
def handshakeInitiator (prims : Primitives) (pb : Protobuf) (callbacks : Callbacks) (keys : Keys) :
    Code (Option Established) :=
  match keys.ephemeral with
  | none => pure none
  | some ePrivate => do
      let ePublic := prims.x25519Public ePrivate
      if !(← writeFrame ePublic) then pure none
      else do
        match ← readFrame maxMessage with
        | none => pure none
        | some msg =>
            match readResponderKeys prims ePrivate (afterFirstMessage prims ePublic) msg with
            | none => pure none
            | some (rePublic, remoteStatic, sym) => do
                match ← takePayload prims pb callbacks sym remoteStatic
                    (msg.drop (dhLength + encryptedStaticLength)) with
                | none => pure none
                | some (remotePayload, sym) =>
                    match initiatorMessage prims pb callbacks keys.static rePublic sym with
                    | none => pure none
                    | some (message, sym) => do
                        if !(← writeFrame message) then pure none
                        else
                          let (writeKey, readKey) := hkdf prims sym.ck []
                          pure (some {
                            stream := ⟨readKey, writeKey, 0, 0, [], 0⟩
                            h := sym.h
                            ck := sym.ck
                            remoteStatic
                            remotePayload })

/-- The responder's message: `e`, `s` under the key of `ee`, and the payload under that of `es`. -/
def responderMessage (prims : Primitives) (pb : Protobuf) (callbacks : Callbacks)
    (ePrivate : Bytes) (static : Option Bytes) (rePublic : Bytes) (sym : Symmetric) :
    Option (Bytes × Symmetric) := do
  let ePublic := prims.x25519Public ePrivate
  let sym := mixHash prims sym ePublic
  let ee ← prims.x25519Derive ePrivate rePublic
  let sym := mixKey prims sym ee
  let sPrivate ← static
  let sPublic := prims.x25519Public sPrivate
  let (encryptedS, sym) ← encryptAndHash prims sym sPublic
  let es ← prims.x25519Derive sPrivate rePublic
  let sym := mixKey prims sym es
  let (encryptedPayload, sym) ← encryptAndHash prims sym (identityPayload pb callbacks sPublic)
  return (ePublic ++ encryptedS ++ encryptedPayload, sym)

/-- What the responder does with `s` of the initiator's last message. -/
def readInitiatorKey (prims : Primitives) (ePrivate : Bytes) (sym : Symmetric) (msg : Bytes) :
    Option (Bytes × Symmetric) := do
  guard (encryptedStaticLength ≤ msg.length)
  let (remoteStatic, sym) ← decryptAndHash prims sym (msg.take encryptedStaticLength)
  let se ← prims.x25519Derive ePrivate remoteStatic
  return (remoteStatic, mixKey prims sym se)

/-- `libp2p_noise_handshake_responder_raw`. -/
def handshakeResponder (prims : Primitives) (pb : Protobuf) (callbacks : Callbacks) (keys : Keys) :
    Code (Option Established) := do
  match ← readFrame dhLength with
  | none => pure none
  | some rePublic =>
      if rePublic.length ≠ dhLength then pure none
      else match keys.ephemeral with
        | none => pure none
        | some ePrivate =>
            match responderMessage prims pb callbacks ePrivate keys.static rePublic
                (afterFirstMessage prims rePublic) with
            | none => pure none
            | some (message, sym) => do
                if !(← writeFrame message) then pure none
                else do
                  match ← readFrame maxMessage with
                  | none => pure none
                  | some msg =>
                      match readInitiatorKey prims ePrivate sym msg with
                      | none => pure none
                      | some (remoteStatic, sym) => do
                          match ← takePayload prims pb callbacks sym remoteStatic
                              (msg.drop encryptedStaticLength) with
                          | none => pure none
                          | some (remotePayload, sym) =>
                              let (readKey, writeKey) := hkdf prims sym.ck []
                              pure (some {
                                stream := ⟨readKey, writeKey, 0, 0, [], 0⟩
                                h := sym.h
                                ck := sym.ck
                                remoteStatic
                                remotePayload })

end CLibp2p.Noise
