import CLibp2p.Stream.Prog
import CLibp2p.Secio.Messages

/-!
# `libp2p_secio_handshake`

The handshake of `secio/secio.c`, the same code on both sides: proposals, exchanges, and each side's
nonce sent back under the new keys. The stream here is one of messages; their framing on the socket is
left to `libp2p_secio_unencrypted_write` and `libp2p_secio_unencrypted_read`.
-/

namespace CLibp2p.Secio

open Duplex Duplex.Prog

abbrev Code := Prog Bytes Unit Unit

abbrev Wire := Duplex.Wire Bytes Unit Unit

/-- The number of bytes written; nothing is sent for an empty message. -/
def unencryptedWrite (data : Bytes) : Code Nat :=
  if data.length = 0 then pure 0
  else do
    let ret ← send [data]
    pure (if ret = 1 then data.length else 0)

def unencryptedRead : Code (Option Bytes) := do
  match ← recv 1 with
  | [message] => if message.length = 0 then pure none else pure (some message)
  | _ => pure none

/-- One side of the handshake: its proposal, whose `rand` is the nonce it drew, its RSA key, what
`mbedtls_ecdh_make_public` draws, and what its memory holds behind a buffer that is read past its
end. -/
structure Host where
  propose : Propose
  privateKey : Bytes
  ephemeral : Bytes
  behind : Bytes → Bytes

/-- The three lists of a proposal. -/
structure Supported where
  exchanges : Bytes
  ciphers : Bytes
  hashes : Bytes
deriving Repr, DecidableEq

def Host.offering (host : Host) (supported : Supported) : Host :=
  { host with propose := { host.propose with
      exchanges := supported.exchanges
      ciphers := supported.ciphers
      hashes := supported.hashes } }

/-- As many bytes as are asked for, out of a buffer that may be shorter. -/
def Host.readPast (host : Host) (buffer : Bytes) (size : Nat) : Bytes :=
  (buffer ++ host.behind buffer).take size

def nonceSize : Nat := 16
def blockSize : Nat := 16
def macLength : Nat := 32

def verifySignature (prims : Primitives) (publicKey : PublicKey) (data signature : Bytes) : Bool :=
  if publicKey.type = keytypeRsa then prims.rsaVerify publicKey.data data signature else false

/-- `libp2p_secio_exchange_build`; the key goes without its first byte, and without a signature if
signing fails. -/
def exchangeBuild (prims : Primitives) (host : Host) (publicBytes signed : Bytes) : Exchange where
  epubkey := publicBytes.drop 1
  signature := (prims.rsaSign host.privateKey signed).getD []

/-- The counter mode starts from the IV of the key. -/
def StretchedKey.start (host : Host) (key : StretchedKey) : CtrState :=
  ⟨0, host.readPast key.iv blockSize, List.replicate blockSize 0⟩

def StretchedKey.mac (prims : Primitives) (host : Host) (key : StretchedKey) (data : Bytes) : Bytes :=
  prims.hmacSha256 (host.readPast key.macKey key.macSize) data

def encrypt (prims : Primitives) (host : Host) (key : StretchedKey) (state : CtrState)
    (data : Bytes) : Option (Bytes × CtrState) :=
  match prims.aesCtr key.cipherKey state data with
  | none => none
  | some (ciphertext, state) => some (ciphertext ++ key.mac prims host ciphertext, state)

/-- `libp2p_secio_decrypt`. A message shorter than a MAC makes it hash memory without end. -/
def decrypt (prims : Primitives) (host : Host) (key : StretchedKey) (state : CtrState)
    (message : Bytes) : Option (Bytes × CtrState) :=
  if message.length < macLength then none
  else
    let ciphertext := message.take (message.length - macLength)
    if message.drop (message.length - macLength) = key.mac prims host ciphertext then
      prims.aesCtr key.cipherKey state ciphertext
    else none

/-- The chosen names, if all three calls found one. -/
def chosen : Choice × Choice × Choice → Option (Bytes × Bytes × Bytes)
  | (.picked curve, .picked cipher, .picked hash) => some (curve, cipher, hash)
  | _ => none

/-- What the handshake holds when the proposals are exchanged. -/
structure Proposed where
  outBytes : Bytes
  inBytes : Bytes
  proposeIn : Propose
  publicKey : PublicKey
deriving Repr, DecidableEq

/-- How the exchange of the proposals ends. -/
inductive Proposals where
  | exchanged (proposed : Proposed)
  | failed
  | crashed
deriving Repr, DecidableEq

/-- The proposals, both ways. One that does not decode is freed, and freed again at the exit. -/
def exchangeProposals (pb : Protobuf) (host : Host) : Code Proposals :=
  match proposeEncode pb host.propose with
  | none => pure .failed
  | some outBytes => do
      let written ← unencryptedWrite outBytes
      if written ≠ outBytes.length then pure .failed
      else do
        match ← unencryptedRead with
        | none => pure .failed
        | some inBytes =>
            match proposeDecode pb inBytes (host.behind inBytes) with
            | none => pure .crashed
            | some proposeIn =>
                if proposeIn.rand.length ≠ nonceSize then pure .failed
                else match
                    publicKeyDecode pb proposeIn.publicKey (host.behind proposeIn.publicKey) with
                  | none => pure .failed
                  | some publicKey => pure (.exchanged ⟨outBytes, inBytes, proposeIn, publicKey⟩)

/-- What the handshake holds when the keys are stretched. `signed` and `verified` are the two
contents of `char_buffer`. -/
structure Established where
  order : Int
  chosenCurve : Bytes
  chosenCipher : Bytes
  chosenHash : Bytes
  signed : Bytes
  verified : Bytes
  localStretchedKey : StretchedKey
  remoteStretchedKey : StretchedKey
deriving Repr, DecidableEq

/-- How a handshake ends: with 1, with 0, or not at all. -/
inductive Outcome where
  | agreed (established : Established)
  | failed
  | crashed
deriving Repr, DecidableEq

def Outcome.result : Outcome → Option Established
  | .agreed established => some established
  | _ => none

/-- A call of `libp2p_secio_select_best` that reads through `NULL`, unless an earlier one found no
match. -/
def crashes : Choice × Choice × Choice → Bool
  | (.crash, _, _) | (.picked _, .crash, _) | (.picked _, .picked _, .crash) => true
  | _ => false

/-- The exchange of this side goes out; what it signed is kept. -/
def sendExchange (prims : Primitives) (pb : Protobuf) (host : Host) (proposed : Proposed)
    (curve : Bytes) : Code (Option Bytes) :=
  match prims.ecdhMakePublic curve host.ephemeral with
  | none => pure none
  | some publicBytes => do
      let signed := proposed.outBytes ++ proposed.inBytes ++ publicBytes.drop 1
      let exchangeOut := exchangeEncode pb (exchangeBuild prims host publicBytes signed)
      let written ← unencryptedWrite exchangeOut
      pure (if written = exchangeOut.length then some signed else none)

/-- From the exchange of the peer to the stretched keys. A message that does not decode is freed and
read all the same. -/
def receiveExchange (prims : Primitives) (pb : Protobuf) (host : Host) (proposed : Proposed)
    (order : Int) (curve cipher hash signed message : Bytes) : Outcome :=
  match exchangeDecode pb message (host.behind message) with
  | none => .crashed
  | some exchangeIn =>
      let verified := proposed.inBytes ++ proposed.outBytes ++ exchangeIn.epubkey
      let remotePublic := UInt8.ofNat exchangeIn.epubkey.length :: exchangeIn.epubkey
      if !verifySignature prims proposed.publicKey verified exchangeIn.signature then .failed
      else match prims.ecdhCalcSecret curve host.ephemeral remotePublic with
        | none => .failed
        | some sharedKey =>
            match stretchKeys prims cipher sharedKey with
            | none => .failed
            | some (k1, k2) =>
                let (localKey, remoteKey) := if 0 < order then (k1, k2) else (k2, k1)
                if hash = name "SHA1" ∨ hash = name "SHA512" ∨ hash = name "SHA256" then
                  .agreed {
                    order
                    chosenCurve := curve
                    chosenCipher := cipher
                    chosenHash := hash
                    signed
                    verified
                    localStretchedKey := makeMacAndCipher hash localKey
                    remoteStretchedKey := makeMacAndCipher hash remoteKey }
                else .failed

/-- The message with the own nonce. One shorter than a MAC is hashed without end. -/
def receiveNonce (prims : Primitives) (host : Host) (established : Established)
    (message : Bytes) : Outcome :=
  let remoteKey := established.remoteStretchedKey
  if message.length < macLength then .crashed
  else match decrypt prims host remoteKey (remoteKey.start host) message with
    | none => .failed
    | some (nonce, _) =>
        if nonce.length = nonceSize ∧ bytesCompare nonce host.propose.rand = 0 then
          .agreed established
        else .failed

/-- The nonce of the peer goes out encrypted, and the own nonce has to come back. -/
def confirm (prims : Primitives) (host : Host) (remoteNonce : Bytes) (established : Established) :
    Code Outcome :=
  let localKey := established.localStretchedKey
  match encrypt prims host localKey (localKey.start host) remoteNonce with
  | none => pure .failed
  | some (message, _) => do
      let written ← unencryptedWrite message
      if written = 0 then pure .failed
      else do
        match ← unencryptedRead with
        | none => pure .failed
        | some message => pure (receiveNonce prims host established message)

/-- How the rest of the handshake ends: before anything was done to the context, without an exchange of the
peer, or once the keys are stretched. -/
inductive Ending where
  | early (outcome : Outcome)
  | unheard
  | stretched (outcome : Outcome)
deriving Repr, DecidableEq

def Ending.outcome : Ending → Outcome
  | .early outcome => outcome
  | .unheard => .failed
  | .stretched outcome => outcome

/-- From the three names on. -/
def negotiate (prims : Primitives) (pb : Protobuf) (host : Host) (proposed : Proposed) : Code Ending :=
  let order := determineOrder prims proposed.proposeIn host.propose
  let choices := chooseAll order host.propose proposed.proposeIn
  if crashes choices then pure (.early .crashed)
  else match chosen choices with
    | none => pure (.early .failed)
    | some (curve, cipher, hash) => do
        match ← sendExchange prims pb host proposed curve with
        | none => pure (.early .failed)
        | some signed => do
            match ← unencryptedRead with
            | none => pure .unheard
            | some message =>
                match receiveExchange prims pb host proposed order curve cipher hash signed
                  message with
                | .agreed established => do
                    let outcome ← confirm prims host proposed.proposeIn.rand established
                    pure (.stretched outcome)
                | outcome => pure (.early outcome)

/-- `libp2p_secio_handshake` as its stream sees it; its stages are split where the next message is due. -/
def handshake (prims : Primitives) (pb : Protobuf) (host : Host) : Code (Option Established) := do
  match ← exchangeProposals pb host with
  | .exchanged proposed => do
      let ending ← negotiate prims pb host proposed
      pure ending.outcome.result
  | _ => pure none

end CLibp2p.Secio
