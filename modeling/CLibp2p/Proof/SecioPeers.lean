import CLibp2p.Secio.Peers
import CLibp2p.Proof.SecioAgreement

/-!
# A failed secio handshake

The handshake writes the peer of the proposal into the peerstore before that peer has shown anything,
and sets the status of the stream before the nonces are back; its one exit undoes neither. A run that
fails goes one of four ways: without a proposal, with one but without an exchange, with an exchange that
does not hold up, and with a nonce that does not. `Unmarked` is what has to be so before the call for
nothing to stay behind.
-/

namespace CLibp2p.Secio

open Duplex Duplex.Prog Crypto Peer

/-! ### Where a run goes -/

section

variable {lib : Library} {host : Host} {context context' : SecioContext} {w w' : Wire}

/-- The exchange went out and none came back. -/
def Silent (lib : Library) (host : Host) (proposed : Proposed) (w : Wire) : Prop :=
  ∃ curve cipher hash signed w₁ w₂, Sends lib.prims lib.pb host proposed w w₁ curve cipher hash signed ∧
    unencryptedRead.run w₁ = (none, w₂)

/-- The entry of the peer, if there is to be one, already has this connection type and session. -/
def Settled (context : SecioContext) (peerId : Bytes) (connectionType : ConnectionType)
    (sessionContext : Option Nat) : Prop :=
  ∀ peerstore, context.peerStore = some peerstore → peerId = [] ∨
    ∃ place peer, getPeer peerstore peerId = some place ∧ peerstore[place]? = some peer ∧
      peer.connectionType = connectionType ∧ peer.sessionContext = sessionContext

end

/-! ### An impostor -/

/-- A stand-in to evaluate the handshake with; every URL is a multiaddress. -/
def Library.plain : Library where
  prims := .plain
  pb := .varints
  ids := {
    encodeVarint := fun fieldNo value _ => some [UInt8.ofNat (8 * fieldNo), UInt8.ofNat value]
    mhNew := fun code digest => some (UInt8.ofNat code :: UInt8.ofNat digest.length :: digest) }
  addresses := {
    newFromString := some
    compare := fun a b => if a = b then 0 else 1 }

def Host.plain : Host :=
  ⟨⟨List.replicate 16 1, [8, 0, 18, 1, 3], name "P-256", name "AES-128", name "SHA256"⟩, [3], [2], id⟩

end CLibp2p.Secio
