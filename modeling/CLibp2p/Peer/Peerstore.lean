import CLibp2p.Stream.Bytes

/-!
# The peerstore

The peers of `peer/peer.c` and the list of `peer/peerstore.c` that they are kept in. A session is named
by the address of its `SessionContext`. The multiaddress library is not part of the repository.
-/

namespace CLibp2p.Peer

open Duplex

/-- The string of a `struct MultiAddress`. -/
abbrev MultiAddress := Bytes

structure MultiaddrLibrary where
  newFromString : Bytes → Option MultiAddress
  compare : MultiAddress → MultiAddress → Int

inductive ConnectionType where
  | notConnected
  | connected
  | canConnect
  | cannotConnect
deriving Repr, DecidableEq

structure Libp2pPeer where
  id : Bytes
  addresses : List MultiAddress
  connectionType : ConnectionType
  sessionContext : Option Nat
  isLocal : Bool
deriving Repr, DecidableEq

abbrev Peerstore := List Libp2pPeer

/-- `libp2p_peerstore_get_peer`, with the place of the peer for the pointer to it. -/
def getPeer (peerstore : Peerstore) (peerId : Bytes) : Option Nat :=
  if peerId.length = 0 then none else peerstore.findIdx? fun peer => peer.id == peerId

/-- `libp2p_peerstore_update_addresses`. A new address goes to the top. -/
def updateAddresses (lib : MultiaddrLibrary) (existing : Libp2pPeer)
    (incoming : List MultiAddress) : Libp2pPeer :=
  { existing with
    addresses := incoming.foldl (fun addresses address =>
      if addresses.any fun known => lib.compare address known = 0 then addresses
      else address :: addresses) existing.addresses }

/-- `libp2p_peerstore_add_peer`, which stores a copy. -/
def addPeer (lib : MultiaddrLibrary) (peerstore : Peerstore) (peer : Libp2pPeer) : Peerstore :=
  match getPeer peerstore peer.id with
  | some i => peerstore.modify i fun existing => updateAddresses lib existing peer.addresses
  | none => if 0 < peer.id.length then peerstore ++ [peer] else peerstore

end CLibp2p.Peer
