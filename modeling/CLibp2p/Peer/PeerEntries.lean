import CLibp2p.Peer.Peerstore

/-!
# The linked list of the peerstore

`peer/peerstore.c` with the two pointers into its list, `head_entry` and `last_entry`, and with the three
ways to put a peer in. Memory is always granted. Where the code leaves the memory it may use, there is
no result.
-/

namespace CLibp2p.Peer

open Duplex

/-- A `struct Libp2pPeer` from outside. Its list of addresses may have NULL items. -/
structure GivenPeer where
  id : Bytes
  addrItems : List (Option MultiAddress)
  connectionType : ConnectionType
  sessionContext : Option Nat
  isLocal : Bool
deriving Repr, DecidableEq

/-- `libp2p_peer_new`, with an id put in. -/
def GivenPeer.ofId (id : Bytes) : GivenPeer := ⟨id, [], .notConnected, none, false⟩

/-- `libp2p_peer_copy`. The copy leaves out NULL items. -/
def peerCopy (peer : GivenPeer) : Libp2pPeer where
  id := peer.id
  addresses := peer.addrItems.reduceOption
  connectionType := peer.connectionType
  sessionContext := peer.sessionContext
  isLocal := peer.isLocal

def stringRetvalSize : Nat := 100

/-- `libp2p_peer_id_to_string`, which copies the id and a NUL into `string_retval` whatever the size. -/
def peerIdToString (id : Bytes) : Option Bytes := if id.length < stringRetvalSize then some id else none

/-- `struct Peerstore`: the peers of the entries from `head_entry` on, and the place of `last_entry`. -/
structure PeerEntries where
  nodes : List Libp2pPeer
  lastEntry : Option Nat
deriving Repr, DecidableEq

namespace PeerEntries

/-- `libp2p_peerstore_add_peer_entry`. What hung behind `last_entry` is lost. -/
def addPeerEntry (peerstore : PeerEntries) (peer : Libp2pPeer) : Option PeerEntries :=
  match peerstore.nodes with
  | [] => some ⟨[peer], some 0⟩
  | _ :: _ =>
      peerstore.lastEntry.map fun last =>
        ⟨peerstore.nodes.take (last + 1) ++ [peer], some (last + 1)⟩

/-- `libp2p_peerstore_add_peer`. The messages it logs have the id as a string. -/
def addPeer (lib : MultiaddrLibrary) (peerstore : PeerEntries) (peer : GivenPeer) :
    Option (PeerEntries × Bool) :=
  match getPeer peerstore.nodes peer.id with
  | some i =>
      let nodes := peerstore.nodes.modify i fun existing =>
        updateAddresses lib existing peer.addrItems.reduceOption
      some ({ peerstore with nodes := nodes }, true)
  | none =>
      if 0 < peer.id.length then do
        let _ ← peerIdToString peer.id
        let peerstore ← peerstore.addPeerEntry (peerCopy peer)
        let _ ← peerIdToString peer.id
        some (peerstore, true)
      else some (peerstore, false)

/-- `libp2p_peerstore_new`. -/
def new (lib : MultiaddrLibrary) (localPeer : GivenPeer) : Option PeerEntries :=
  (addPeer lib ⟨[], none⟩ localPeer).map Prod.fst

/-- `libp2p_peerstore_get_local_peer`. -/
def getLocalPeer (peerstore : PeerEntries) : Option Libp2pPeer := peerstore.nodes.head?

/-- `libp2p_peerstore_get_or_add_peer`. -/
def getOrAddPeer (lib : MultiaddrLibrary) (peerstore : PeerEntries) (peer : GivenPeer) :
    Option (PeerEntries × Option Nat) :=
  match getPeer peerstore.nodes peer.id with
  | some i => some (peerstore, some i)
  | none => do
      let (peerstore, added) ← peerstore.addPeer lib peer
      if added then some (peerstore, getPeer peerstore.nodes peer.id) else some (peerstore, none)

/-- `libp2p_peerstore_get_or_add_peer_by_id`. -/
def getOrAddPeerById (lib : MultiaddrLibrary) (peerstore : PeerEntries) (peerId : Bytes) :
    Option (PeerEntries × Option Nat) :=
  if peerId.length = 0 then some (peerstore, none)
  else
    match getPeer peerstore.nodes peerId with
    | some i => some (peerstore, some i)
    | none => do
        let _ ← peerstore.addPeer lib (.ofId peerId)
        -- the id of `temp_peer` is the memory of the caller: `libp2p_peer_free` frees it, and then the
        -- lookup of the new entry reads it
        none

end PeerEntries

inductive PeerstoreCall where
  | addPeer (peer : GivenPeer)
  | getOrAddPeer (peer : GivenPeer)
  | getOrAddPeerById (peerId : Bytes)
deriving Repr, DecidableEq

namespace PeerstoreCall

def id : PeerstoreCall → Bytes
  | .addPeer peer => peer.id
  | .getOrAddPeer peer => peer.id
  | .getOrAddPeerById peerId => peerId

/-- The peerstore that the call leaves, if there still is one. -/
def apply (lib : MultiaddrLibrary) : Option PeerEntries → PeerstoreCall → Option PeerEntries
  | none, _ => none
  | some peerstore, .addPeer peer => (peerstore.addPeer lib peer).map Prod.fst
  | some peerstore, .getOrAddPeer peer => (peerstore.getOrAddPeer lib peer).map Prod.fst
  | some peerstore, .getOrAddPeerById peerId => (peerstore.getOrAddPeerById lib peerId).map Prod.fst

end PeerstoreCall

end CLibp2p.Peer
