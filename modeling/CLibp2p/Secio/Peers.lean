import CLibp2p.Crypto.PeerId
import CLibp2p.Peer.Peerstore
import CLibp2p.Secio.Handshake

/-!
# What the handshake does to the peerstore and to its stream

The same stages as in `handshake`, with `libp2p_secio_get_peer_or_add` between them, the connection error and
the status of the stream; and `libp2p_secio_ready`, which reads that status. A use of freed memory, or one
through `NULL`, is a crash.
-/

namespace CLibp2p.Secio

open Duplex Duplex.Prog Crypto Peer

inductive SecioStatus where
  | unknown
  | initialized
  | syn
  | ack
deriving Repr, DecidableEq

/-- The fields of `struct SessionContext` that a peer is made from. -/
structure SessionContext where
  address : Nat
  host : Bytes
  port : Int
  remotePeerId : Option Bytes
deriving Repr, DecidableEq

structure SecioContext where
  sessionContext : SessionContext
  peerStore : Option Peerstore
  status : SecioStatus
deriving Repr, DecidableEq

structure Library where
  prims : Primitives
  pb : Protobuf
  ids : IdLibrary
  addresses : MultiaddrLibrary

/-- A pointer to a peer: into the peerstore, or to one the handshake made itself. -/
inductive RemotePeer where
  | stored (place : Nat)
  | own (peer : Libp2pPeer)
deriving Repr, DecidableEq

/-- A write through the pointer, of which the peerstore keeps what falls into it. -/
def SecioContext.update (context : SecioContext) (remotePeer : RemotePeer)
    (change : Libp2pPeer → Libp2pPeer) : SecioContext :=
  match remotePeer with
  | .stored place =>
      { context with peerStore := context.peerStore.map fun peers => peers.modify place change }
  | .own _ => context

inductive StreamType where
  | unknown
  | multistream
  | secio
  | kademlia
  | identify
  | yamux
  | mplex
  | journal
  | raw
  | bridge
deriving Repr, DecidableEq

/-- What `libp2p_secio_ready` sees of the session at one moment. -/
structure Moment where
  defaultStream : Option StreamType
  status : SecioStatus
deriving Repr, DecidableEq

/-- One of its two loops, a round a second: the counter it ends with. -/
def waitWhile (waiting : Nat → Bool) (timeoutSecs : Int) : (fuel counter : Nat) → Nat
  | 0, counter => counter
  | fuel + 1, counter =>
      if waiting counter && decide ((counter : Int) ≤ timeoutSecs) then
        waitWhile waiting timeoutSecs fuel (counter + 1)
      else counter

/-- `libp2p_secio_ready` on a session that looks like `seen` while it waits. -/
def ready (seen : Nat → Moment) (timeoutSecs : Int) : Int :=
  let rounds := (timeoutSecs + 1).toNat
  let counter := waitWhile (fun second =>
    (seen second).defaultStream.isSome && decide ((seen second).defaultStream ≠ some .secio))
    timeoutSecs rounds 0
  if (seen counter).defaultStream = some .secio ∧ counter < 5 then
    let counter := waitWhile (fun second => decide ((seen second).status ≠ .ack)) timeoutSecs rounds
      counter
    if (seen counter).status = .ack then 1 else 0
  else 0

end CLibp2p.Secio
