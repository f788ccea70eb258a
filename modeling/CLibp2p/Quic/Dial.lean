import Mathlib.Data.List.Basic
import Mathlib.Tactic.Common

/-!
# Streams of a dialed QUIC connection

The callbacks of `v2/src/net/quic_dial.c` that lsquic makes and `libp2p_net_quic_accept_stream`. A stream
is named by its id. lsquic is not part of the repository; what it knows of its streams stands beside the
state of the code.
-/

namespace CLibp2p.Quic

/-- `struct quic_dial_ctx`, as far as streams go. The pointer to the connection is set or NULL. -/
structure QuicDialCtx where
  conn : Bool
  outboundStream : Option Nat
  inboundStream : Option Nat
  outboundReady : Bool
  inboundReady : Bool
  error : Bool
deriving Repr, DecidableEq

/-- The context, the streams that lsquic has opened and those of them that are not closed, and the
streams of the wrappers that were accepted. -/
structure DialedConn where
  dial : QuicDialCtx
  opened : List Nat
  live : List Nat
  accepted : List (Option Nat)
deriving Repr, DecidableEq

def DialedConn.start : DialedConn := ⟨⟨true, none, none, false, false, false⟩, [], [], []⟩

/-- The peer of a dialed connection is the server, and its streams have the odd ids. -/
def OpenedByPeer (id : Nat) : Prop := id % 2 = 1

instance (id : Nat) : Decidable (OpenedByPeer id) := inferInstanceAs (Decidable (id % 2 = 1))

inductive DialEvent where
  | newStream (id : Nat)
  | streamClosed (id : Nat)
  | connClosed
  | accept (granted : Bool)
deriving Repr, DecidableEq

namespace QuicDialCtx

/-- `quic_on_new_stream`. -/
def onNewStream (dial : QuicDialCtx) (id : Nat) : QuicDialCtx :=
  if id % 4 = 0 then { dial with outboundStream := some id, outboundReady := true }
  else { dial with inboundStream := some id, inboundReady := true }

/-- `quic_on_close`. -/
def onClose (dial : QuicDialCtx) (id : Nat) : QuicDialCtx :=
  { dial with
    outboundStream := if dial.outboundStream = some id then none else dial.outboundStream
    inboundStream := if dial.inboundStream = some id then none else dial.inboundStream }

/-- `quic_on_conn_closed`. -/
def onConnClosed (dial : QuicDialCtx) : QuicDialCtx :=
  { dial with error := true, conn := false, outboundStream := none, inboundStream := none }

/-- The end of `libp2p_net_quic_accept_stream`, once the engine has been driven: the stream of the
wrapper it returns, or NULL. -/
def acceptStream (dial : QuicDialCtx) (granted : Bool) : Option (Option Nat) :=
  if dial.inboundReady && granted then some dial.inboundStream else none

end QuicDialCtx

/-- lsquic opens an id once, on a connection that is not closed, and closes a stream that is open. -/
def DialedConn.step (s : DialedConn) : DialEvent → DialedConn
  | .newStream id =>
      if s.dial.conn = true ∧ id ∉ s.opened then
        { s with
          dial := s.dial.onNewStream id
          opened := id :: s.opened
          live := id :: s.live }
      else s
  | .streamClosed id =>
      if id ∈ s.live then
        { s with dial := s.dial.onClose id, live := s.live.filter (· ≠ id) }
      else s
  | .connClosed => if s.dial.conn then { s with dial := s.dial.onConnClosed, live := [] } else s
  | .accept granted =>
      match s.dial.acceptStream granted with
      | some stream => { s with accepted := stream :: s.accepted }
      | none => s

end CLibp2p.Quic
