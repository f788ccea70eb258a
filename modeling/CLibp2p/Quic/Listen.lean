import Mathlib.Logic.Function.Basic
import Mathlib.Data.List.Basic

/-!
# Streams of a QUIC listener

The callbacks of `v2/src/net/quic_listen.c` that lsquic makes, `libp2p_net_quic_listener_accept`,
`libp2p_net_quic_conn_open_stream` and the close of a wrapper stream. An open is a step that starts it and
a step that ends it, with whatever comes while it waits between them. lsquic is not part of the
repository; what it knows stands beside the state of the code.
-/

namespace CLibp2p.Quic

/-- `struct quic_listen_conn` without its `next`. The pointer to the connection is set or NULL, and it is
set exactly as long as lsquic holds the connection. -/
structure QuicListenConn where
  conn : Bool
  handshakeStatus : Int
  streamReady : Bool
  expectingOutbound : Bool
  refCount : Int
  stream : Option Nat
  freed : Bool
deriving Repr, DecidableEq

/-- What is not allocated yet. -/
def QuicListenConn.blank : QuicListenConn := ⟨false, 0, false, false, 0, none, false⟩

/-- `struct quic_listen_stream_ctx`, of a wrapper that is not closed. -/
structure QuicListenStreamCtx where
  conn : Nat
  lsStream : Option Nat
deriving Repr, DecidableEq

/-- The connections by number, the list `pending` with its head first, the open wrappers and the
connections of the opens that wait. lsquic knows for which connections a stream was asked for and is still
to come, how many streams there were and which of them this side initiated. The last field has the streams
that were handed to the application. -/
structure QuicListener where
  conns : Nat → QuicListenConn
  made : Nat
  pending : List Nat
  wrappers : List QuicListenStreamCtx
  opening : List Nat
  asked : List Nat
  streams : Nat
  locals : List Nat
  handed : List Nat

def QuicListener.start : QuicListener := ⟨fun _ => .blank, 0, [], [], [], [], 0, [], []⟩

inductive ListenEvent where
  | newConn (granted : Bool)
  | connClosed (c : Nat)
  | hskDone (c : Nat) (ok : Bool)
  | newStream (c : Nat) (outbound : Bool)
  | accept (granted : Bool)
  | openBegin (accepted : QuicListenStreamCtx)
  | openEnd (c : Nat) (granted : Bool)
  | close (wrapper : QuicListenStreamCtx)
deriving Repr, DecidableEq

namespace QuicListenConn

/-- `quic_listen_conn_release`. The fields of a freed node stay as they are. -/
def release (lc : QuicListenConn) : QuicListenConn :=
  { lc with refCount := lc.refCount - 1, freed := lc.freed || lc.refCount - 1 ≤ 0 }

/-- The node that `quic_listen_on_new_conn` links. -/
def onNewConn : QuicListenConn := { blank with conn := true, refCount := 1 }

/-- `quic_listen_on_conn_closed`. -/
def onConnClosed (lc : QuicListenConn) : QuicListenConn :=
  { lc with handshakeStatus := -1, conn := false }.release

/-- `quic_listen_on_hsk_done`. -/
def onHskDone (lc : QuicListenConn) (ok : Bool) : QuicListenConn :=
  { lc with handshakeStatus := if ok then 1 else -1 }

/-- `quic_listen_on_new_stream`. -/
def onNewStream (lc : QuicListenConn) (stream : Nat) : QuicListenConn :=
  { lc with stream := some stream, streamReady := true, expectingOutbound := false }

/-- The reference that `libp2p_net_quic_conn_open_stream` takes, and the reset after it. -/
def openBegin (lc : QuicListenConn) : QuicListenConn :=
  { lc with refCount := lc.refCount + 1, streamReady := false, expectingOutbound := true, stream := none }

/-- What the close of a wrapper does to its connection. -/
def onClose (lc : QuicListenConn) : QuicListenConn := { lc with streamReady := false }.release

/-- What `listener_find_ready` looks for. -/
def ready (lc : QuicListenConn) : Bool := lc.handshakeStatus == 1 && lc.streamReady

end QuicListenConn

namespace QuicListener

def update (s : QuicListener) (c : Nat) (lc : QuicListenConn) : QuicListener :=
  { s with conns := Function.update s.conns c lc }

/-- `quic_listen_on_new_conn`. -/
def newConn (s : QuicListener) : QuicListener :=
  { s.update s.made .onNewConn with made := s.made + 1, pending := s.made :: s.pending }

/-- lsquic makes the next stream, for a request if this side initiated it. -/
def newStream (s : QuicListener) (c : Nat) (outbound : Bool) : QuicListener :=
  { s.update c ((s.conns c).onNewStream s.streams) with
    asked := if outbound then s.asked.erase c else s.asked
    streams := s.streams + 1
    locals := if outbound then s.streams :: s.locals else s.locals }

/-- The wrapper that is given to the application for the stream in the place. -/
def hand (s : QuicListener) (c : Nat) : QuicListener :=
  { s with
    wrappers := ⟨c, (s.conns c).stream⟩ :: s.wrappers
    handed := (s.conns c).stream.toList ++ s.handed }

/-- `listener_find_ready`, before it takes its reference. -/
def findReady (s : QuicListener) : Option Nat := s.pending.find? fun c => (s.conns c).ready

/-- `libp2p_net_quic_listener_accept` with a ready connection. Without memory for the wrapper the
connection is freed. -/
def acceptReady (s : QuicListener) (c : Nat) (granted : Bool) : QuicListener :=
  let lc := s.conns c
  let taken := { s.update c { lc with refCount := lc.refCount + 1 } with pending := s.pending.erase c }
  if granted then taken.hand c
  else taken.update c { lc with refCount := lc.refCount + 1, freed := true }

/-- `libp2p_net_quic_conn_open_stream` up to its wait. -/
def openBegin (s : QuicListener) (c : Nat) : QuicListener :=
  let reset := s.update c (s.conns c).openBegin
  if (s.conns c).conn then { reset with opening := c :: s.opening, asked := c :: s.asked } else reset

/-- `libp2p_net_quic_conn_open_stream` returns a wrapper after its wait. -/
def Opens (s : QuicListener) (c : Nat) (granted : Bool) : Bool :=
  (s.conns c).streamReady && (s.conns c).stream.isSome && granted

/-- `libp2p_net_quic_conn_open_stream` after its wait. -/
def openEnd (s : QuicListener) (c : Nat) (granted : Bool) : QuicListener :=
  let woken := { s with opening := s.opening.erase c }
  if s.Opens c granted then woken.hand c else woken

/-- `quic_listen_stream_close`. -/
def close (s : QuicListener) (wrapper : QuicListenStreamCtx) : QuicListener :=
  { s.update wrapper.conn (s.conns wrapper.conn).onClose with wrappers := s.wrappers.erase wrapper }

/-- lsquic calls back for a connection as long as it holds it, and a stream of this side comes only if
one was asked for. -/
def step (s : QuicListener) : ListenEvent → QuicListener
  | .newConn granted => if granted then s.newConn else s
  | .connClosed c => if (s.conns c).conn then s.update c (s.conns c).onConnClosed else s
  | .hskDone c ok => if (s.conns c).conn then s.update c ((s.conns c).onHskDone ok) else s
  | .newStream c outbound =>
      if (s.conns c).conn ∧ (outbound → c ∈ s.asked) then s.newStream c outbound else s
  | .accept granted =>
      match s.findReady with
      | some c => s.acceptReady c granted
      | none => s
  | .openBegin accepted => if accepted ∈ s.wrappers then s.openBegin accepted.conn else s
  | .openEnd c granted => if c ∈ s.opening then s.openEnd c granted else s
  | .close wrapper => if wrapper ∈ s.wrappers then s.close wrapper else s

end QuicListener

end CLibp2p.Quic
