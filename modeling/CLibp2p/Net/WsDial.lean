import CLibp2p.Stream.Bytes

/-!
# WebSocket streams

`v2/src/net/ws_dial.c`. Dialling, writing and reading service the event loop of libwebsockets, which calls
`ws_callback`. What a call of `lws_service` delivers is a list of callbacks, and the services that come
after those given deliver none.
-/

namespace CLibp2p.Ws

open Duplex

/-- The reasons of `ws_callback`. A writeable connection comes with whether `malloc` grants the copy and
with what `lws_write` takes of the chunk, at most all of it, if it does not fail. -/
inductive WsCallback where
  | established
  | connectionError
  | receive (bytes : Bytes)
  | writeable (granted : Bool) (taken : Option Nat)
  | closed
  | other
deriving Repr, DecidableEq

/-- `struct ws_stream_context`, with the bytes that `tx_buf` points at. The last four fields record the run:
what came in, what `lws_write` accepted, what writes reported as written and what reads returned. -/
structure WsStream where
  connected : Bool
  failed : Bool
  writeDone : Bool
  rxBuf : Bytes
  txBuf : Option Bytes
  txSent : Nat
  received : Bytes
  accepted : Bytes
  reported : Bytes
  returned : Bytes
deriving Repr, DecidableEq

/-- `sizeof(ctx->rx_buf)`. -/
def rxBufSize : Nat := 65536

namespace WsStream

/-- What `calloc` gives. -/
def zeroed : WsStream := ⟨false, false, false, [], none, 0, [], [], [], []⟩

/-- `LWS_CALLBACK_CLIENT_WRITEABLE`. -/
def writeable (s : WsStream) (granted : Bool) (taken : Option Nat) : WsStream :=
  match s.txBuf with
  | none => { s with writeDone := true }
  | some buf =>
      if s.txSent < buf.length then
        let chunk := (buf.drop s.txSent).take 4096
        if granted = false then { s with failed := true }
        else
          match taken with
          | none => { s with failed := true }
          | some n =>
              let s := { s with
                txSent := s.txSent + (chunk.take n).length
                accepted := s.accepted ++ chunk.take n }
              if s.txSent < buf.length then s else { s with writeDone := true }
      else { s with writeDone := true }

/-- `LWS_CALLBACK_CLIENT_RECEIVE`. -/
def receive (s : WsStream) (bytes : Bytes) : WsStream :=
  let s := { s with received := s.received ++ bytes }
  if rxBufSize < s.rxBuf.length + bytes.length then { s with failed := true }
  else { s with rxBuf := s.rxBuf ++ bytes }

/-- `ws_callback`. -/
def callback (s : WsStream) : WsCallback → WsStream
  | .established => { s with connected := true }
  | .connectionError => { s with failed := true }
  | .receive bytes => s.receive bytes
  | .writeable granted taken => s.writeable granted taken
  | .closed => { s with connected := false, failed := true }
  | .other => s

/-- A call of `lws_service`. -/
def service (s : WsStream) (callbacks : List WsCallback) : WsStream := callbacks.foldl callback s

/-- The loops over `lws_service`. -/
def serviceWhile (busy : WsStream → Bool) : Nat → List (List WsCallback) → WsStream → WsStream
  | 0, _, s => s
  | fuel + 1, services, s =>
      if busy s then serviceWhile busy fuel services.tail (s.service (services.headD [])) else s

/-- `libp2p_net_ws_dial`, once libwebsockets connects. -/
def dial (services : List (List WsCallback)) : Option WsStream :=
  let s := serviceWhile (fun s => !s.connected && !s.failed) 500 services zeroed
  if s.connected then some s else none

/-- The condition of the loop in `ws_stream_write`. -/
def writeBusy (s : WsStream) : Bool := !s.writeDone && !s.failed

/-- `ws_stream_write`; `none` is -1. -/
def streamWrite (s : WsStream) (buf : Bytes) (services : List (List WsCallback)) :
    Option Nat × WsStream :=
  if !s.connected || s.failed then (none, s)
  else
    let s := serviceWhile writeBusy 1000 services
      { s with txBuf := some buf, txSent := 0, writeDone := false }
    if s.failed then (none, s) else (some s.txSent, s)

/-- The copy out of `rx_buf`. -/
def copyOut (s : WsStream) (count : Nat) : Option Bytes × WsStream :=
  (some (s.rxBuf.take count), { s with rxBuf := s.rxBuf.drop count })

/-- The loop in `ws_stream_read` is entered with nothing buffered and left in its middle. -/
def readBusy (s : WsStream) : Bool := s.rxBuf.isEmpty && !s.failed

/-- `ws_stream_read`; `none` is -1. -/
def streamRead (s : WsStream) (count : Nat) (services : List (List WsCallback)) :
    Option Bytes × WsStream :=
  if 0 < s.rxBuf.length then s.copyOut count
  else if !s.connected || s.failed then (none, s)
  else
    let s := serviceWhile readBusy 100 services s
    if 0 < s.rxBuf.length then s.copyOut count
    else if s.failed then (none, s)
    else (some [], s)

/-- The buffer of an earlier write is its caller's. This is what is in it by now. -/
def remember (s : WsStream) (memory : Nat → UInt8) : WsStream :=
  { s with txBuf := s.txBuf.map fun buf => (List.range buf.length).map memory }

end WsStream

/-- A call, with what the event loop delivers meanwhile. -/
inductive WsOp where
  | write (buf : Bytes) (services : List (List WsCallback))
  | read (count : Nat) (memory : Nat → UInt8) (services : List (List WsCallback))

def WsStream.step (s : WsStream) : WsOp → WsStream
  | .write buf services =>
      let (ret, s) := s.streamWrite buf services
      { s with reported := s.reported ++ buf.take (ret.getD 0) }
  | .read count memory services =>
      let (ret, s) := (s.remember memory).streamRead count services
      { s with returned := s.returned ++ ret.getD [] }

end CLibp2p.Ws
