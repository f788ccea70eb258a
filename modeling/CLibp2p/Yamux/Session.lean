import CLibp2p.Stream.Loop
import CLibp2p.Yamux.Frame

/-!
# The yamux session of `v2/src/conn/yamux.c`

Every function is a program over the underlying stream. Session and stream contexts are passed
explicitly, `malloc` and `realloc` succeed, and the `for (;;)` loops are `Prog.iterate` over one pass
of their body. Each pass leaves in the log which header it consumed and in what situation, and each
`yamux_send_header` whether its header went out; the code never looks at these notes. Functions keep
their names, less the prefix.
-/

namespace CLibp2p.Yamux

open Duplex Duplex.Prog

/-- The four operations that contain a frame-dispatch loop, with the stream they work for or the
value of the pong they wait for. -/
inductive Operation where
  | open (handle : Nat) (streamId : UInt32)
  | accept
  | read (handle : Nat) (streamId : UInt32)
  | ping (value : UInt32)
deriving Repr, DecidableEq

/-- What a run leaves in its log. `received` says which operation consumed a header and which ids
were waiting to be accepted at that moment, `truncated` that its payload did not arrive in full. -/
inductive Note where
  | received (op : Operation) (queued : List UInt32) (hdr : Header)
  | emitted (hdr : Header)
  | refused (hdr : Header)
  | truncated (hdr : Header)
  | announced (handle : Nat) (length : UInt32)
  | payload (handle : Nat) (length : UInt32) (ret : Int)
deriving Repr, DecidableEq

abbrev Code := Prog UInt8 Note Unit

abbrev Wire := Duplex.Wire UInt8 Note Unit

structure PendingInbound where
  streamId : UInt32
  data : Bytes
deriving Repr, DecidableEq

structure Session where
  nextStreamId : UInt32
  isServer : Bool
  closed : Bool
  pingSeq : UInt32
  pendingInbound : List PendingInbound
deriving Repr, DecidableEq

/-- `struct YamuxStreamContext`; `handle` tells contexts apart, as their addresses do. -/
structure StreamContext where
  handle : Nat
  streamId : UInt32
  sendWindow : UInt32
  recvWindow : UInt32
  synAckReceived : Bool
  closed : Bool
  readBuffer : Bytes
  readBufferPos : Nat
deriving Repr, DecidableEq

def StreamContext.unread (ctx : StreamContext) : Bytes := ctx.readBuffer.drop ctx.readBufferPos

def Session.queued (session : Session) : List UInt32 :=
  session.pendingInbound.map PendingInbound.streamId

def readFull (len : Nat) : Code (Option Bytes) := readExactly len

def sendHeader (type : UInt8) (flags : UInt16) (streamId length : UInt32) : Code Bool := do
  let hdr : Header := ⟨version, type, flags, streamId, length⟩
  let ret ← send hdr.encode
  if ret = headerSize then do
    note (.emitted hdr)
    pure true
  else do
    note (.refused hdr)
    pure false

def readHeader : Code (Option Header) := do
  match ← readFull headerSize with
  | none => pure none
  | some bytes => pure (Header.decode bytes)

/-- How every pass of a frame loop begins: read a header or leave with `fallback`, note it, dispatch. -/
def onHeader {α : Type} (fallback : α) (mark : Header → Note) (frame : Header → Code α) : Code α := do
  match ← readHeader with
  | none => pure fallback
  | some hdr => do
      note (mark hdr)
      frame hdr

def sendPingResponse (value : UInt32) : Code Bool := sendHeader typePing flagAck 0 value

def pendingAdd (session : Session) (streamId : UInt32) : Session :=
  { session with pendingInbound := ⟨streamId, []⟩ :: session.pendingInbound }

def pendingExists (session : Session) (streamId : UInt32) : Bool :=
  session.pendingInbound.any fun pending => pending.streamId == streamId

/-- Append to the buffer of the first queued stream with this id. -/
def bufferFirst (streamId : UInt32) (data : Bytes) : List PendingInbound → List PendingInbound
  | [] => []
  | pending :: rest =>
      if pending.streamId = streamId then { pending with data := pending.data ++ data } :: rest
      else pending :: bufferFirst streamId data rest

def pendingBuffer (session : Session) (streamId : UInt32) (data : Bytes) : Session :=
  { session with pendingInbound := bufferFirst streamId data session.pendingInbound }

def handleControlFrame (session : Session) (hdr : Header) : Code (Bool × Session) :=
  if hdr.type = typePing then
    if hdr.has flagAck then pure (true, session)
    else do
      let ok ← sendPingResponse hdr.length
      pure (ok, session)
  else if hdr.type = typeGoAway then do
    shut
    pure (false, { session with closed := true })
  else pure (true, session)

/-- `unsigned char discard[1024]`. -/
def discardSize : Nat := 1024

def discardLoop : (fuel remaining : Nat) → Code Bool
  | _, 0 => pure true
  | 0, _ + 1 => pure false
  | fuel + 1, remaining + 1 => do
      let chunk := min (remaining + 1) discardSize
      match ← readFull chunk with
      | none => pure false
      | some _ => discardLoop fuel (remaining + 1 - chunk)

def discardPayload (length : UInt32) : Code Bool := discardLoop length.toNat length.toNat

def streamWrite (session : Session) (ctx : StreamContext) (buf : Bytes) :
    Code (Int × StreamContext) :=
  if session.closed || ctx.closed then pure (-1, ctx)
  else
    let count := min (min buf.length maxPayload) ctx.sendWindow.toNat
    if count = 0 then pure (-1, ctx)
    else do
      let length := UInt32.ofNat count
      if ← sendHeader typeData 0 ctx.streamId length then do
        note (.announced ctx.handle length)
        let ret ← send (buf.take count)
        note (.payload ctx.handle length ret)
        if ret ≠ count then pure (-1, ctx)
        else pure (count, { ctx with sendWindow := ctx.sendWindow - length })
      else pure (-1, ctx)

/-! ### Reading -/

/-- The result of `yamux_stream_read`: `none` is -1, otherwise the bytes copied to the caller. -/
abbrev ReadResult := Option Bytes × Session × StreamContext

/-- The payload of a DATA frame for this stream has arrived: account for it, replenish the window
when half of it is used, and hand the first `count` bytes over. -/
def takePayload (count : Nat) (session : Session) (ctx : StreamContext) (fin : Bool)
    (payload : Bytes) (length : UInt32) : Code ReadResult := do
  let recvWindow := if length ≤ ctx.recvWindow then ctx.recvWindow - length else 0
  let increment := initialWindowSize - recvWindow
  let sent ←
    if windowUpdateThreshold ≤ increment then
      sendHeader typeWindowUpdate 0 ctx.streamId increment
    else pure false
  pure (some (payload.take count), session, { ctx with
    recvWindow := if sent then recvWindow + increment else recvWindow
    closed := ctx.closed || fin
    readBuffer := payload
    readBufferPos := min count length.toNat })

/-- What `yamux_stream_read` does with one header. -/
def readFrame (count : Nat) (session : Session) (ctx : StreamContext) (hdr : Header) :
    Code ((Session × StreamContext) ⊕ ReadResult) :=
  if hdr.version ≠ version then pure (.inr (none, session, ctx))
  else if hdr.type = typePing ∨ hdr.type = typeGoAway then do
    let (ok, session) ← handleControlFrame session hdr
    if ok then pure (.inl (session, ctx)) else pure (.inr (none, session, ctx))
  else if hdr.type = typeWindowUpdate then
    if hdr.streamId = ctx.streamId then
      pure (.inl (session, { ctx with
        sendWindow := ctx.sendWindow + hdr.length
        synAckReceived := ctx.synAckReceived || hdr.has flagAck }))
    else pure (.inl (session, ctx))
  else if hdr.type ≠ typeData then do
    if ← discardPayload hdr.length then pure (.inl (session, ctx))
    else pure (.inr (none, session, ctx))
  else if hdr.streamId ≠ ctx.streamId then
    if pendingExists session hdr.streamId ∧ 0 < hdr.length then do
      let _ ← sendHeader typeWindowUpdate 0 hdr.streamId hdr.length
      match ← readFull hdr.length.toNat with
      | some data => pure (.inl (pendingBuffer session hdr.streamId data, ctx))
      | none => do
          note (.truncated hdr)
          if ← discardPayload hdr.length then pure (.inl (session, ctx))
          else pure (.inr (none, session, ctx))
    else do
      if ← discardPayload hdr.length then pure (.inl (session, ctx))
      else pure (.inr (none, session, ctx))
  else if hdr.length = 0 then
    if hdr.has flagFin then pure (.inr (some [], session, { ctx with closed := true }))
    else pure (.inl (session, ctx))
  else do
    match ← readFull hdr.length.toNat with
    | none => do
        note (.truncated hdr)
        pure (.inr (none, session, ctx))
    | some payload => do
        let result ← takePayload count session ctx (hdr.has flagFin) payload hdr.length
        pure (.inr result)

/-- One pass of the loop of `yamux_stream_read`. -/
def readTurn (count : Nat) : Session × StreamContext →
    Code ((Session × StreamContext) ⊕ ReadResult)
  | (session, ctx) =>
      if session.closed || ctx.closed then pure (.inr (none, session, ctx))
      else if ctx.readBufferPos < ctx.readBuffer.length then
        let served := ctx.unread.take count
        pure (.inr (some served, session, { ctx with
          readBufferPos := ctx.readBufferPos + served.length }))
      else onHeader (.inr (none, session, ctx))
        (.received (.read ctx.handle ctx.streamId) session.queued) (readFrame count session ctx)

/-- `yamux_stream_read` with at most `fuel` passes of its loop. -/
def streamRead (fuel : Nat) (session : Session) (ctx : StreamContext) (count : Nat) :
    Code ReadResult := do
  match ← iterate (readTurn count) fuel (session, ctx) with
  | .inl (session, ctx) => pure (none, session, ctx)
  | .inr result => pure result

def streamClose (session : Session) (ctx : StreamContext) : Code Unit :=
  if !ctx.closed && !session.closed then do
    let _ ← sendHeader typeData flagFin ctx.streamId 0
    pure ()
  else pure ()

def sessionNew (isServer : Bool) : Session :=
  { nextStreamId := if isServer then 2 else 1
    isServer := isServer
    closed := false
    pingSeq := 1
    pendingInbound := [] }

/-! ### Opening, accepting, pinging -/

/-- The context `libp2p_yamux_stream_open` and `libp2p_yamux_stream_accept` start from. -/
def newContext (handle : Nat) (streamId : UInt32) (synAckReceived : Bool) (readBuffer : Bytes) :
    StreamContext :=
  { handle, streamId, synAckReceived, readBuffer
    sendWindow := initialWindowSize
    recvWindow := initialWindowSize
    closed := false
    readBufferPos := 0 }

abbrev OpenResult := Option StreamContext × Session

/-- What `libp2p_yamux_stream_open` does with one header while it waits for its ACK. -/
def openFrame (session : Session) (ctx : StreamContext) (hdr : Header) :
    Code ((Session × StreamContext) ⊕ OpenResult) :=
  if hdr.type = typePing ∨ hdr.type = typeGoAway then do
    let (ok, session) ← handleControlFrame session hdr
    if ok then pure (.inl (session, ctx)) else pure (.inr (none, session))
  else if hdr.type = typeWindowUpdate ∧ hdr.streamId = ctx.streamId then
    let ctx := { ctx with sendWindow := ctx.sendWindow + hdr.length }
    if hdr.has flagAck then pure (.inr (some { ctx with synAckReceived := true }, session))
    else pure (.inl (session, ctx))
  else if hdr.opensStream then
    if pendingExists session hdr.streamId then pure (.inl (session, ctx))
    else do
      let _ ← sendHeader typeWindowUpdate flagAck hdr.streamId 0
      let session := pendingAdd session hdr.streamId
      if hdr.type = typeData ∧ 0 < hdr.length then do
        match ← readFull hdr.length.toNat with
        | some data => pure (.inl (pendingBuffer session hdr.streamId data, ctx))
        | none => do
            note (.truncated hdr)
            pure (.inl (session, ctx))
      else pure (.inl (session, ctx))
  else if hdr.type = typeData ∧ pendingExists session hdr.streamId then
    if 0 < hdr.length then do
      match ← readFull hdr.length.toNat with
      | some data => pure (.inl (pendingBuffer session hdr.streamId data, ctx))
      | none => do
          note (.truncated hdr)
          pure (.inl (session, ctx))
    else pure (.inl (session, ctx))
  else do
    if ← discardPayload hdr.length then pure (.inl (session, ctx))
    else pure (.inr (none, session))

def openTurn : Session × StreamContext → Code ((Session × StreamContext) ⊕ OpenResult)
  | (session, ctx) => onHeader (.inr (none, session))
      (.received (.open ctx.handle ctx.streamId) session.queued) (openFrame session ctx)

/-- `libp2p_yamux_stream_open`; `handle` is the address the new context gets. -/
def streamOpen (fuel : Nat) (session : Session) (handle : Nat) : Code OpenResult :=
  if session.closed then pure (none, session)
  else do
    let ctx := newContext handle session.nextStreamId false []
    let session := { session with nextStreamId := session.nextStreamId + 2 }
    if ← sendHeader typeWindowUpdate flagSyn ctx.streamId 0 then do
      match ← iterate openTurn fuel (session, ctx) with
      | .inl (session, _) => pure (none, session)
      | .inr result => pure result
    else pure (none, session)

/-- What `yamux_wait_for_syn` does with one header. -/
def synFrame (session : Session) (hdr : Header) : Code (Session ⊕ (Option Header × Session)) :=
  if hdr.type = typePing ∨ hdr.type = typeGoAway then do
    let (ok, session) ← handleControlFrame session hdr
    if ok then pure (.inl session) else pure (.inr (none, session))
  else if hdr.opensStream then pure (.inr (some hdr, session))
  else do
    if ← discardPayload hdr.length then pure (.inl session) else pure (.inr (none, session))

def synTurn (session : Session) : Code (Session ⊕ (Option Header × Session)) :=
  onHeader (.inr (none, session)) (.received .accept session.queued) (synFrame session)

def waitForSyn (fuel : Nat) (session : Session) : Code (Option Header × Session) := do
  match ← iterate synTurn fuel session with
  | .inl session => pure (none, session)
  | .inr result => pure result

/-- Acknowledge an accepted stream; a stream whose ACK cannot be sent is closed again. -/
def acknowledge (session : Session) (ctx : StreamContext) : Code OpenResult := do
  if ← sendHeader typeWindowUpdate flagAck ctx.streamId 0 then pure (some ctx, session)
  else do
    streamClose session ctx
    pure (none, session)

def streamAccept (fuel : Nat) (session : Session) (handle : Nat) : Code OpenResult :=
  if session.closed then pure (none, session)
  else match session.pendingInbound with
    | pending :: rest =>
        acknowledge { session with pendingInbound := rest }
          (newContext handle pending.streamId true pending.data)
    | [] => do
        match ← waitForSyn fuel session with
        | (none, session) => pure (none, session)
        | (some hdr, session) =>
            if hdr.type = typeData ∧ 0 < hdr.length then do
              match ← readFull hdr.length.toNat with
              | none => do
                  note (.truncated hdr)
                  pure (none, session)
              | some data => acknowledge session (newContext handle hdr.streamId true data)
            else acknowledge session (newContext handle hdr.streamId true [])

/-- What `libp2p_yamux_session_ping` does with one header while it waits for the pong `value`. -/
def pingFrame (value : UInt32) (session : Session) (hdr : Header) :
    Code (Session ⊕ (Bool × Session)) :=
  if hdr.type = typePing ∧ hdr.has flagAck ∧ hdr.length = value then pure (.inr (true, session))
  else do
    let (ok, session) ← handleControlFrame session hdr
    if ok then do
      if ← discardPayload hdr.length then pure (.inl session) else pure (.inr (false, session))
    else pure (.inr (false, session))

def pingTurn (value : UInt32) (session : Session) : Code (Session ⊕ (Bool × Session)) :=
  onHeader (.inr (false, session)) (.received (.ping value) session.queued) (pingFrame value session)

def sessionPing (fuel : Nat) (session : Session) : Code (Bool × Session) :=
  if session.closed then pure (false, session)
  else do
    let value := session.pingSeq
    let session := { session with pingSeq := session.pingSeq + 1 }
    if ← sendHeader typePing 0 0 value then do
      match ← iterate (pingTurn value) fuel session with
      | .inl session => pure (false, session)
      | .inr result => pure result
    else pure (false, session)

def sessionGoaway (session : Session) (code : UInt32) : Code Session :=
  if session.closed then pure session
  else do
    let _ ← sendHeader typeGoAway 0 0 code
    shut
    pure { session with closed := true }

/-! ### A session with its streams -/

/-- A session, the streams it returned so far by handle (`none` for those that failed or were
closed), and the underlying stream. -/
structure Node where
  session : Session
  streams : List (Option StreamContext)
  wire : Wire
deriving Repr, DecidableEq

inductive Call where
  | open
  | accept
  | read (handle count : Nat)
  | write (handle : Nat) (buf : Bytes)
  | close (handle : Nat)
  | ping
  | goaway (code : UInt32)
deriving Repr, DecidableEq

/-- What a call returns to its caller; the id is that of the stream concerned. -/
inductive Reply where
  | opened (streamId : Option UInt32)
  | accepted (streamId : Option UInt32)
  | bytes (streamId : UInt32) (ret : Option Bytes)
  | wrote (streamId : UInt32) (ret : Int)
  | pinged (ok : Bool)
  | void
deriving Repr, DecidableEq

def Node.context (node : Node) (handle : Nat) : Option StreamContext :=
  (node.streams[handle]?).join

/-- Every pass of a loop reads a whole header, so this many passes are enough. -/
def Node.fuel (node : Node) : Nat := node.wire.inbound.length + 1

def Node.step (node : Node) : Call → Node × Reply
  | .open =>
      let ((ctx, session), wire) :=
        (streamOpen node.fuel node.session node.streams.length).run node.wire
      (⟨session, node.streams ++ [ctx], wire⟩, .opened (ctx.map StreamContext.streamId))
  | .accept =>
      let ((ctx, session), wire) :=
        (streamAccept node.fuel node.session node.streams.length).run node.wire
      (⟨session, node.streams ++ [ctx], wire⟩, .accepted (ctx.map StreamContext.streamId))
  | .read handle count =>
      match node.context handle with
      | none => (node, .void)
      | some ctx =>
          let ((ret, session, ctx'), wire) :=
            (streamRead node.fuel node.session ctx count).run node.wire
          (⟨session, node.streams.set handle (some ctx'), wire⟩, .bytes ctx.streamId ret)
  | .write handle buf =>
      match node.context handle with
      | none => (node, .void)
      | some ctx =>
          let ((ret, ctx'), wire) := (streamWrite node.session ctx buf).run node.wire
          (⟨node.session, node.streams.set handle (some ctx'), wire⟩, .wrote ctx.streamId ret)
  | .close handle =>
      match node.context handle with
      | none => (node, .void)
      | some ctx =>
          let ((), wire) := (streamClose node.session ctx).run node.wire
          (⟨node.session, node.streams.set handle none, wire⟩, .void)
  | .ping =>
      let ((ok, session), wire) := (sessionPing node.fuel node.session).run node.wire
      (⟨session, node.streams, wire⟩, .pinged ok)
  | .goaway code =>
      let (session, wire) := (sessionGoaway node.session code).run node.wire
      (⟨session, node.streams, wire⟩, .void)

/-- A whole run: the calls in order, with what each of them returned. -/
def Node.run (node : Node) : List Call → Node × List Reply
  | [] => (node, [])
  | call :: calls =>
      let (node', reply) := node.step call
      let (final, replies) := node'.run calls
      (final, reply :: replies)

/-- A new session over a stream on which nothing has happened. -/
def Node.start (isServer : Bool) (inbound : Bytes) (grants : List Nat)
    (outcomes : List WriteOutcome) : Node :=
  ⟨sessionNew isServer, [], Duplex.Wire.fresh inbound grants outcomes []⟩

/-- The notes of a run, in order. -/
def Node.notes (node : Node) : List Note := node.wire.asked.map Prod.fst

end CLibp2p.Yamux
