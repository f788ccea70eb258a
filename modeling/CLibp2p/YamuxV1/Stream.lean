import CLibp2p.YamuxV1.Frame

/-!
# The streams of `yamux/stream.c`

A `YamuxContext` owns one `yamux_session`, and both are one record here. A stream of the session is
kept twice: as a slot of `session->streams`, and as the `YamuxChannelContext` that its protocol talks
to. Addresses are positions: a slot in the table, a channel context in the list of all that were made.
Allocations succeed, and a pointer that is in neither list is a null pointer. Functions keep their
names, less the prefix.
-/

namespace CLibp2p.YamuxV1

open Duplex

inductive StreamState where
  | inited
  | synSent
  | synRecv
  | est
  | closing
  | closed
deriving Repr, DecidableEq

def defaultWindow : UInt32 := 0x100 * 0x400

def eacces : Int := 13
def einval : Int := 22
def eproto : Int := 71

/-- `struct yamux_stream`. `channel` is the channel context that the walk from `stream` down to the
nearest yamux stream ends at; the callbacks are never set. -/
structure YamuxStream where
  id : UInt32
  state : StreamState
  windowSize : UInt32
  channel : Nat
deriving Repr, DecidableEq

/-- `struct yamux_session_stream`. `freed` says that the block `stream` points to was given back to the
allocator; what it held last stays here. -/
structure SessionStream where
  stream : YamuxStream
  alive : Bool
  freed : Bool
deriving Repr, DecidableEq

/-- `struct YamuxChannelContext`. `child` says whether there is a `child_stream`. -/
structure ChannelContext where
  channel : UInt32
  state : StreamState
  closed : Bool
  windowSize : UInt32
  buffer : Bytes
  child : Bool
deriving Repr, DecidableEq

/-- `struct YamuxContext` with its `struct yamux_session`. `streams` holds the slots below
`cap_streams`. `outcomes` is what the coming writes of the parent stream return, where none left means
success, and `sent` the messages it took. The last three fields record a run and are never looked at:
each header an operation set with the bytes it wrote for it, each message handed to a protocol handler,
and whether a freed block was used. -/
structure Context where
  amServer : Bool
  state : StreamState
  acceptBacklog : Nat
  numStreams : Nat
  streams : List SessionStream
  nextid : UInt32
  closed : Bool
  pongFn : Bool
  channels : List ChannelContext
  outcomes : List Bool
  sent : List Bytes
  headers : List (Frame × Bytes)
  marshalled : List (Nat × Bytes)
  fault : Bool
deriving Repr, DecidableEq

/-- What the session does not decide: the byte order of the host, whether a registered handler accepts a
message (`libp2p_protocol_is_valid_protocol`), and whether `timespec_get` succeeds. -/
structure Env where
  host : Endian
  accepts : Bytes → Bool
  clock : Bool

namespace Context

/-- Change the stream in slot `i`. -/
def modifyStream (ctx : Context) (i : Nat) (change : YamuxStream → YamuxStream) : Context :=
  { ctx with streams := ctx.streams.modify i fun slot => { slot with stream := change slot.stream } }

def setStreamState (ctx : Context) (i : Nat) (state : StreamState) : Context :=
  ctx.modifyStream i fun stream => { stream with state }

def modifyChannel (ctx : Context) (c : Nat) (change : ChannelContext → ChannelContext) : Context :=
  { ctx with channels := ctx.channels.modify c change }

def setChannelState (ctx : Context) (c : Nat) (state : StreamState) : Context :=
  ctx.modifyChannel c fun channel => { channel with state }

def setBuffer (ctx : Context) (c : Nat) (buffer : Bytes) : Context :=
  ctx.modifyChannel c fun channel => { channel with buffer }

/-- `libp2p_protocol_marshal`: the message goes to the handler that accepts it. -/
def marshal (ctx : Context) (c : Nat) (message : Bytes) : Context :=
  { ctx with marshalled := ctx.marshalled ++ [(c, message)] }

/-- `parent_stream->write` of the stream under yamux. -/
def parentWrite (ctx : Context) (message : Bytes) : Bool × Context :=
  let ok := ctx.outcomes.headD true
  (ok, { ctx with
    outcomes := ctx.outcomes.tail
    sent := if ok then ctx.sent ++ [message] else ctx.sent })

/-- Record that an operation set the header `f` and wrote `bytes` for it. -/
def emit (ctx : Context) (f : Frame) (bytes : Bytes) : Context :=
  { ctx with headers := ctx.headers ++ [(f, bytes)] }

/-- The first slot that `match?` holds of, where looking at a slot reads its block when `reads` does. -/
def firstSlot (ctx : Context) (reads match? : SessionStream → Bool) : Option Nat × Context :=
  let found := ctx.streams.findIdx? match?
  let visited := match found with
    | some i => ctx.streams.take (i + 1)
    | none => ctx.streams
  (found, { ctx with fault := ctx.fault || visited.any fun slot => slot.freed && reads slot })

end Context

def getSessionStream (ctx : Context) (channel : UInt32) : Option Nat × Context :=
  ctx.firstSlot (fun _ => true) fun slot => slot.stream.id == channel

/-- The second half of `yamux_stream_init` and `get_flags`: the slot with the id of the channel gets the
state that the channel got. -/
def setSlotState (ctx : Context) (id : UInt32) (state : StreamState) : Context :=
  match getSessionStream ctx id with
  | (some i, ctx) => ctx.setStreamState i state
  | (none, ctx) => ctx

/-- `libp2p_yamux_channel_stream_new`, where `wraps` says whether it was given a stream of another protocol,
which becomes the child of the channel. -/
def channelStreamNew (ctx : Context) (id : UInt32) (wraps : Bool) : Nat × Context :=
  (ctx.channels.length, { ctx with channels := ctx.channels ++
    [{ channel := id, state := .inited, closed := false, windowSize := 0, buffer := [],
       child := wraps }] })

/-- What `yamux_channel_new` writes into the block of a slot. -/
def newStream (id : UInt32) (channel : Nat) : YamuxStream :=
  { id, state := .inited, windowSize := defaultWindow, channel }

/-- The id of a new channel: the one that was asked for, or the next one for 0. -/
def pickId (ctx : Context) (id : UInt32) : UInt32 × Context :=
  if id = 0 then (ctx.nextid, { ctx with nextid := ctx.nextid + 2 }) else (id, ctx)

/-- The slot that `yamux_channel_new` uses again. While the counts agree it looks for none. -/
def deadSlot (ctx : Context) : Option Nat :=
  if ctx.numStreams ≠ ctx.streams.length then ctx.streams.findIdx? fun slot => !slot.alive else none

/-- A new channel in slot `i`, written into the block that the slot points to. -/
def reuseSlot (ctx : Context) (i : Nat) (id : UInt32) : Nat × Context :=
  let (channel, ctx) := channelStreamNew ctx id false
  (channel, { ctx with
    streams := ctx.streams.modify i fun slot =>
      { slot with stream := newStream id channel, alive := true }
    numStreams := ctx.numStreams + 1
    fault := ctx.fault || (ctx.streams[i]?.map SessionStream.freed).getD false })

/-- A new channel in one more slot, with a block of its own. -/
def appendSlot (ctx : Context) (id : UInt32) : Nat × Context :=
  let (channel, ctx) := channelStreamNew ctx id false
  (channel, { ctx with
    streams := ctx.streams ++ [{ stream := newStream id channel, alive := true, freed := false }]
    numStreams := ctx.numStreams + 1 })

/-- `yamux_channel_new`, which gives the channel context of the new stream. A slot from `cap_streams` on
is never alive, so the check of the one that is appended always passes. -/
def channelNew (ctx : Context) (id : UInt32) : Option Nat × Context :=
  let (id, ctx) := pickId ctx id
  match deadSlot ctx with
  | some i =>
      let (channel, ctx) := reuseSlot ctx i id
      (some channel, ctx)
  | none =>
      if ctx.streams.length = ctx.acceptBacklog then (none, ctx)
      else
        let (channel, ctx) := appendSlot ctx id
        (some channel, ctx)

/-- `encode_frame`, and the header goes to the parent stream with what follows it in the message. -/
def sendEncoded (env : Env) (ctx : Context) (f : Frame) (data : Bytes) : Bool × Context :=
  let bytes := (encodeFrame env.host f).image env.host
  (ctx.emit f bytes).parentWrite (bytes ++ data)

/-- `yamux_write_frame`, which returns the bytes sent. -/
def writeFrame (env : Env) (ctx : Context) (f : Frame) : Int × Context :=
  let (ok, ctx) := sendEncoded env ctx f []
  (if ok then Frame.size else 0, ctx)

def streamInit (env : Env) (ctx : Context) (c : Nat) : Int × Context :=
  match ctx.channels[c]? with
  | none => (-einval, ctx)
  | some channel =>
      if channel.state ≠ .inited ∨ channel.closed then (-einval, ctx)
      else
        let ctx := setSlotState (ctx.setChannelState c .synSent) channel.channel .synSent
        writeFrame env ctx ⟨yamuxVersion, frameWindowUpdate, frameSyn, channel.channel, 0⟩

/-- `yamux_stream_close` of a channel; closing a null pointer does nothing. -/
def streamClose (env : Env) (ctx : Context) (c : Nat) : Int × Context :=
  match ctx.channels[c]? with
  | none => (0, ctx)
  | some channel =>
      if channel.state ≠ .est ∨ channel.closed then (-einval, ctx)
      else
        writeFrame env (ctx.setChannelState c .closing)
          ⟨yamuxVersion, frameWindowUpdate, frameFin, channel.channel, 0⟩

/-- `yamux_stream_close` of the `YamuxContext`. -/
def streamCloseSession (env : Env) (ctx : Context) : Int × Context :=
  writeFrame env ctx ⟨yamuxVersion, frameWindowUpdate, frameFin, 0, 0⟩

def streamReset (env : Env) (ctx : Context) (c : Nat) : Int × Context :=
  match ctx.channels[c]? with
  | none => (-einval, ctx)
  | some channel =>
      if channel.closed then (-einval, ctx)
      else
        writeFrame env (ctx.setChannelState c .closed)
          ⟨yamuxVersion, frameWindowUpdate, frameRst, channel.channel, 0⟩

/-- What `get_flags` answers for a state, and the state it moves to. -/
def nextFlags : StreamState → Option (UInt16 × StreamState)
  | .inited => some (frameSyn, .synSent)
  | .synRecv => some (frameAck, .est)
  | _ => none

/-- `get_flags` of a channel. -/
def getFlags (ctx : Context) (c : Nat) : UInt16 × Context :=
  match ctx.channels[c]? with
  | none => (0, ctx)
  | some channel =>
      match nextFlags channel.state with
      | none => (0, ctx)
      | some (flags, state) => (flags, setSlotState (ctx.setChannelState c state) channel.channel state)

/-- `get_flags` of the `YamuxContext`. -/
def getFlagsSession (ctx : Context) : UInt16 × Context :=
  match nextFlags ctx.state with
  | none => (0, ctx)
  | some (flags, state) => (flags, { ctx with state })

def streamWindowUpdate (env : Env) (ctx : Context) (c : Nat) (delta : UInt32) : Int × Context :=
  match ctx.channels[c]? with
  | none => (-einval, ctx)
  | some channel =>
      if channel.state = .closed ∨ channel.state = .closing ∨ channel.closed then (-einval, ctx)
      else
        let (flags, ctx) := getFlags ctx c
        writeFrame env ctx ⟨yamuxVersion, frameWindowUpdate, flags, channel.channel, delta⟩

/-- One round of the loop of `yamux_stream_write`. -/
def streamWriteRound (env : Env) (c : Nat) (id : UInt32) (ctx : Context) (data : Bytes) :
    Bool × Context :=
  let (flags, ctx) := getFlags ctx c
  sendEncoded env ctx ⟨yamuxVersion, frameData, flags, id, UInt32.ofNat data.length⟩ data

/-- How a call of `yamux_stream_write` stands after some rounds: what it returned, or the data that its loop
has still to send. -/
inductive WriteRun where
  | returned (value : Int)
  | looping (data : Bytes)
deriving Repr, DecidableEq

/-- At most `rounds` rounds, each sending at most `ws` bytes, of a call for `total` bytes. A refused frame
returns the size of its round. -/
def streamWriteLoop (env : Env) (c : Nat) (id : UInt32) (ws total : Nat) :
    (rounds : Nat) → Context → Bytes → WriteRun × Context
  | _, ctx, [] => (.returned total, ctx)
  | 0, ctx, byte :: rest => (.looping (byte :: rest), ctx)
  | rounds + 1, ctx, byte :: rest =>
      match streamWriteRound env c id ctx ((byte :: rest).take ws) with
      | (false, ctx) => (.returned (min (byte :: rest).length ws), ctx)
      | (true, ctx) => streamWriteLoop env c id ws total rounds ctx ((byte :: rest).drop ws)

/-- The first `rounds` rounds of `yamux_stream_write`. With a window of zero, which every channel
context has, a round sends no data and the loop goes on until the parent refuses a frame. -/
def streamWrite (env : Env) (ctx : Context) (c : Nat) (data : Bytes) (rounds : Nat) :
    WriteRun × Context :=
  match ctx.channels[c]? with
  | none => (.returned (-einval), ctx)
  | some channel =>
      if data = [] then (.returned (-einval), ctx)
      else
        streamWriteLoop env c channel.channel channel.windowSize.toNat data.length rounds ctx data

/-- `yamux_stream_free` of the stream in slot `i`. The slot that dies is the first live one with the
same id, and the block given back is the one of slot `i`. -/
def streamFree (ctx : Context) (i : Nat) : Context :=
  match ctx.streams[i]? with
  | none => ctx
  | some slot =>
      let id := slot.stream.id
      let ctx := { ctx with fault := ctx.fault || slot.freed }
      let (found, ctx) := ctx.firstSlot SessionStream.alive fun slot =>
        slot.alive && slot.stream.id == id
      let ctx := { ctx with streams := ctx.streams.modify i fun slot => { slot with freed := true } }
      match found with
      | none => ctx
      | some k =>
          let streams := ctx.streams.modify k fun slot => { slot with alive := false }
          { ctx with
            numStreams := ctx.numStreams - 1
            streams := if k = streams.length - 1 then streams.dropLast else streams }

/-- The end of `yamux_stream_process`: the bytes after the frame go into the buffer of the channel. A
message that a handler accepts leaves it again; the wake-up of a child's reader thread leaves no trace
here. -/
def channelReceive (env : Env) (ctx : Context) (i : Nat) (incoming : Bytes) : Int × Context :=
  if incoming.length = 0 then (0, ctx)
  else match ctx.streams[i]? with
    | none => (-eproto, ctx)
    | some slot =>
        let c := slot.stream.channel
        match ctx.channels[c]? with
        | none => (-eproto, ctx)
        | some channel =>
            let buffer := channel.buffer ++ incoming
            if !channel.child && env.accepts buffer then
              (incoming.length, (ctx.setBuffer c []).marshal c buffer)
            else (incoming.length, ctx.setBuffer c buffer)

/-- `yamux_stream_process` on the stream in slot `i`, with the bytes after the frame. A window update
falls through to the data case, which checks the length of DATA frames only. -/
def streamProcess (env : Env) (ctx : Context) (i : Nat) (f : Frame) (incoming : Bytes) :
    Int × Context :=
  if f.type = frameWindowUpdate then
    channelReceive env (ctx.modifyStream i fun stream =>
      { stream with windowSize := stream.windowSize + f.length }) i incoming
  else if f.type = frameData then
    if incoming.length ≠ f.length.toNat then (-1, ctx) else channelReceive env ctx i incoming
  else (-eproto, ctx)

end CLibp2p.YamuxV1
