import CLibp2p.Protobuf
import CLibp2p.YamuxV1.Stream

/-!
# The session of `yamux/session.c` and `yamux/yamux.c`

Writing through the multiplexer, decoding what comes in, and reading from the parent stream. A new
inbound stream is answered with the multistream header of `net/multistream.c`.
-/

namespace CLibp2p.YamuxV1

open Duplex

/-- `yamux_session_new` in the context that `libp2p_yamux_stream_new` makes. -/
def sessionNew (acceptBacklog : Nat) (amServer : Bool) : Context :=
  { amServer, state := .inited, acceptBacklog, numStreams := 0, streams := [],
    nextid := if amServer then 2 else 1, closed := false, pongFn := false, channels := [],
    outcomes := [], sent := [], headers := [], marshalled := [], fault := false }

def getNextId (ctx : Context) : UInt32 × Context :=
  let nextId :=
    if (ctx.amServer ∧ ctx.nextid % 2 = 1) ∨ (!ctx.amServer ∧ ctx.nextid % 2 = 0) then ctx.nextid + 1
    else ctx.nextid
  (nextId, { ctx with nextid := nextId + 1 })

/-- The end of `libp2p_yamux_write`: the message goes out behind a DATA header. -/
def writeData (env : Env) (ctx : Context) (flags : UInt16) (id : UInt32) (message : Bytes) :
    Bool × Context :=
  sendEncoded env ctx ⟨yamuxVersion, frameData, flags, id, UInt32.ofNat message.length⟩ message

/-- `libp2p_yamux_write` on the `YamuxContext`. -/
def yamuxWriteSession (env : Env) (ctx : Context) (message : Bytes) : Bool × Context :=
  if ctx.state ≠ .est then ctx.parentWrite message
  else
    let (flags, ctx) := getFlagsSession ctx
    let (id, ctx) := getNextId ctx
    writeData env ctx flags id message

/-- `libp2p_yamux_write` on a channel. -/
def yamuxWrite (env : Env) (ctx : Context) (c : Nat) (message : Bytes) : Bool × Context :=
  match ctx.channels[c]? with
  | none => (false, ctx)
  | some channel =>
      if ctx.state ≠ .est then ctx.parentWrite message
      else
        let (opened, ctx) :=
          if channel.state = .inited then
            let (ret, ctx) := streamWindowUpdate env ctx c defaultWindow
            (decide (0 < ret), ctx)
          else (true, ctx)
        if opened then
          let (flags, ctx) := getFlags ctx c
          writeData env ctx flags channel.channel message
        else (false, ctx)

/-- `libp2p_yamux_handle_upgrade` on a channel: the new stream sits on the channel's own. -/
def handleUpgrade (ctx : Context) (c : Nat) : Bool × Context :=
  match ctx.channels[c]? with
  | none => (false, ctx)
  | some channel =>
      let ctx := ctx.modifyChannel c fun channel => { channel with child := true }
      match getSessionStream ctx channel.channel with
      | (none, ctx) => (false, ctx)
      | (some i, ctx) => (true, ctx.modifyStream i fun stream => { stream with channel := c })

/-- What `libp2p_net_multistream_negotiate` writes: its protocol id behind a varint. -/
def multistreamHeader : Bytes :=
  let id := "/multistream/1.0.0\n".toUTF8.toList
  varintEncode 12 id.length ++ id

/-- `libp2p_net_multistream_stream_new` on a channel. -/
def multistreamStreamNew (env : Env) (ctx : Context) (c : Nat) : Bool × Context :=
  yamuxWrite env (handleUpgrade ctx c).2 c multistreamHeader

/-- `libp2p_yamux_send_go_away`, on a channel or on the yamux stream. The parent of a channel's stream is
the yamux stream. -/
def sendGoAway (env : Env) (ctx : Context) (channel? : Option Nat) : Context :=
  let channel := channel?.bind (ctx.channels[·]?)
  let f : Frame :=
    ⟨0, frameGoAway, frameFin, (channel.map ChannelContext.channel).getD 0, 0⟩
  let bytes := (encodeFrame env.host f).image env.host
  let ctx := ctx.emit f bytes
  match channel with
  | none => (ctx.parentWrite bytes).2
  | some _ => (yamuxWriteSession env ctx bytes).2

def channelSendFin (env : Env) (ctx : Context) (c : Nat) : Context :=
  match ctx.channels[c]? with
  | none => ctx
  | some channel =>
      (sendEncoded env ctx ⟨0, frameWindowUpdate, frameFin, channel.channel, 0⟩ []).2

/-- `yamux_session_close`. The parent stream of the session is the yamux stream itself. -/
def sessionClose (env : Env) (ctx : Context) (err : UInt32) : Int × Context :=
  if ctx.closed then (0, ctx)
  else
    let f : Frame := ⟨yamuxVersion, frameGoAway, 0, 0, err⟩
    let ctx := { ctx with closed := true }
    let (ok, ctx) := yamuxWriteSession env (ctx.emit f (f.image env.host)) (f.image env.host)
    (if ok then Frame.size else 0, ctx)

def sessionPing (env : Env) (ctx : Context) (value : UInt32) (pong : Bool) : Int × Context :=
  if ctx.closed then (-einval, ctx)
  else if !env.clock then (-eacces, ctx)
  else
    let f : Frame := ⟨yamuxVersion, framePing, if pong then frameAck else frameSyn, 0, value⟩
    let (ok, ctx) := (ctx.emit f (f.image env.host)).parentWrite (f.image env.host)
    (if ok then Frame.size else 0, ctx)

/-- What an `int` holds after it was given `n`. -/
def asInt (n : Int) : Int := n.bmod (2 ^ 32)

def pullMessageFromFrame (incoming : Bytes) : Option Bytes :=
  if incoming.length ≤ Frame.size then none else some (incoming.drop Frame.size)

/-- `libp2p_yamux_get_parent_channel_context`, on the contexts of a stream and of those below it, where
only a channel context is there. It gives the null pointer at the channel context as well. -/
def getParentChannelContext : List (Option Nat) → Option Nat
  | [] => none
  | none :: below => getParentChannelContext below
  | some _ :: _ => none

/-- The part of `yamux_decode` for frames without a stream id. -/
def decodeSession (env : Env) (ctx : Context) (f : Frame) : Int × Context :=
  if f.type = framePing then
    if f.has frameSyn then (0, (sessionPing env ctx f.length true).2)
    else if f.has frameAck && ctx.pongFn then
      if env.clock then (0, ctx) else (-eacces, ctx)
    else (-eproto, ctx)
  else if f.type = frameGoAway then (0, { ctx with closed := true })
  else (-eproto, ctx)

/-- The flags of a frame for the stream in slot `i`; `none` is the error return. -/
def decodeFlags (env : Env) (ctx : Context) (i : Nat) (slot : SessionStream) (f : Frame) :
    Option Context :=
  if f.has frameRst then some (ctx.setStreamState i .closed)
  else if f.has frameFin then
    let child := (ctx.channels[slot.stream.channel]?.map ChannelContext.child).getD false
    let chain := if child then [none, some slot.stream.channel] else [some slot.stream.channel]
    let ctx := if slot.stream.state ≠ .closing then
        match getParentChannelContext chain with
        | none => ctx
        | some c => (streamClose env ctx c).2
      else ctx
    some (ctx.setStreamState i .closed)
  else if f.has frameAck then
    if slot.stream.state ≠ .synSent then none else some (ctx.setStreamState i .est)
  else if f.flags ≠ 0 then none
  else some ctx

/-- The part of `yamux_decode` for a frame of the stream in slot `i`. -/
def decodeStream (env : Env) (ctx : Context) (i : Nat) (f : Frame) (incoming : Bytes) :
    Int × Context :=
  match ctx.streams[i]? with
  | none => (-eproto, ctx)
  | some slot =>
      match decodeFlags env ctx i slot f with
      | none => (-eproto, ctx)
      | some ctx =>
          let (re, ctx) := streamProcess env ctx i f (incoming.drop Frame.size)
          (if re < 0 then re else asInt (re + incoming.length), ctx)

/-- Whether an inbound stream may have this id: odd ids are the client's, even ids the server's. -/
def inboundParity (ctx : Context) (id : UInt32) : Bool :=
  (id % 2 = 0 && !ctx.amServer) || (id % 2 = 1 && ctx.amServer)

/-- What `yamux_decode` does with a new inbound stream once it has its channel `c`. -/
def acceptStream (env : Env) (ctx : Context) (c : Nat) (f : Frame) (incoming : Bytes) :
    Int × Context :=
  match getSessionStream ctx f.streamid with
  | (none, ctx) => (-eproto, ctx)
  | (some i, ctx) =>
      let ctx := ctx.modifyStream i fun stream => { stream with state := .synRecv, windowSize := 0 }
      let ctx := (streamProcess env ctx i f (incoming.drop Frame.size)).2
      let ctx := ctx.setChannelState c .synRecv
      let ctx := if f.type = frameWindowUpdate then
          let window := (ctx.streams[i]?.map fun slot => slot.stream.windowSize).getD 0
          (streamWindowUpdate env ctx c window).2
        else ctx
      (0, (multistreamStreamNew env ctx c).2)

/-- The part of `yamux_decode` for a frame whose stream is not in the table. -/
def decodeNew (env : Env) (ctx : Context) (f : Frame) (incoming : Bytes) :
    Int × Option Bytes × Context :=
  if f.has frameSyn then
    let message := pullMessageFromFrame incoming
    if inboundParity ctx f.streamid then
      match channelNew ctx f.streamid with
      | (none, ctx) => (-eproto, message, ctx)
      | (some c, ctx) =>
          let (ret, ctx) := acceptStream env ctx c f incoming
          (ret, message, ctx)
    else (0, message, ctx)
  else (-eproto, none, ctx)

/-- The loop of `yamux_decode` over the table, which skips dead and closed streams. -/
def findStream (ctx : Context) (id : UInt32) : Option Nat × Context :=
  ctx.firstSlot SessionStream.alive fun slot =>
    slot.alive && slot.stream.state != .closed && slot.stream.id == id

/-- `yamux_decode`, with the message it returns. -/
def decode (env : Env) (ctx : Context) (incoming : Bytes) : Int × Option Bytes × Context :=
  match Frame.read env.host incoming with
  | none => (0, none, ctx)
  | some f =>
      if f.version ≠ yamuxVersion then (0, none, ctx)
      else if f.streamid = 0 then
        let (ret, ctx) := decodeSession env ctx f
        (ret, none, ctx)
      else
        match findStream ctx f.streamid with
        | (some i, ctx) =>
            let (ret, ctx) := decodeStream env ctx i f incoming
            (ret, none, ctx)
        | (none, ctx) => decodeNew env ctx f incoming

/-- `yamux_handle_message` when the session is there already: the peer sent its protocol id. -/
def handleMessage (ctx : Context) : Int × Context :=
  if ctx.state = .est then (-1, ctx) else (1, { ctx with state := .est })

/-! ### Reading from the parent stream -/

/-- The stream under yamux as its reader sees it: the bytes to come, and how many of them each coming
`read` returns. `read_raw` returns as many as it was asked for while there are any. -/
structure Parent where
  inbound : Bytes
  cuts : List Nat
deriving Repr, DecidableEq

def Parent.read (parent : Parent) : Bytes × Parent :=
  match parent.cuts with
  | [] => ([], parent)
  | cut :: cuts => (parent.inbound.take cut, ⟨parent.inbound.drop cut, cuts⟩)

def Parent.readRaw (parent : Parent) (n : Nat) : Bytes × Parent :=
  (parent.inbound.take n, { parent with inbound := parent.inbound.drop n })

def moreToRead (env : Env) (incoming : Bytes) : Int :=
  match Frame.read env.host incoming with
  | none => 0
  | some f =>
      if f.type = frameData then asInt (f.length.toNat - (incoming.length - Frame.size)) else 0

def yamuxProtocol : Bytes := "/yamux/1.0.0".toUTF8.toList

/-- `libp2p_yamux_read` on the `YamuxContext`. An empty message stands for a failed read. -/
def yamuxRead (env : Env) (ctx : Context) (parent : Parent) :
    Bool × Option Bytes × Context × Parent :=
  let (incoming, parent) := parent.read
  if incoming = [] then (false, none, ctx, parent)
  else if ctx.state ≠ .est then
    if yamuxProtocol <:+: incoming.takeWhile (· ≠ 0) then
      (false, none, { ctx with state := .est }, parent)
    else (true, some incoming, ctx, parent)
  else
    let more := moreToRead env incoming
    let (rest, parent) := if 0 < more then parent.readRaw more.toNat else ([], parent)
    if 0 < more ∧ (rest.length : Int) ≠ more then (false, none, ctx, parent)
    else
      match decode env ctx (incoming ++ rest) with
      | (ret, message, ctx) =>
          if ret < 0 then (false, message, ctx, parent)
          else if message = some [] then (false, none, ctx, parent)
          else (true, message, ctx, parent)

end CLibp2p.YamuxV1
