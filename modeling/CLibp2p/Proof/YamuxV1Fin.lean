import CLibp2p.Proof.YamuxV1Backlog
import CLibp2p.Proof.YamuxV1Errors

/-!
# The answer to a FIN in a v1 session

A FIN closes the slot of its stream. The FIN that should go back is the business of `yamux_stream_close`
on the channel context, and the walk that looks for this context gives it up where it finds it: from no
stream, however many stand on the channel, does it return one.
-/

namespace CLibp2p.YamuxV1

open Duplex Machine

/-! ### Streams nested on a channel -/

/-- The streams from the one that the slot holds down to the channel stream. `above` of them stand on
the channel stream, which alone has a channel context. -/
def nesting (above c : Nat) : List (Option Nat) := List.replicate above none ++ [some c]

/-- The flags of a frame where `above` streams stand on the channel of the slot. -/
def decodeFlagsNested (env : Env) (ctx : Context) (above i : Nat) (slot : SessionStream) (f : Frame) :
    Option Context :=
  if !f.has frameRst && f.has frameFin then
    let ctx := if slot.stream.state ≠ .closing then
        match getParentChannelContext (nesting above slot.stream.channel) with
        | none => ctx
        | some c => (streamClose env ctx c).2
      else ctx
    some (ctx.setStreamState i .closed)
  else decodeFlags env ctx i slot f

def decodeStreamNested (env : Env) (ctx : Context) (above i : Nat) (f : Frame) (incoming : Bytes) :
    Int × Context :=
  match ctx.streams[i]? with
  | none => (-eproto, ctx)
  | some slot =>
      match decodeFlagsNested env ctx above i slot f with
      | none => (-eproto, ctx)
      | some ctx =>
          let (re, ctx) := streamProcess env ctx i f (incoming.drop Frame.size)
          (if re < 0 then re else asInt (re + incoming.length), ctx)

/-- `yamux_decode` where `above` streams stand on the channel of the frame's stream. -/
def decodeNested (env : Env) (ctx : Context) (above : Nat) (incoming : Bytes) :
    Int × Option Bytes × Context :=
  match Frame.read env.host incoming with
  | none => (0, none, ctx)
  | some f =>
      if f.version ≠ yamuxVersion then (0, none, ctx)
      else if f.streamid = 0 then
        let (ret, ctx) := decodeSession env ctx f
        (ret, none, ctx)
      else
        match findStream ctx f.streamid with
        | (some i, ctx) =>
            let (ret, ctx) := decodeStreamNested env ctx above i f incoming
            (ret, none, ctx)
        | (none, ctx) => decodeNew env ctx f incoming

theorem decodeFlagsNested_eq (env : Env) (ctx : Context) (above i : Nat) (slot : SessionStream)
    (f : Frame) : decodeFlagsNested env ctx above i slot f = decodeFlags env ctx i slot f := by
  unfold decodeFlagsNested
  by_cases hrst : f.has frameRst
  · simp [hrst]
  · by_cases hfin : f.has frameFin
    · simp [hrst, hfin, getParentChannelContext_eq_none, decodeFlags_eq]
    · simp [hfin]

theorem decodeStreamNested_eq (env : Env) (ctx : Context) (above i : Nat) (f : Frame)
    (incoming : Bytes) :
    decodeStreamNested env ctx above i f incoming = decodeStream env ctx i f incoming := by
  cases hslot : ctx.streams[i]? with
  | none => simp only [decodeStreamNested, decodeStream, hslot]
  | some slot =>
      have hnested := decodeFlagsNested_eq env ctx above i slot f
      cases hflags : decodeFlags env ctx i slot f with
      | none => simp only [decodeStreamNested, decodeStream, hslot, hnested, hflags]
      | some ctx' => simp only [decodeStreamNested, decodeStream, hslot, hnested, hflags]

/-- How many streams stand on a channel makes no difference. -/
theorem decodeNested_eq (env : Env) (ctx : Context) (above : Nat) (incoming : Bytes) :
    decodeNested env ctx above incoming = decode env ctx incoming := by
  cases hread : Frame.read env.host incoming with
  | none => simp only [decodeNested, decode, hread]
  | some f =>
      rcases hfind : findStream ctx f.streamid with ⟨_ | i, ctx'⟩
      · simp only [decodeNested, decode, hread, hfind]
      · simp only [decodeNested, decode, hread, hfind, decodeStreamNested_eq]

/-! ### What a FIN leaves behind -/

theorem stateAfter_fin {slot : SessionStream} {f : Frame} (hfin : f.has frameFin) :
    stateAfter slot f = .closed := if_pos (Or.inr hfin)

theorem channelsAfter_states (env : Env) (ctx : Context) (slot : SessionStream) (f : Frame)
    (payload : Bytes) :
    (channelsAfter env ctx slot f payload).map ChannelContext.state = ctx.channelStates := by
  unfold channelsAfter
  split
  · rename_i channel _
    exact map_modify_of_eq ChannelContext.state
      (fun other => { other with buffer := bufferAfter env channel payload }) (fun _ => rfl) _ _
  · rfl

theorem Addressed.decode_fin {env : Env} {ctx : Context} {incoming : Bytes} {f : Frame} {i : Nat}
    {slot : SessionStream} (haddressed : Addressed env ctx incoming f i slot)
    (hfin : f.has frameFin) :
    (decode env ctx incoming).2.2.headers = ctx.headers ∧
      (decode env ctx incoming).2.2.slotStates = ctx.slotStates.set i .closed ∧
      (decode env ctx incoming).2.2.channelStates = ctx.channelStates := by
  have hslot : (findStream ctx f.streamid).2.streams[i]? = some slot := haddressed.slot
  obtain ⟨marshalled, hdecode⟩ := decodeStream_eq env hslot (Or.inr (Or.inl hfin)) incoming
  rw [stateAfter_fin hfin] at hdecode
  have hslots : ((findStream ctx f.streamid).2.modifyStream i fun stream =>
      { stream with state := .closed, windowSize := windowAfter slot f }).slotStates =
        ctx.slotStates.set i .closed :=
    modifyStream_view YamuxStream.state (findStream ctx f.streamid).2 i fun _ => rfl
  rw [haddressed.decode_eq, hdecode]
  exact ⟨rfl, hslots, channelsAfter_states env _ slot f _⟩

/-! ### The reply -/

/-- The FIN headers for stream `id` that were set between two states. -/
def finsWritten (ctx ctx' : Context) (id : UInt32) : List (Frame × Bytes) :=
  (ctx'.headers.drop ctx.headers.length).filter fun entry =>
    entry.1.streamid == id && entry.1.has frameFin

/-- The local side has begun to close the stream. `yamux_stream_close` says so in the channel context. -/
def ClosesLocally (ctx : Context) (slot : SessionStream) : Prop :=
  slot.stream.state = .closing ∨ ctx.channelStates[slot.stream.channel]? = some .closing

/-- The stream is established, and the local side has neither begun to close it nor reset it. -/
def IsOpen (ctx : Context) (slot : SessionStream) : Prop :=
  slot.stream.state = .est ∧ ¬ClosesLocally ctx slot ∧
    ctx.channelStates[slot.stream.channel]? ≠ some .closed

instance (ctx : Context) (slot : SessionStream) : Decidable (ClosesLocally ctx slot) :=
  inferInstanceAs (Decidable (_ ∨ _))

instance (ctx : Context) (slot : SessionStream) : Decidable (IsOpen ctx slot) :=
  inferInstanceAs (Decidable (_ ∧ _))

/-- A FIN for the stream in slot `i` is answered: an open stream gets one FIN back and is established in
neither copy any more, and one that is being closed gets none. -/
structure AnswersFin (ctx : Context) (i : Nat) (slot : SessionStream) (f : Frame) (ctx' : Context) :
    Prop where
  replies : IsOpen ctx slot → (finsWritten ctx ctx' f.streamid).length = 1
  slotLeaves : IsOpen ctx slot → ctx'.slotStates[i]? ≠ some .est
  channelLeaves : IsOpen ctx slot → ctx'.channelStates[slot.stream.channel]? ≠ some .est
  silent : ClosesLocally ctx slot → finsWritten ctx ctx' f.streamid = []

theorem finsWritten_of_headers {ctx ctx' : Context} (hheaders : ctx'.headers = ctx.headers)
    (id : UInt32) : finsWritten ctx ctx' id = [] := by
  rw [finsWritten, hheaders, List.drop_length, List.filter_nil]

/-- **The answer to a FIN.** In every state and however the stream is nested, a FIN is answered as it
should be exactly when its stream is not open. -/
theorem answersFin_iff {env : Env} {ctx : Context} {incoming : Bytes} {f : Frame} {i : Nat}
    {slot : SessionStream} (haddressed : Addressed env ctx incoming f i slot) (hfin : f.has frameFin)
    (above : Nat) :
    AnswersFin ctx i slot f (decodeNested env ctx above incoming).2.2 ↔ ¬IsOpen ctx slot := by
  obtain ⟨hheaders, -, -⟩ := haddressed.decode_fin hfin
  have hnone := finsWritten_of_headers hheaders f.streamid
  rw [decodeNested_eq]
  constructor
  · intro hanswers hopen
    have hone := hanswers.replies hopen
    rw [hnone] at hone
    cases hone
  · intro hnot
    exact ⟨fun hopen => absurd hopen hnot, fun hopen => absurd hopen hnot,
      fun hopen => absurd hopen hnot, fun _ => hnone⟩

def finFrame (id : UInt32) : Frame := ⟨0, frameWindowUpdate, frameFin, id, 0⟩

/-- A server whose peer opened stream 1, after some calls. -/
def afterSyn (ops : List Op) : Context :=
  run (step ⟨.little, fun _ => false, true⟩) (sessionStart 256 true .est [])
    (.decode (synFrame 1).network :: ops)

/-- A FIN for a stream that the server is closing. -/
theorem answersFin_iff_closing :
    Addressed ⟨.little, fun _ => false, true⟩ (afterSyn [.streamClose 0]) (finFrame 1).network (finFrame 1) 0
        ⟨⟨1, .est, 0, 0⟩, true, false⟩ ∧ (finFrame 1).has frameFin ∧
      AnswersFin (afterSyn [.streamClose 0]) 0 ⟨⟨1, .est, 0, 0⟩, true, false⟩ (finFrame 1)
        (decodeNested ⟨.little, fun _ => false, true⟩ (afterSyn [.streamClose 0]) 1
          (finFrame 1).network).2.2 := by
  have haddressed : Addressed ⟨.little, fun _ => false, true⟩ (afterSyn [.streamClose 0])
      (finFrame 1).network (finFrame 1) 0 ⟨⟨1, .est, 0, 0⟩, true, false⟩ :=
    ⟨Frame.read_network _ _, rfl, by decide, by decide, by decide⟩
  exact ⟨haddressed, by decide, (answersFin_iff haddressed (by decide) 1).mpr (by decide)⟩

/-- A FIN for a stream that both sides have open is not answered. -/
theorem answersFin_open_fails :
    ¬∀ (env : Env) (ctx : Context) (incoming : Bytes) (f : Frame) (i : Nat) (slot : SessionStream),
      Addressed env ctx incoming f i slot → f.has frameFin → ¬f.has frameRst →
        AnswersFin ctx i slot f (decode env ctx incoming).2.2 := by
  intro hall
  have hanswers := hall ⟨.little, fun _ => false, true⟩ (afterSyn []) (finFrame 1).network (finFrame 1) 0
    ⟨⟨1, .est, 0, 0⟩, true, false⟩ ⟨Frame.read_network _ _, rfl, by decide, by decide, by decide⟩
    (by decide) (by decide)
  have hone := hanswers.replies (by decide)
  revert hone
  decide

end CLibp2p.YamuxV1
