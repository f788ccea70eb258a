import CLibp2p.Proof.YamuxV1States

/-!
# What a failing `yamux_decode` leaves behind

The errors of the session level, and those about a stream that could not be opened, come before anything
is changed. For a stream of the table the flags are obeyed and the window is updated before
`yamux_stream_process` looks at the type and the length of the frame, and its errors leave those changes
in place.
-/

namespace CLibp2p.YamuxV1

open Duplex Machine

/-- The session and its streams are as before. The record of the run may differ: that a freed block was
read, and that a handler was given a message. -/
def Unchanged (ctx ctx' : Context) : Prop :=
  ∃ fault marshalled, ctx' = { ctx with fault, marshalled }

theorem Unchanged.refl (ctx : Context) : Unchanged ctx ctx := ⟨ctx.fault, ctx.marshalled, rfl⟩

theorem Unchanged.slotStates {ctx ctx' : Context} (hsame : Unchanged ctx ctx') :
    ctx'.slotStates = ctx.slotStates := by
  obtain ⟨_, _, rfl⟩ := hsame
  rfl

theorem unchanged_findStream (ctx : Context) (id : UInt32) : Unchanged ctx (findStream ctx id).2 :=
  ⟨_, ctx.marshalled, rfl⟩

/-! ### Frames of streams in the table -/

/-- The flags of the frame are ones that the stream can take. -/
def FlagsAccepted (slot : SessionStream) (f : Frame) : Prop :=
  f.has frameRst ∨ f.has frameFin ∨ (f.has frameAck ∧ slot.stream.state = .synSent) ∨ f.flags = 0

/-- The state that accepted flags put the stream in. -/
def stateAfter (slot : SessionStream) (f : Frame) : StreamState :=
  if f.has frameRst ∨ f.has frameFin then .closed
  else if f.has frameAck then .est
  else slot.stream.state

def windowAfter (slot : SessionStream) (f : Frame) : UInt32 :=
  if f.type = frameWindowUpdate then slot.stream.windowSize + f.length else slot.stream.windowSize

/-- `yamux_stream_process` gets as far as the bytes after the frame. -/
def ReachesPayload (f : Frame) (payload : Bytes) : Prop :=
  f.type = frameWindowUpdate ∨ (f.type = frameData ∧ payload.length = f.length.toNat)

instance (f : Frame) (payload : Bytes) : Decidable (ReachesPayload f payload) :=
  inferInstanceAs (Decidable (_ ∨ _))

/-- The channel context that takes the bytes after the frame. -/
def recipient (ctx : Context) (slot : SessionStream) (f : Frame) (payload : Bytes) :
    Option ChannelContext :=
  if ReachesPayload f payload ∧ payload ≠ [] then ctx.channels[slot.stream.channel]? else none

/-- A registered handler takes the whole buffer once the payload is in it. -/
def handled (env : Env) (channel : ChannelContext) (payload : Bytes) : Bool :=
  !channel.child && env.accepts (channel.buffer ++ payload)

def bufferAfter (env : Env) (channel : ChannelContext) (payload : Bytes) : Bytes :=
  if handled env channel payload then [] else channel.buffer ++ payload

theorem modifyStream_congr {ctx : Context} {i : Nat} {slot : SessionStream}
    (hslot : ctx.streams[i]? = some slot) {change change' : YamuxStream → YamuxStream}
    (hsame : change slot.stream = change' slot.stream) :
    ctx.modifyStream i change = ctx.modifyStream i change' := by
  have hstreams : (ctx.streams.modify i fun slot => { slot with stream := change slot.stream }) =
      ctx.streams.modify i fun slot => { slot with stream := change' slot.stream } := by
    apply List.ext_getElem?
    intro j
    rw [List.getElem?_modify, List.getElem?_modify]
    by_cases hij : i = j
    · subst hij
      simp only [if_true, hslot, Option.map_eq_map, Option.map_some, hsame]
    · simp only [if_neg hij]
  unfold Context.modifyStream
  rw [hstreams]

theorem modifyStream_self {ctx : Context} {i : Nat} {slot : SessionStream}
    (hslot : ctx.streams[i]? = some slot) {change : YamuxStream → YamuxStream}
    (hsame : change slot.stream = slot.stream) : ctx.modifyStream i change = ctx := by
  have hid : ctx.streams.modify i id = ctx.streams := List.modify_id i ctx.streams
  have hcongr : ctx.modifyStream i change = ctx.modifyStream i id := modifyStream_congr hslot hsame
  rw [hcongr]
  change { ctx with streams := ctx.streams.modify i id } = ctx
  rw [hid]

/-- `decodeFlags` as one change of the stream's state. -/
theorem decodeFlags_of_accepted {env : Env} {ctx : Context} {i : Nat} {slot : SessionStream} {f : Frame}
    (hslot : ctx.streams[i]? = some slot) (haccepted : FlagsAccepted slot f) :
    decodeFlags env ctx i slot f = some (ctx.setStreamState i (stateAfter slot f)) := by
  rw [decodeFlags_eq]
  unfold stateAfter
  by_cases hover : f.has frameRst ∨ f.has frameFin
  · rw [if_pos hover, if_pos hover]
  · rw [if_neg hover, if_neg hover]
    by_cases hack : f.has frameAck
    · have hsent : slot.stream.state = .synSent := by
        rcases haccepted with hrst | hfin | ⟨-, hsent⟩ | hzero
        · exact absurd (Or.inl hrst) hover
        · exact absurd (Or.inr hfin) hover
        · exact hsent
        · simp [Frame.has, hzero] at hack
      rw [if_pos hack, if_pos hsent, if_pos hack]
    · have hzero : f.flags = 0 := by
        rcases haccepted with hrst | hfin | ⟨hyes, -⟩ | hzero
        · exact absurd (Or.inl hrst) hover
        · exact absurd (Or.inr hfin) hover
        · exact absurd hyes hack
        · exact hzero
      rw [if_neg hack, if_pos hzero, if_neg hack]
      exact congrArg some (modifyStream_self hslot rfl).symm

theorem decodeFlags_of_not_accepted {env : Env} {ctx : Context} {i : Nat} {slot : SessionStream}
    {f : Frame} (hnot : ¬FlagsAccepted slot f) : decodeFlags env ctx i slot f = none := by
  simp only [FlagsAccepted, not_or, not_and] at hnot
  obtain ⟨hrst, hfin, hack, hzero⟩ := hnot
  rw [decodeFlags_eq, if_neg (not_or.mpr ⟨hrst, hfin⟩)]
  by_cases hyes : f.has frameAck
  · rw [if_pos hyes, if_neg (hack hyes)]
  · rw [if_neg hyes, if_neg hzero]

/-- The channels once the payload was received. -/
def channelsAfter (env : Env) (ctx : Context) (slot : SessionStream) (f : Frame) (payload : Bytes) :
    List ChannelContext :=
  match recipient ctx slot f payload with
  | some channel => ctx.channels.modify slot.stream.channel fun other =>
      { other with buffer := bufferAfter env channel payload }
  | none => ctx.channels

theorem channelReceive_eq {env : Env} {ctx : Context} {i : Nat} {slot : SessionStream}
    (hslot : ctx.streams[i]? = some slot) {f : Frame} {payload : Bytes}
    (hreaches : ReachesPayload f payload) :
    ∃ marshalled, (channelReceive env ctx i payload).2 =
      { ctx with channels := channelsAfter env ctx slot f payload, marshalled } := by
  unfold channelReceive channelsAfter recipient
  by_cases hempty : payload = []
  · refine ⟨ctx.marshalled, ?_⟩
    simp [hempty]
  · have hlength : payload.length ≠ 0 := fun hzero => hempty (List.length_eq_zero_iff.mp hzero)
    rw [if_neg hlength, if_pos ⟨hreaches, hempty⟩, hslot]
    dsimp only
    cases ctx.channels[slot.stream.channel]? with
    | none => exact ⟨ctx.marshalled, rfl⟩
    | some channel =>
        have hhandled : (!channel.child && env.accepts (channel.buffer ++ payload)) =
            handled env channel payload := rfl
        dsimp only
        rw [hhandled]
        by_cases htaken : handled env channel payload
        · simp only [bufferAfter, if_pos htaken]
          exact ⟨_, rfl⟩
        · simp only [bufferAfter, if_neg htaken]
          exact ⟨ctx.marshalled, rfl⟩

theorem channelsAfter_of_not_reaches {env : Env} {ctx : Context} {slot : SessionStream} {f : Frame}
    {payload : Bytes} (hnot : ¬ReachesPayload f payload) :
    channelsAfter env ctx slot f payload = ctx.channels := by
  rw [channelsAfter, recipient, if_neg fun hboth => hnot hboth.1]

/-- What `yamux_stream_process` leaves behind, whatever it returns. -/
theorem streamProcess_eq (env : Env) {ctx : Context} {i : Nat} {slot : SessionStream}
    (hslot : ctx.streams[i]? = some slot) (f : Frame) (payload : Bytes) :
    ∃ marshalled, (streamProcess env ctx i f payload).2 =
      { ctx.modifyStream i fun stream => { stream with windowSize := windowAfter slot f } with
        channels := channelsAfter env ctx slot f payload, marshalled } := by
  have hkeep : f.type ≠ frameWindowUpdate →
      (ctx.modifyStream i fun stream => { stream with windowSize := windowAfter slot f }) = ctx := by
    intro hwindow
    refine modifyStream_self hslot ?_
    rw [windowAfter, if_neg hwindow]
  unfold streamProcess
  by_cases hwindow : f.type = frameWindowUpdate
  · rw [if_pos hwindow]
    have hupdate : (ctx.modifyStream i fun stream =>
        { stream with windowSize := stream.windowSize + f.length }) =
          ctx.modifyStream i fun stream => { stream with windowSize := windowAfter slot f } := by
      refine modifyStream_congr hslot ?_
      rw [windowAfter, if_pos hwindow]
    have hslot' : (ctx.modifyStream i fun stream =>
        { stream with windowSize := windowAfter slot f }).streams[i]? =
          some { slot with stream := { slot.stream with windowSize := windowAfter slot f } } := by
      simp [Context.modifyStream, hslot]
    rw [hupdate]
    exact channelReceive_eq hslot' (Or.inl hwindow)
  · rw [if_neg hwindow, hkeep hwindow]
    by_cases hdata : f.type = frameData
    · rw [if_pos hdata]
      by_cases hlength : payload.length = f.length.toNat
      · rw [if_neg (not_not.mpr hlength)]
        exact channelReceive_eq hslot (Or.inr ⟨hdata, hlength⟩)
      · rw [if_pos hlength, channelsAfter_of_not_reaches]
        · exact ⟨ctx.marshalled, rfl⟩
        · rintro (hyes | ⟨-, hyes⟩)
          · exact hwindow hyes
          · exact hlength hyes
    · rw [if_neg hdata, channelsAfter_of_not_reaches]
      · exact ⟨ctx.marshalled, rfl⟩
      · rintro (hyes | ⟨hyes, -⟩)
        · exact hwindow hyes
        · exact hdata hyes

/-- What a frame with accepted flags leaves behind, whatever `yamux_decode` returns for it. -/
theorem decodeStream_eq (env : Env) {ctx : Context} {i : Nat} {slot : SessionStream}
    (hslot : ctx.streams[i]? = some slot) {f : Frame} (haccepted : FlagsAccepted slot f)
    (incoming : Bytes) :
    ∃ marshalled, (decodeStream env ctx i f incoming).2 =
      { ctx.modifyStream i fun stream =>
          { stream with state := stateAfter slot f, windowSize := windowAfter slot f } with
        channels := channelsAfter env ctx slot f (incoming.drop Frame.size), marshalled } := by
  have hslot' : (ctx.setStreamState i (stateAfter slot f)).streams[i]? =
      some { slot with stream := { slot.stream with state := stateAfter slot f } } := by
    simp [Context.setStreamState, Context.modifyStream, hslot]
  obtain ⟨marshalled, hprocess⟩ := streamProcess_eq env hslot' f (incoming.drop Frame.size)
  unfold decodeStream
  simp only [hslot, decodeFlags_of_accepted hslot haccepted, hprocess]
  refine ⟨marshalled, ?_⟩
  simp only [Context.setStreamState, Context.modifyStream, List.modify_modify_eq]
  rfl

/-- The bytes after the frame reach a channel, and its buffer is not as before. -/
def TakesPayload (env : Env) (ctx : Context) (slot : SessionStream) (f : Frame) (payload : Bytes) :
    Prop :=
  ∃ channel, recipient ctx slot f payload = some channel ∧
    ¬(channel.buffer = [] ∧ handled env channel payload)

/-- The frame changes the state, the window or the buffer of its stream. -/
def LeavesTrace (env : Env) (ctx : Context) (slot : SessionStream) (f : Frame) (payload : Bytes) :
    Prop :=
  ¬SparesState slot f ∨ (f.type = frameWindowUpdate ∧ f.length ≠ 0) ∨ TakesPayload env ctx slot f payload

theorem stateAfter_eq_iff {slot : SessionStream} {f : Frame} (hopen : slot.stream.state ≠ .closed)
    (haccepted : FlagsAccepted slot f) :
    stateAfter slot f = slot.stream.state ↔ SparesState slot f := by
  unfold stateAfter SparesState
  by_cases hover : f.has frameRst ∨ f.has frameFin
  · rw [if_pos hover]
    constructor
    · intro heq
      exact absurd heq.symm hopen
    · rintro ⟨hrst, hfin, -⟩
      exact absurd hover (not_or.mpr ⟨hrst, hfin⟩)
  · obtain ⟨hrst, hfin⟩ := not_or.mp hover
    rw [if_neg hover]
    by_cases hack : f.has frameAck
    · have hsent : slot.stream.state = .synSent := by
        rcases haccepted with hyes | hyes | ⟨-, hsent⟩ | hzero
        · exact absurd hyes hrst
        · exact absurd hyes hfin
        · exact hsent
        · simp [Frame.has, hzero] at hack
      rw [if_pos hack, hsent]
      constructor
      · intro heq
        cases heq
      · rintro ⟨-, -, hspares⟩
        exact absurd rfl (hspares hack)
    · rw [if_neg hack]
      exact ⟨fun _ => ⟨hrst, hfin, fun hyes => absurd hyes hack⟩, fun _ => rfl⟩

theorem windowAfter_eq_iff {slot : SessionStream} {f : Frame} :
    windowAfter slot f = slot.stream.windowSize ↔ ¬(f.type = frameWindowUpdate ∧ f.length ≠ 0) := by
  unfold windowAfter
  by_cases hwindow : f.type = frameWindowUpdate
  · rw [if_pos hwindow, add_eq_left]
    tauto
  · rw [if_neg hwindow]
    tauto

theorem bufferAfter_eq_iff (env : Env) (channel : ChannelContext) {payload : Bytes}
    (hpayload : payload ≠ []) :
    bufferAfter env channel payload = channel.buffer ↔
      channel.buffer = [] ∧ handled env channel payload := by
  unfold bufferAfter
  by_cases htaken : handled env channel payload
  · rw [if_pos htaken]
    exact ⟨fun heq => ⟨heq.symm, htaken⟩, fun hboth => hboth.1.symm⟩
  · rw [if_neg htaken, List.append_right_eq_self]
    exact ⟨fun hempty => absurd hempty hpayload, fun hboth => absurd hboth.2 htaken⟩

theorem channelsAfter_eq_iff {env : Env} {ctx : Context} {slot : SessionStream} {f : Frame}
    {payload : Bytes} :
    channelsAfter env ctx slot f payload = ctx.channels ↔ ¬TakesPayload env ctx slot f payload := by
  unfold channelsAfter TakesPayload
  cases hrecipient : recipient ctx slot f payload with
  | none => simp
  | some channel =>
      have hboth : (ReachesPayload f payload ∧ payload ≠ []) ∧
          ctx.channels[slot.stream.channel]? = some channel := by
        unfold recipient at hrecipient
        split at hrecipient
        · rename_i hreaches
          exact ⟨hreaches, hrecipient⟩
        · cases hrecipient
      obtain ⟨⟨-, hpayload⟩, hchannel⟩ := hboth
      have hbuffer := bufferAfter_eq_iff env channel hpayload
      simp only [Option.some.injEq, exists_eq_left', not_not]
      rw [← hbuffer]
      constructor
      · intro hsame
        have hat := congrArg (·[slot.stream.channel]?) hsame
        simp only [List.getElem?_modify_eq, hchannel, Option.map_eq_map, Option.map_some,
          Option.some.injEq] at hat
        exact congrArg ChannelContext.buffer hat
      · intro hsame
        apply List.ext_getElem?
        intro j
        rw [List.getElem?_modify]
        by_cases hj : slot.stream.channel = j
        · subst hj
          simp only [if_true, hchannel, Option.map_eq_map, Option.map_some, hsame]
        · simp only [if_neg hj, Option.map_eq_map, Option.map_id']

theorem decodeStream_unchanged_iff (env : Env) {ctx : Context} {i : Nat} {slot : SessionStream}
    (hslot : ctx.streams[i]? = some slot) (hopen : slot.stream.state ≠ .closed) {f : Frame}
    (haccepted : FlagsAccepted slot f) (incoming : Bytes) :
    Unchanged ctx (decodeStream env ctx i f incoming).2 ↔
      ¬LeavesTrace env ctx slot f (incoming.drop Frame.size) := by
  obtain ⟨marshalled, hafter⟩ := decodeStream_eq env hslot haccepted incoming
  rw [hafter, LeavesTrace, not_or, not_or, not_not, ← stateAfter_eq_iff hopen haccepted,
    ← windowAfter_eq_iff, ← channelsAfter_eq_iff]
  constructor
  · rintro ⟨fault, marshalled', hsame⟩
    have hstreams := congrArg (fun ctx : Context => ctx.streams[i]?) hsame
    have hchannels := congrArg Context.channels hsame
    simp only [Context.modifyStream, List.getElem?_modify_eq, hslot, Option.map_eq_map,
      Option.map_some, Option.some.injEq] at hstreams
    have hstream := congrArg SessionStream.stream hstreams
    exact ⟨congrArg YamuxStream.state hstream, congrArg YamuxStream.windowSize hstream, hchannels⟩
  · rintro ⟨hstate, hwindow, hchannels⟩
    rw [hstate, hwindow, hchannels, modifyStream_self hslot rfl]
    exact ⟨ctx.fault, marshalled, rfl⟩

/-! ### Which calls fail -/

/-- `yamux_stream_process` refuses the frame, or the number of bytes that `yamux_decode` returns for it
does not fit an `int`. -/
def ProcessFails (ctx : Context) (slot : SessionStream) (f : Frame) (payload : Bytes) : Prop :=
  ¬ReachesPayload f payload ∨ (payload ≠ [] ∧ (ctx.channels[slot.stream.channel]? = none ∨
    asInt (payload.length + (payload.length + Frame.size)) < 0))

theorem channelReceive_fst {env : Env} {ctx : Context} {i : Nat} {slot : SessionStream}
    (hslot : ctx.streams[i]? = some slot) (payload : Bytes) :
    (channelReceive env ctx i payload).1 =
      if payload ≠ [] ∧ ctx.channels[slot.stream.channel]? = none then -eproto
      else (payload.length : Int) := by
  unfold channelReceive
  by_cases hempty : payload = []
  · simp [hempty]
  · have hlength : payload.length ≠ 0 := fun hzero => hempty (List.length_eq_zero_iff.mp hzero)
    rw [if_neg hlength, hslot]
    dsimp only
    cases ctx.channels[slot.stream.channel]? with
    | none => rw [if_pos ⟨hempty, rfl⟩]
    | some channel =>
        rw [if_neg fun hboth => nomatch hboth.2]
        dsimp only
        split <;> rfl

/-- What `yamux_stream_process` returns for a stream whose channel is in `channels`. -/
theorem streamProcess_fst (env : Env) {ctx : Context} {i : Nat} {slot : SessionStream}
    (hslot : ctx.streams[i]? = some slot) (f : Frame) (payload : Bytes) :
    (¬ReachesPayload f payload → (streamProcess env ctx i f payload).1 < 0) ∧
      (ReachesPayload f payload → (streamProcess env ctx i f payload).1 =
        if payload ≠ [] ∧ ctx.channels[slot.stream.channel]? = none then -eproto
        else (payload.length : Int)) := by
  unfold streamProcess ReachesPayload
  by_cases hwindow : f.type = frameWindowUpdate
  · rw [if_pos hwindow]
    refine ⟨fun hnot => absurd (Or.inl hwindow) hnot, fun _ => ?_⟩
    have hslot' : (ctx.modifyStream i fun stream =>
        { stream with windowSize := stream.windowSize + f.length }).streams[i]? =
          some { slot with stream :=
            { slot.stream with windowSize := slot.stream.windowSize + f.length } } := by
      simp [Context.modifyStream, hslot]
    exact channelReceive_fst hslot' payload
  · rw [if_neg hwindow]
    by_cases hdata : f.type = frameData
    · rw [if_pos hdata]
      by_cases hlength : payload.length = f.length.toNat
      · rw [if_neg (not_not.mpr hlength)]
        exact ⟨fun hnot => absurd (Or.inr ⟨hdata, hlength⟩) hnot,
          fun _ => channelReceive_fst hslot payload⟩
      · rw [if_pos hlength]
        have hneg : (-1 : Int) < 0 := by decide
        refine ⟨fun _ => hneg, fun hreaches => ?_⟩
        rcases hreaches with hyes | ⟨-, hyes⟩
        · exact absurd hyes hwindow
        · exact absurd hyes hlength
    · rw [if_neg hdata]
      have hneg : -eproto < 0 := by decide
      refine ⟨fun _ => hneg, fun hreaches => ?_⟩
      rcases hreaches with hyes | ⟨hyes, -⟩
      · exact absurd hyes hwindow
      · exact absurd hyes hdata

theorem decodeStream_neg_iff (env : Env) {ctx : Context} {i : Nat} {slot : SessionStream}
    (hslot : ctx.streams[i]? = some slot) {f : Frame} (haccepted : FlagsAccepted slot f)
    {incoming : Bytes} (hheader : Frame.size ≤ incoming.length) :
    (decodeStream env ctx i f incoming).1 < 0 ↔
      ProcessFails ctx slot f (incoming.drop Frame.size) := by
  have hslot' : (ctx.setStreamState i (stateAfter slot f)).streams[i]? =
      some { slot with stream := { slot.stream with state := stateAfter slot f } } := by
    simp [Context.setStreamState, Context.modifyStream, hslot]
  have hincoming : (incoming.length : Int) = (incoming.drop Frame.size).length + Frame.size := by
    rw [List.length_drop]
    omega
  have hprocess := streamProcess_fst env hslot' f (incoming.drop Frame.size)
  have hreached : ReachesPayload f (incoming.drop Frame.size) →
      (streamProcess env (ctx.setStreamState i (stateAfter slot f)) i f (incoming.drop Frame.size)).1 =
        if incoming.drop Frame.size ≠ [] ∧ ctx.channels[slot.stream.channel]? = none then -eproto
        else ((incoming.drop Frame.size).length : Int) := hprocess.2
  have hrefused := hprocess.1
  unfold decodeStream ProcessFails
  simp only [hslot, decodeFlags_of_accepted hslot haccepted, hincoming]
  generalize incoming.drop Frame.size = payload at *
  by_cases hreaches : ReachesPayload f payload
  · have hreturn := hreached hreaches
    by_cases hempty : payload = []
    · subst hempty
      rw [hreturn]
      simp [hreaches, Frame.size, asInt]
    · by_cases hmissing : ctx.channels[slot.stream.channel]? = none
      · rw [hreturn.trans (if_pos ⟨hempty, hmissing⟩)]
        simp [hempty, hmissing, eproto]
      · have hnonneg : ¬(payload.length : Int) < 0 := by omega
        rw [hreturn.trans (if_neg fun hboth => hmissing hboth.2), if_neg hnonneg]
        simp [hempty, hmissing, hreaches]
  · have hneg := hrefused hreaches
    rw [if_pos hneg]
    exact ⟨fun _ => Or.inl hreaches, fun _ => hneg⟩

/-! ### Calls that change nothing when they fail -/

theorem channelNew_unchanged {ctx : Context} {id : UInt32} (hid : id ≠ 0) {ctx' : Context}
    (hnew : channelNew ctx id = (none, ctx')) : ctx' = ctx := by
  unfold channelNew at hnew
  rw [pickId, if_neg hid] at hnew
  dsimp only at hnew
  split at hnew
  · cases hnew
  · split at hnew
    · exact (congrArg Prod.snd hnew).symm
    · cases hnew

theorem channelNew_holds {ctx : Context} {id : UInt32} (hid : id ≠ 0) {c : Nat} {ctx' : Context}
    (hnew : channelNew ctx id = (some c, ctx')) : ∃ slot ∈ ctx'.streams, slot.stream.id = id := by
  unfold channelNew at hnew
  rw [pickId, if_neg hid] at hnew
  dsimp only at hnew
  split at hnew
  · rename_i i hdead
    have hi : i < ctx.streams.length := by
      unfold deadSlot at hdead
      split at hdead
      · exact (List.findIdx?_eq_some_iff_getElem.mp hdead).1
      · cases hdead
    obtain rfl := congrArg Prod.snd hnew
    have hentry := table_reuseSlot ctx i id
    have hmem : (⟨id, true⟩ : Slot UInt32) ∈ (reuseSlot ctx i id).2.table := by
      rw [hentry]
      exact List.mem_set (by rw [Context.table, List.length_map]; exact hi) _
    obtain ⟨slot, hslot, heq⟩ := List.mem_map.mp hmem
    exact ⟨slot, hslot, congrArg Slot.key heq⟩
  · split at hnew
    · cases hnew
    · obtain rfl := congrArg Prod.snd hnew
      exact ⟨_, List.mem_append_right _ (List.mem_singleton.mpr rfl), rfl⟩

theorem acceptStream_nonneg (env : Env) {ctx : Context} {c : Nat} {f : Frame}
    (hholds : ∃ slot ∈ ctx.streams, slot.stream.id = f.streamid) (incoming : Bytes) :
    0 ≤ (acceptStream env ctx c f incoming).1 := by
  unfold acceptStream
  split
  · rename_i ctx' hget
    obtain ⟨slot, hslot, hid⟩ := hholds
    have hnone : ctx.streams.findIdx? (fun slot => slot.stream.id == f.streamid) = none :=
      congrArg Prod.fst hget
    have hmiss := List.findIdx?_eq_none_iff.mp hnone slot hslot
    simp [hid] at hmiss
  · exact le_refl 0

theorem decodeNew_unchanged {env : Env} {ctx : Context} {f : Frame} (hid : f.streamid ≠ 0)
    {incoming : Bytes} (hneg : (decodeNew env ctx f incoming).1 < 0) :
    (decodeNew env ctx f incoming).2.2 = ctx := by
  unfold decodeNew at hneg ⊢
  by_cases hsyn : f.has frameSyn
  · by_cases hparity : inboundParity ctx f.streamid
    · simp only [hsyn, hparity, if_true] at hneg ⊢
      rcases hnew : channelNew ctx f.streamid with ⟨channel?, ctx'⟩
      rw [hnew] at hneg
      cases channel? with
      | none => exact channelNew_unchanged hid hnew
      | some c =>
          have hnonneg := acceptStream_nonneg env (c := c) (channelNew_holds hid hnew) incoming
          exact absurd hneg (not_lt.mpr hnonneg)
    · simp only [hsyn, hparity, if_true, Bool.false_eq_true, if_false]
  · simp only [hsyn, Bool.false_eq_true, if_false]

theorem decodeSession_unchanged {env : Env} {ctx : Context} {f : Frame}
    (hneg : (decodeSession env ctx f).1 < 0) : (decodeSession env ctx f).2 = ctx := by
  unfold decodeSession at hneg ⊢
  split
  · split
    · rename_i hping hsyn
      rw [if_pos hping, if_pos hsyn] at hneg
      exact absurd hneg (lt_irrefl 0)
    · split
      · split <;> rfl
      · rfl
  · split
    · rename_i hping haway
      rw [if_neg hping, if_pos haway] at hneg
      exact absurd hneg (lt_irrefl 0)
    · rfl

theorem decode_unchanged {env : Env} {ctx : Context} {incoming : Bytes}
    (hnone : ∀ f i slot, ¬Addressed env ctx incoming f i slot)
    (hneg : (decode env ctx incoming).1 < 0) : Unchanged ctx (decode env ctx incoming).2.2 := by
  unfold decode at hneg ⊢
  cases hread : Frame.read env.host incoming with
  | none => exact Unchanged.refl ctx
  | some f =>
      rw [hread] at hneg
      by_cases hversion : f.version = yamuxVersion
      · by_cases hid : f.streamid = 0
        · simp only [hversion, hid, ne_eq, not_true_eq_false, if_true, if_false] at hneg ⊢
          rw [decodeSession_unchanged hneg]
          exact Unchanged.refl ctx
        · simp only [hversion, hid, ne_eq, not_true_eq_false, if_false] at hneg ⊢
          have hsearch := unchanged_findStream ctx f.streamid
          rcases hfind : findStream ctx f.streamid with ⟨found, ctx'⟩
          rw [hfind] at hneg hsearch
          cases found with
          | some i =>
              have hfound : ctx.streams.findIdx? (fun slot =>
                  slot.alive && slot.stream.state != .closed && slot.stream.id == f.streamid) = some i :=
                congrArg Prod.fst hfind
              obtain ⟨hi, -⟩ := List.findIdx?_eq_some_iff_getElem.mp hfound
              exact absurd ⟨hread, hversion, hid, by rw [hfind], List.getElem?_eq_getElem hi⟩
                (hnone f i ctx.streams[i])
          | none =>
              have hrest : (decodeNew env ctx' f incoming).2.2 = ctx' := decodeNew_unchanged hid hneg
              dsimp only
              rw [hrest]
              exact hsearch
      · simp only [hversion, ne_eq, not_false_eq_true, if_true]
        exact Unchanged.refl ctx

/-! ### When a failing call changes nothing -/

/-- A frame for a stream of the table that `yamux_decode` refuses after it changed the stream. -/
def Spoils (env : Env) (ctx : Context) (incoming : Bytes) : Prop :=
  ∃ f i slot, Addressed env ctx incoming f i slot ∧ FlagsAccepted slot f ∧
    ProcessFails ctx slot f (incoming.drop Frame.size) ∧
    LeavesTrace env ctx slot f (incoming.drop Frame.size)

/-- **Failing calls.** In every state, a call of `yamux_decode` that fails leaves the session and its
streams as they were exactly when its frame is not one that is refused after its stream was changed. -/
theorem decode_unchanged_iff (env : Env) (ctx : Context) (incoming : Bytes) :
    ((decode env ctx incoming).1 < 0 → Unchanged ctx (decode env ctx incoming).2.2) ↔
      ¬Spoils env ctx incoming := by
  by_cases haddressed : ∃ f i slot, Addressed env ctx incoming f i slot
  · obtain ⟨f, i, slot, haddressed⟩ := haddressed
    obtain ⟨-, hopen, -⟩ := haddressed.slot_open
    obtain ⟨fault, marshalled, hsearch⟩ := unchanged_findStream ctx f.streamid
    have hslot : (findStream ctx f.streamid).2.streams[i]? = some slot := haddressed.slot
    have hheader : Frame.size ≤ incoming.length := Frame.size_le_of_read haddressed.read
    -- the search changes nothing that the rest of the call looks at
    have hbase : ∀ ctx', Unchanged (findStream ctx f.streamid).2 ctx' ↔ Unchanged ctx ctx' := by
      intro ctx'
      rw [hsearch]
      rfl
    have hunique : Spoils env ctx incoming ↔ FlagsAccepted slot f ∧
        ProcessFails ctx slot f (incoming.drop Frame.size) ∧
        LeavesTrace env ctx slot f (incoming.drop Frame.size) := by
      constructor
      · rintro ⟨f', i', slot', hother, hspoils⟩
        obtain rfl : f = f' := Option.some.inj (haddressed.read.symm.trans hother.read)
        obtain rfl : i = i' := Option.some.inj (haddressed.found.symm.trans hother.found)
        obtain rfl : slot = slot' := Option.some.inj (haddressed.slot.symm.trans hother.slot)
        exact hspoils
      · intro hspoils
        exact ⟨f, i, slot, haddressed, hspoils⟩
    rw [haddressed.decode_eq, hunique]
    dsimp only
    by_cases haccepted : FlagsAccepted slot f
    · have hfails := decodeStream_neg_iff env hslot haccepted hheader
      have htrace := decodeStream_unchanged_iff env hslot hopen haccepted incoming
      rw [hbase] at htrace
      change _ ↔ ProcessFails ctx slot f (incoming.drop Frame.size) at hfails
      change _ ↔ ¬LeavesTrace env ctx slot f (incoming.drop Frame.size) at htrace
      rw [hfails, htrace]
      tauto
    · refine ⟨fun _ hspoils => haccepted hspoils.1, fun _ _ => ?_⟩
      unfold decodeStream
      simp only [hslot, decodeFlags_of_not_accepted haccepted]
      exact unchanged_findStream ctx f.streamid
  · push Not at haddressed
    refine ⟨fun _ hspoils => ?_, fun _ => decode_unchanged haddressed⟩
    obtain ⟨f, i, slot, hyes, -⟩ := hspoils
    exact haddressed f i slot hyes

/-- A DATA frame with RST whose length is wrong fails, and closes its stream. -/
theorem decode_unchanged_fails :
    ¬∀ env ctx incoming, (decode env ctx incoming).1 < 0 →
      Unchanged ctx (decode env ctx incoming).2.2 := by
  intro hall
  have hsame := hall ⟨.little, fun _ => false, true⟩
    (decode ⟨.little, fun _ => false, true⟩ (sessionStart 256 true .est [])
      (Frame.network ⟨0, frameWindowUpdate, frameSyn, 1, 0⟩)).2.2
    (Frame.network ⟨0, frameData, frameRst, 1, 5⟩) (by decide)
  exact absurd hsame.slotStates (by decide)

end CLibp2p.YamuxV1
