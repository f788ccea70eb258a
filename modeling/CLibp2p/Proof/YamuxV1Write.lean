import CLibp2p.Proof.YamuxV1Slots
import CLibp2p.YamuxV1.Run

/-!
# Writing to a stream of a v1 session

A round of `yamux_stream_write` sends what the window of the channel context lets through, and nothing
ever opens that window: it is zero from the creation of the context on. A round therefore sends a frame
without data, and only a parent stream that refuses one ends the loop.
-/

namespace CLibp2p.YamuxV1

open Duplex Machine

/-! ### The windows of the channel contexts -/

def Context.windows (ctx : Context) : List UInt32 := ctx.channels.map ChannelContext.windowSize

theorem windows_modifyChannel (ctx : Context) (c : Nat) (change : ChannelContext → ChannelContext)
    (heq : ∀ channel, (change channel).windowSize = channel.windowSize) :
    (ctx.modifyChannel c change).windows = ctx.windows := map_modify_of_eq _ change heq _ _

@[simp] theorem windows_setChannelState (ctx : Context) (c : Nat) (state : StreamState) :
    (ctx.setChannelState c state).windows = ctx.windows :=
  windows_modifyChannel ctx c _ fun _ => rfl

@[simp] theorem windows_setBuffer (ctx : Context) (c : Nat) (buffer : Bytes) :
    (ctx.setBuffer c buffer).windows = ctx.windows :=
  windows_modifyChannel ctx c _ fun _ => rfl

section Operations

variable (env : Env) (ctx : Context)

@[simp] theorem windows_setSlotState (id : UInt32) (state : StreamState) :
    (setSlotState ctx id state).windows = ctx.windows := by
  unfold setSlotState
  rcases hget : getSessionStream ctx id with ⟨found, ctx'⟩
  have hsame : ctx'.windows = ctx.windows := congrArg (fun pair => pair.2.windows) hget.symm
  cases found with
  | none => exact hsame
  | some i => exact hsame

@[simp] theorem windows_writeFrame (f : Frame) : (writeFrame env ctx f).2.windows = ctx.windows := rfl

@[simp] theorem windows_getFlags (c : Nat) : (getFlags ctx c).2.windows = ctx.windows := by
  unfold getFlags
  split
  · rfl
  · split
    · rfl
    · rw [windows_setSlotState, windows_setChannelState]

theorem windows_streamInit (c : Nat) : (streamInit env ctx c).2.windows = ctx.windows := by
  unfold streamInit
  split
  · rfl
  · split
    · rfl
    · rw [windows_writeFrame, windows_setSlotState, windows_setChannelState]

theorem windows_streamClose (c : Nat) : (streamClose env ctx c).2.windows = ctx.windows := by
  unfold streamClose
  split
  · rfl
  · split
    · rfl
    · rw [windows_writeFrame, windows_setChannelState]

theorem windows_streamReset (c : Nat) : (streamReset env ctx c).2.windows = ctx.windows := by
  unfold streamReset
  split
  · rfl
  · split
    · rfl
    · rw [windows_writeFrame, windows_setChannelState]

@[simp] theorem windows_streamWindowUpdate (c : Nat) (delta : UInt32) :
    (streamWindowUpdate env ctx c delta).2.windows = ctx.windows := by
  unfold streamWindowUpdate
  split
  · rfl
  · split
    · rfl
    · exact windows_getFlags ctx c

theorem windows_streamWriteRound (c : Nat) (id : UInt32) (data : Bytes) :
    (streamWriteRound env c id ctx data).2.windows = ctx.windows := windows_getFlags ctx c

theorem windows_streamWrite (c : Nat) (data : Bytes) (rounds : Nat) :
    (streamWrite env ctx c data rounds).2.windows = ctx.windows := by
  unfold streamWrite
  split
  · rfl
  · split
    · rfl
    · refine streamWriteLoop_invariant (P := fun ctx' => ctx'.windows = ctx.windows) ?_ _ _ _ rfl data
      intro ctx' data hsame
      exact (windows_streamWriteRound env ctx' c _ data).trans hsame

theorem windows_channelReceive (i : Nat) (incoming : Bytes) :
    (channelReceive env ctx i incoming).2.windows = ctx.windows := by
  unfold channelReceive
  split
  · rfl
  · split
    · rfl
    · dsimp only
      split
      · rfl
      · split
        · exact windows_setBuffer ctx _ _
        · exact windows_setBuffer ctx _ _

@[simp] theorem windows_streamProcess (i : Nat) (f : Frame) (incoming : Bytes) :
    (streamProcess env ctx i f incoming).2.windows = ctx.windows := by
  unfold streamProcess
  split
  · exact windows_channelReceive env _ i incoming
  · split
    · split
      · rfl
      · exact windows_channelReceive env ctx i incoming
    · rfl

theorem windows_yamuxWrite (c : Nat) (message : Bytes) :
    (yamuxWrite env ctx c message).2.windows = ctx.windows := by
  unfold yamuxWrite
  split
  · rfl
  · split
    · rfl
    · dsimp only
      split
      · split
        · exact (windows_getFlags _ c).trans (windows_streamWindowUpdate env ctx c _)
        · exact windows_streamWindowUpdate env ctx c _
      · exact windows_getFlags ctx c

theorem windows_handleUpgrade (c : Nat) : (handleUpgrade ctx c).2.windows = ctx.windows := by
  unfold handleUpgrade
  split
  · rfl
  · have hchild : (ctx.modifyChannel c fun channel => { channel with child := true }).windows =
        ctx.windows := windows_modifyChannel ctx c _ fun _ => rfl
    rename_i channel _
    dsimp only
    rcases hget : getSessionStream (ctx.modifyChannel c fun channel => { channel with child := true })
      channel.channel with ⟨found, ctx'⟩
    have hsame : ctx'.windows = ctx.windows :=
      (congrArg (fun pair => pair.2.windows) hget.symm).trans hchild
    cases found with
    | none => exact hsame
    | some i => exact hsame

theorem windows_yamuxWriteSession (message : Bytes) :
    (yamuxWriteSession env ctx message).2.windows = ctx.windows := by
  unfold yamuxWriteSession
  split
  · rfl
  · rename_i hest
    rw [getFlagsSession_est (not_not.mp hest)]
    rfl

theorem windows_sendGoAway (channel? : Option Nat) :
    (sendGoAway env ctx channel?).windows = ctx.windows := by
  unfold sendGoAway
  dsimp only
  split
  · rfl
  · exact windows_yamuxWriteSession env _ _

theorem windows_sessionClose (err : UInt32) : (sessionClose env ctx err).2.windows = ctx.windows := by
  unfold sessionClose
  split
  · rfl
  · exact windows_yamuxWriteSession env _ _

theorem windows_sessionPing (value : UInt32) (pong : Bool) :
    (sessionPing env ctx value pong).2.windows = ctx.windows := by
  unfold sessionPing
  split
  · rfl
  · split <;> rfl

theorem windows_decodeSession (f : Frame) : (decodeSession env ctx f).2.windows = ctx.windows := by
  unfold decodeSession
  split
  · split
    · exact windows_sessionPing env ctx _ _
    · split
      · split <;> rfl
      · rfl
  · split <;> rfl

theorem windows_decodeStream (i : Nat) (f : Frame) (incoming : Bytes) :
    (decodeStream env ctx i f incoming).2.windows = ctx.windows := by
  unfold decodeStream
  split
  · rfl
  · split
    · rfl
    · rename_i ctx' hflags
      have hsame : ctx'.windows = ctx.windows := by
        obtain rfl | ⟨state, rfl⟩ := decodeFlags_cases hflags <;> rfl
      exact (windows_streamProcess env ctx' i f _).trans hsame

theorem windows_acceptStream (c : Nat) (f : Frame) (incoming : Bytes) :
    (acceptStream env ctx c f incoming).2.windows = ctx.windows := by
  unfold acceptStream multistreamStreamNew
  rcases hget : getSessionStream ctx f.streamid with ⟨found, ctx'⟩
  have hsame : ctx'.windows = ctx.windows := congrArg (fun pair => pair.2.windows) hget.symm
  cases found with
  | none => exact hsame
  | some i =>
      have hprocess := windows_streamProcess env
        (ctx'.modifyStream i fun stream => { stream with state := .synRecv, windowSize := 0 }) i f
        (incoming.drop Frame.size)
      dsimp only
      rw [windows_yamuxWrite, windows_handleUpgrade]
      split
      · rw [windows_streamWindowUpdate, windows_setChannelState]
        exact hprocess.trans hsame
      · rw [windows_setChannelState]
        exact hprocess.trans hsame

theorem windows_streamFree (i : Nat) : (streamFree ctx i).windows = ctx.windows := by
  unfold streamFree
  split
  · rfl
  · dsimp only
    split <;> rfl

theorem windows_channelStreamNew (id : UInt32) (wraps : Bool) :
    (channelStreamNew ctx id wraps).2.windows = ctx.windows ++ [0] := List.map_append

theorem windows_channelNew (id : UInt32) : ctx.windows <+: (channelNew ctx id).2.windows := by
  unfold channelNew
  obtain ⟨nextid, hrest⟩ := pickId_rest ctx id
  have hnew : ctx.windows <+: (channelStreamNew (pickId ctx id).2 (pickId ctx id).1 false).2.windows := by
    rw [windows_channelStreamNew, hrest]
    exact List.prefix_append _ _
  have hsame : (pickId ctx id).2.windows = ctx.windows := by
    rw [hrest]
    rfl
  dsimp only
  split
  · exact hnew
  · split
    · exact hsame ▸ List.prefix_rfl
    · exact hnew

theorem windows_decodeNew (f : Frame) (incoming : Bytes) :
    ctx.windows <+: (decodeNew env ctx f incoming).2.2.windows := by
  unfold decodeNew
  split
  · have hnew := windows_channelNew ctx f.streamid
    dsimp only
    split
    · split <;> rename_i heq <;> rw [heq] at hnew
      · exact hnew
      · rename_i c ctx'
        exact (windows_acceptStream env ctx' c f incoming).symm ▸ hnew
    · exact List.prefix_rfl
  · exact List.prefix_rfl

theorem windows_decode (incoming : Bytes) :
    ctx.windows <+: (decode env ctx incoming).2.2.windows := by
  unfold decode
  split
  · exact List.prefix_rfl
  · rename_i f _
    split
    · exact List.prefix_rfl
    · split
      · exact (windows_decodeSession env ctx f).symm ▸ List.prefix_rfl
      · rcases hfind : findStream ctx f.streamid with ⟨found, ctx'⟩
        have hsame : ctx'.windows = ctx.windows := congrArg (fun pair => pair.2.windows) hfind.symm
        rw [← hsame]
        cases found with
        | none => exact windows_decodeNew env ctx' f incoming
        | some i => exact (windows_decodeStream env ctx' i f incoming).symm ▸ List.prefix_rfl

/-- The operations give a new channel context its window, and leave those of the others alone. -/
theorem step_windows (op : Op) : ctx.windows <+: (step env ctx op).windows := by
  have hkeep : ∀ {ctx' : Context}, ctx'.windows = ctx.windows → ctx.windows <+: ctx'.windows :=
    fun hsame => hsame ▸ List.prefix_rfl
  cases op with
  | channelNew id => exact windows_channelNew ctx id
  | streamFree i => exact hkeep (windows_streamFree ctx i)
  | handleMessage =>
      refine hkeep ?_
      unfold step handleMessage
      dsimp only
      split <;> rfl
  | decode incoming => exact windows_decode env ctx incoming
  | streamInit c => exact hkeep (windows_streamInit env ctx c)
  | streamWindowUpdate c delta => exact hkeep (windows_streamWindowUpdate env ctx c delta)
  | streamClose c => exact hkeep (windows_streamClose env ctx c)
  | streamCloseSession => exact hkeep rfl
  | streamReset c => exact hkeep (windows_streamReset env ctx c)
  | streamWrite c data rounds => exact hkeep (windows_streamWrite env ctx c data rounds)
  | write c message => exact hkeep (windows_yamuxWrite env ctx c message)
  | writeSession message => exact hkeep (windows_yamuxWriteSession env ctx message)
  | getNextId => exact hkeep rfl
  | handleUpgrade c => exact hkeep (windows_handleUpgrade ctx c)
  | sendGoAway channel? => exact hkeep (windows_sendGoAway env ctx channel?)
  | channelSendFin c =>
      refine hkeep ?_
      unfold step channelSendFin
      dsimp only
      split <;> rfl
  | sessionClose err => exact hkeep (windows_sessionClose env ctx err)
  | sessionPing value pong => exact hkeep (windows_sessionPing env ctx value pong)

end Operations

theorem run_windows (env : Env) (ctx : Context) (ops : List Op) :
    ctx.windows <+: (run (step env) ctx ops).windows := by
  induction ops generalizing ctx with
  | nil => exact List.prefix_rfl
  | cons op ops ih => exact (step_windows env ctx op).trans (ih (step env ctx op))

/-- A channel context keeps the window it was created with, whatever the session does. -/
theorem window_of_created (env : Env) (ctx : Context) (id : UInt32) (wraps : Bool) (ops : List Op) :
    ∃ channel, (run (step env) (channelStreamNew ctx id wraps).2 ops).channels[ctx.channels.length]? =
      some channel ∧ channel.windowSize = 0 := by
  have hcreated : (channelStreamNew ctx id wraps).2.windows[ctx.channels.length]? = some 0 := by
    simp [Context.windows, channelStreamNew]
  obtain ⟨later, hlater⟩ := run_windows env (channelStreamNew ctx id wraps).2 ops
  have hwindow : (run (step env) (channelStreamNew ctx id wraps).2 ops).windows[ctx.channels.length]? =
      some 0 := by
    obtain ⟨hlt, -⟩ := List.getElem?_eq_some_iff.mp hcreated
    rw [← hlater, List.getElem?_append_left hlt, hcreated]
  rw [Context.windows, List.getElem?_map, Option.map_eq_some_iff] at hwindow
  exact hwindow

/-! ### What the rounds send -/

theorem getFlags_parent (ctx : Context) (c : Nat) :
    (getFlags ctx c).2.outcomes = ctx.outcomes ∧ (getFlags ctx c).2.sent = ctx.sent := by
  have hslot : ∀ (ctx : Context) id state, (setSlotState ctx id state).outcomes = ctx.outcomes ∧
      (setSlotState ctx id state).sent = ctx.sent := by
    intro ctx id state
    unfold setSlotState
    rcases hget : getSessionStream ctx id with ⟨found, ctx'⟩
    obtain rfl := congrArg Prod.snd hget
    cases found <;> exact ⟨rfl, rfl⟩
  unfold getFlags
  split
  · exact ⟨rfl, rfl⟩
  · split
    · exact ⟨rfl, rfl⟩
    · exact hslot _ _ _

/-- A round asks the parent once, and what it sends ends in the data of the round. -/
theorem streamWriteRound_spec (env : Env) (c : Nat) (id : UInt32) (ctx : Context) (data : Bytes) :
    ∃ header ctx', header.length = Frame.size ∧
      streamWriteRound env c id ctx data = (ctx.outcomes.headD true, ctx') ∧
      ctx'.outcomes = ctx.outcomes.tail ∧
      ctx'.sent = if ctx.outcomes.headD true then ctx.sent ++ [header ++ data] else ctx.sent := by
  obtain ⟨houtcomes, hsent⟩ := getFlags_parent ctx c
  let f : Frame := ⟨yamuxVersion, frameData, (getFlags ctx c).1, id, UInt32.ofNat data.length⟩
  refine ⟨(encodeFrame env.host f).image env.host, (streamWriteRound env c id ctx data).2,
    Frame.length_image _ _, ?_, ?_, ?_⟩
  · rw [← houtcomes]
    rfl
  · rw [← houtcomes]
    rfl
  · rw [← houtcomes, ← hsent]
    rfl

/-- Whatever the window, the messages sent carry a prefix of the data in pieces that fit it. -/
theorem streamWriteLoop_sent (env : Env) (c : Nat) (id : UInt32) (ws total rounds : Nat) (ctx : Context)
    (data : Bytes) :
    ∃ sent, (streamWriteLoop env c id ws total rounds ctx data).2.sent = ctx.sent ++ sent ∧
      (sent.map (List.drop Frame.size)).flatten <+: data ∧
      ∀ message ∈ sent, (message.drop Frame.size).length ≤ ws := by
  induction rounds generalizing ctx data with
  | zero =>
      refine ⟨[], ?_, List.nil_prefix, fun _ hmem => absurd hmem List.not_mem_nil⟩
      cases data <;> rw [streamWriteLoop, List.append_nil]
  | succ rounds ih =>
      cases data with
      | nil =>
          refine ⟨[], ?_, List.nil_prefix, fun _ hmem => absurd hmem List.not_mem_nil⟩
          rw [streamWriteLoop, List.append_nil]
      | cons byte rest =>
          obtain ⟨header, ctx', hheader, hround, -, hsent⟩ :=
            streamWriteRound_spec env c id ctx ((byte :: rest).take ws)
          rw [streamWriteLoop, hround]
          cases hok : ctx.outcomes.headD true with
          | false =>
              rw [hok] at hsent
              exact ⟨[], by simpa using hsent, List.nil_prefix, fun _ hmem => absurd hmem List.not_mem_nil⟩
          | true =>
              rw [hok, if_pos rfl] at hsent
              obtain ⟨sent, hrest, hprefix, hpieces⟩ := ih ctx' ((byte :: rest).drop ws)
              have hpayload : (header ++ (byte :: rest).take ws).drop Frame.size =
                  (byte :: rest).take ws := List.drop_left' hheader
              refine ⟨(header ++ (byte :: rest).take ws) :: sent, ?_, ?_, ?_⟩
              · simp only [hrest, hsent, List.append_assoc, List.singleton_append]
              · rw [List.map_cons, List.flatten_cons, hpayload]
                have hwhole := (List.prefix_append_right_inj ((byte :: rest).take ws)).mpr hprefix
                rwa [List.take_append_drop] at hwhole
              · intro message hmem
                rcases List.mem_cons.mp hmem with rfl | hmem
                · rw [hpayload]
                  exact List.length_take_le _ _
                · exact hpieces message hmem

/-- With a window of zero a round makes no progress, and the loop is over once the parent refuses. -/
theorem streamWriteLoop_refused (env : Env) (c : Nat) (id : UInt32) (total : Nat) {ctx : Context}
    (hrefused : false ∈ ctx.outcomes) {data : Bytes} (hdata : data ≠ []) :
    ∃ rounds, (streamWriteLoop env c id 0 total rounds ctx data).1 = .returned 0 := by
  obtain ⟨byte, rest, rfl⟩ := List.exists_cons_of_ne_nil hdata
  generalize houtcomes : ctx.outcomes = outcomes at hrefused
  induction outcomes generalizing ctx with
  | nil => exact absurd hrefused List.not_mem_nil
  | cons ok outcomes ih =>
      obtain ⟨header, ctx', -, hround, htail, -⟩ := streamWriteRound_spec env c id ctx []
      rw [houtcomes] at hround htail
      cases ok with
      | false =>
          refine ⟨1, ?_⟩
          rw [streamWriteLoop, List.take_zero, hround]
          exact congrArg WriteRun.returned (min_eq_right (Int.natCast_nonneg _))
      | true =>
          obtain ⟨rounds, hrounds⟩ := ih htail (by simpa using hrefused)
          refine ⟨rounds + 1, ?_⟩
          rw [streamWriteLoop, List.take_zero, hround]
          exact hrounds

theorem streamWriteLoop_accepted (env : Env) (c : Nat) (id : UInt32) (total rounds : Nat) {ctx : Context}
    (haccepted : false ∉ ctx.outcomes) {data : Bytes} (hdata : data ≠ []) :
    (streamWriteLoop env c id 0 total rounds ctx data).1 = .looping data := by
  obtain ⟨byte, rest, rfl⟩ := List.exists_cons_of_ne_nil hdata
  induction rounds generalizing ctx with
  | zero => rw [streamWriteLoop]
  | succ rounds ih =>
      obtain ⟨header, ctx', -, hround, htail, -⟩ := streamWriteRound_spec env c id ctx []
      have hok : ctx.outcomes.headD true = true := by
        cases houtcomes : ctx.outcomes with
        | nil => rfl
        | cons ok outcomes =>
            rw [houtcomes] at haccepted
            cases ok with
            | false => exact absurd List.mem_cons_self haccepted
            | true => rfl
      rw [hok] at hround
      rw [streamWriteLoop, List.take_zero, hround]
      exact ih fun hmem => haccepted (List.mem_of_mem_tail (htail ▸ hmem))

/-! ### Writes that come to an end -/

/-- The payloads of the messages that the parent took between two states. -/
def payloadsSent (ctx ctx' : Context) : List Bytes :=
  (ctx'.sent.drop ctx.sent.length).map (List.drop Frame.size)

/-- The call returns, the payloads of its frames are a prefix of the data in pieces that fit the window,
and it returns how many bytes they hold. -/
def WritesPrefix (env : Env) (ctx : Context) (c : Nat) (window : UInt32) (data : Bytes) : Prop :=
  ∃ rounds value ctx', streamWrite env ctx c data rounds = (.returned value, ctx') ∧
    (payloadsSent ctx ctx').flatten <+: data ∧
    (∀ payload ∈ payloadsSent ctx ctx', payload.length ≤ window.toNat) ∧
    value = (payloadsSent ctx ctx').flatten.length

theorem writesPrefix_iff_of_closed_window (env : Env) {ctx : Context} {c : Nat}
    {channel : ChannelContext} (hchannel : ctx.channels[c]? = some channel)
    (hwindow : channel.windowSize = 0) {data : Bytes} (hdata : data ≠ []) :
    WritesPrefix env ctx c channel.windowSize data ↔ false ∈ ctx.outcomes := by
  have hcall : ∀ rounds, streamWrite env ctx c data rounds =
      streamWriteLoop env c channel.channel 0 data.length rounds ctx data := by
    intro rounds
    unfold streamWrite
    rw [hchannel]
    dsimp only
    rw [if_neg hdata, hwindow]
    rfl
  constructor
  · rintro ⟨rounds, value, ctx', hreturned, -⟩
    by_contra haccepted
    have hlooping := streamWriteLoop_accepted env c channel.channel data.length rounds haccepted hdata
    rw [← hcall, hreturned] at hlooping
    cases hlooping
  · intro hrefused
    obtain ⟨rounds, hreturned⟩ :=
      streamWriteLoop_refused env c channel.channel data.length hrefused hdata
    obtain ⟨sent, hsent, hprefix, hpieces⟩ :=
      streamWriteLoop_sent env c channel.channel 0 data.length rounds ctx data
    rw [← hcall] at hreturned hsent
    have hpayloads : payloadsSent ctx (streamWrite env ctx c data rounds).2 =
        sent.map (List.drop Frame.size) := by
      rw [payloadsSent, hsent, List.drop_left]
    have hempty : (sent.map (List.drop Frame.size)).flatten = [] := by
      rw [List.flatten_eq_nil_iff]
      intro payload hmem
      obtain ⟨message, hmessage, rfl⟩ := List.mem_map.mp hmem
      exact List.length_eq_zero_iff.mp (Nat.le_zero.mp (hpieces message hmessage))
    refine ⟨rounds, 0, (streamWrite env ctx c data rounds).2, Prod.ext hreturned rfl, ?_, ?_, ?_⟩
    · rw [hpayloads]
      exact hprefix
    · rw [hpayloads, hwindow]
      intro payload hmem
      obtain ⟨message, hmessage, rfl⟩ := List.mem_map.mp hmem
      exact hpieces message hmessage
    · rw [hpayloads, hempty]
      rfl

/-- **Writes that come to an end.** A write of data on a channel context, at any time after it was
created, does what it should exactly when the parent stream refuses one of the coming frames. -/
theorem streamWrite_ends_iff (env : Env) (ctx : Context) (id : UInt32) (wraps : Bool) (ops : List Op)
    {data : Bytes} (hdata : data ≠ []) :
    let ctx' := run (step env) (channelStreamNew ctx id wraps).2 ops
    ∃ channel, ctx'.channels[ctx.channels.length]? = some channel ∧
      (WritesPrefix env ctx' ctx.channels.length channel.windowSize data ↔ false ∈ ctx'.outcomes) := by
  obtain ⟨channel, hchannel, hwindow⟩ := window_of_created env ctx id wraps ops
  exact ⟨channel, hchannel, writesPrefix_iff_of_closed_window env hchannel hwindow hdata⟩

/-- The parent takes one frame and refuses the next. -/
theorem streamWrite_ends_iff_refused :
    [104, 105] ≠ ([] : Bytes) ∧ WritesPrefix ⟨.little, fun _ => false, true⟩
      (channelStreamNew (sessionStart 256 false .est [true, false]) 1 false).2 0 0 [104, 105] := by
  have hdata : [104, 105] ≠ ([] : Bytes) := by decide
  obtain ⟨channel, hchannel, hiff⟩ := streamWrite_ends_iff ⟨.little, fun _ => false, true⟩
    (sessionStart 256 false .est [true, false]) 1 false [] hdata
  obtain rfl := Option.some.inj hchannel
  exact ⟨hdata, hiff.mpr (by decide)⟩

/-- On a connection that takes every frame a write of one byte never returns. -/
theorem streamWrite_endless :
    ¬∀ (env : Env) (ctx : Context) (id : UInt32) (wraps : Bool) (data : Bytes), data ≠ [] →
      WritesPrefix env (channelStreamNew ctx id wraps).2 ctx.channels.length 0 data := by
  intro hall
  obtain ⟨rounds, value, ctx', hreturned, -⟩ :=
    hall ⟨.little, fun _ => false, true⟩ (sessionStart 256 false .est []) 1 false [104] (by decide)
  have hlooping := streamWriteLoop_accepted ⟨.little, fun _ => false, true⟩ 0 1 1 rounds
    (show false ∉ (channelStreamNew (sessionStart 256 false .est []) 1 false).2.outcomes from
      List.not_mem_nil) (show [104] ≠ ([] : Bytes) by decide)
  have hcall : streamWriteLoop ⟨.little, fun _ => false, true⟩ 0 1 0 1 rounds
      (channelStreamNew (sessionStart 256 false .est []) 1 false).2 [104] = (.returned value, ctx') :=
    hreturned
  rw [hcall] at hlooping
  cases hlooping

end CLibp2p.YamuxV1
