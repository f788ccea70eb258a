import CLibp2p.Proof.YamuxV1Slots

/-!
# Slots that are never given back

No inbound frame, open, close or reset frees a slot: FIN and RST mark the stream of a slot closed, a
local close or reset marks its channel, and both leave the slot alive. So the table only grows, and a new
inbound stream is refused once `accept_backlog` streams were opened, however many of them are over.
-/

namespace CLibp2p.YamuxV1

open Duplex Machine

/-- What is left of a session's table by an operation that neither opens nor frees. -/
theorem step_sameTable {env : Env} {ctx : Context} {op : Op} (hnew : ∀ id, op ≠ .channelNew id)
    (hfree : ∀ i, op ≠ .streamFree i) (hdecode : ∀ incoming, op ≠ .decode incoming) :
    SameTable { ctx with nextid := (step env ctx op).nextid } (step env ctx op) := by
  cases op with
  | channelNew id => exact absurd rfl (hnew id)
  | streamFree i => exact absurd rfl (hfree i)
  | decode incoming => exact absurd rfl (hdecode incoming)
  | handleMessage =>
      have hsame : SameTable ctx (handleMessage ctx).2 := by
        unfold handleMessage
        split
        · exact SameTable.refl ctx
        · exact { SameTable.refl ctx with }
      exact hsame.lift
  | streamInit c => exact (streamInit_effect env ctx c).sameTable.lift
  | streamWindowUpdate c delta => exact (streamWindowUpdate_effect env ctx c delta).sameTable.lift
  | streamClose c => exact (streamClose_effect env ctx c).sameTable.lift
  | streamCloseSession => exact (writeFrame_effect env ctx _).sameTable.lift
  | streamReset c => exact (streamReset_effect env ctx c).sameTable.lift
  | streamWrite c data rounds => exact (streamWrite_effect env ctx c data rounds).sameTable.lift
  | write c message => exact (yamuxWrite_effect env ctx c message).sameTable.lift
  | writeSession message => exact (yamuxWriteSession_effect env ctx message).sameTable
  | getNextId => exact { SameTable.refl { ctx with nextid := (getNextId ctx).2.nextid } with }
  | handleUpgrade c => exact (handleUpgrade_effect env ctx c).sameTable.lift
  | sendGoAway channel? =>
      change SameTable { ctx with nextid := (sendGoAway env ctx channel?).nextid }
        (sendGoAway env ctx channel?)
      unfold sendGoAway
      dsimp only
      split
      · exact { SameTable.refl ctx with }
      · exact (emit_sameTable.with_nextid _).trans (yamuxWriteSession_effect env _ _).sameTable
  | channelSendFin c =>
      have hsame : SameTable ctx (channelSendFin env ctx c) := by
        unfold channelSendFin
        split
        · exact SameTable.refl ctx
        · exact (Effect.refl.encoded _ _).sameTable
      exact hsame.lift
  | sessionClose err =>
      change SameTable { ctx with nextid := (sessionClose env ctx err).2.nextid }
        (sessionClose env ctx err).2
      unfold sessionClose
      split
      · exact SameTable.refl ctx
      · have hclosed : SameTable ctx { ctx with closed := true } := { SameTable.refl ctx with }
        exact ((hclosed.trans emit_sameTable).with_nextid _).trans
          (yamuxWriteSession_effect env _ _).sameTable
  | sessionPing value pong => exact (sessionPing_sameTable env ctx value pong).lift

/-! ### A table that only grows -/

/-- Every slot of the table holds a live stream. -/
structure Packed (ctx : Context) : Prop where
  alive : ∀ slot ∈ ctx.streams, slot.alive
  sound : ctx.Sound
  count : ctx.numStreams = ctx.streams.length
  bounded : ctx.streams.length ≤ ctx.acceptBacklog

theorem Packed.countLive {ctx : Context} (hpacked : Packed ctx) :
    ctx.numStreams = SlotTable.countLive ctx.table := by
  have hlive : SlotTable.countLive ctx.table = ctx.table.length :=
    SlotTable.countLive_eq_length.mpr (List.forall_mem_map.mpr hpacked.alive)
  rw [hlive, Context.table, List.length_map, hpacked.count]

theorem Packed.of_sameTable {ctx ctx' : Context} (hpacked : Packed ctx) (hsame : SameTable ctx ctx') :
    Packed ctx' where
  alive := by
    have hlive := firstDead_table_eq_none.mpr hpacked.alive
    rw [← hsame.table] at hlive
    exact firstDead_table_eq_none.mp hlive
  sound := hsame.sound.mpr hpacked.sound
  count := by rw [hsame.numStreams, hsame.length, hpacked.count]
  bounded := by rw [hsame.length, hsame.acceptBacklog]; exact hpacked.bounded

theorem Packed.with_nextid {ctx : Context} (hpacked : Packed ctx) (nextid : UInt32) :
    Packed { ctx with nextid } :=
  ⟨hpacked.alive, hpacked.sound, hpacked.count, hpacked.bounded⟩

theorem Packed.channelNew_eq {ctx : Context} (hpacked : Packed ctx) (id : UInt32) :
    channelNew ctx id =
      if ctx.streams.length = ctx.acceptBacklog then (none, (pickId ctx id).2)
      else (some ctx.channels.length, (appendSlot (pickId ctx id).2 (pickId ctx id).1).2) := by
  have hdead := firstDead_table_eq_none.mpr hpacked.alive
  obtain ⟨i, hsome, -⟩ | ⟨-, hfull, hnew⟩ | ⟨-, hroom, hnew⟩ :=
    channelNew_cases hpacked.countLive id
  · rw [hdead] at hsome
    cases hsome
  · rw [hnew, if_pos hfull]
  · rw [hnew, if_neg hroom]

theorem packed_appendSlot {ctx : Context} (hpacked : Packed ctx)
    (hroom : ctx.streams.length ≠ ctx.acceptBacklog) (id : UInt32) : Packed (appendSlot ctx id).2 := by
  have hlength : (appendSlot ctx id).2.streams.length = ctx.streams.length + 1 := List.length_append
  refine ⟨?_, ?_, ?_, ?_⟩
  · intro slot hslot
    rcases List.mem_append.mp hslot with hold | hlast
    · exact hpacked.alive slot hold
    · rw [List.mem_singleton.mp hlast]
  · intro slot hslot
    rcases List.mem_append.mp hslot with hold | hlast
    · exact hpacked.sound slot hold
    · rw [List.mem_singleton.mp hlast]
  · rw [hlength, ← hpacked.count]
    rfl
  · rw [hlength]
    exact lt_of_le_of_ne hpacked.bounded hroom

theorem packed_channelNew {ctx : Context} (hpacked : Packed ctx) (id : UInt32) :
    Packed (channelNew ctx id).2 := by
  rw [hpacked.channelNew_eq]
  obtain ⟨nextid, hrest⟩ := pickId_rest ctx id
  by_cases hfull : ctx.streams.length = ctx.acceptBacklog
  · rw [if_pos hfull, hrest]
    exact hpacked.with_nextid nextid
  · rw [if_neg hfull, hrest]
    exact packed_appendSlot (hpacked.with_nextid nextid) hfull _

theorem packed_step {env : Env} {ctx : Context} {op : Op} (hpacked : Packed ctx)
    (hfree : ∀ i, op ≠ .streamFree i) : Packed (step env ctx op) := by
  by_cases hnew : ∃ id, op = .channelNew id
  · obtain ⟨id, rfl⟩ := hnew
    exact packed_channelNew hpacked id
  · by_cases hdecode : ∃ incoming, op = .decode incoming
    · obtain ⟨incoming, rfl⟩ := hdecode
      obtain ⟨-, hsame, -⟩ | ⟨f, -, -, hsame⟩ :=
        decode_cases env incoming fun slot hslot _ => hpacked.sound slot hslot
      · exact hpacked.of_sameTable hsame
      · exact (packed_channelNew hpacked f.streamid).of_sameTable hsame
    · push Not at hnew hdecode
      exact (hpacked.with_nextid _).of_sameTable (step_sameTable hnew hfree hdecode)

theorem packed_sessionStart (acceptBacklog : Nat) (amServer : Bool) (state : StreamState)
    (outcomes : List Bool) : Packed (sessionStart acceptBacklog amServer state outcomes) where
  alive _ hslot := absurd hslot List.not_mem_nil
  sound _ hslot := absurd hslot List.not_mem_nil
  count := rfl
  bounded := Nat.zero_le _

theorem packed_run {env : Env} {ctx : Context} {ops : List Op} (hpacked : Packed ctx)
    (hops : ∀ op ∈ ops, ∀ i, op ≠ .streamFree i) : Packed (run (step env) ctx ops) := by
  induction ops generalizing ctx with
  | nil => exact hpacked
  | cons op ops ih =>
      exact ih (packed_step hpacked (hops op List.mem_cons_self))
        fun other hother => hops other (List.mem_cons_of_mem op hother)

/-! ### Accepting an inbound stream -/

/-- The peer closed or reset the stream of the slot, or this side closed or reset its channel. -/
def isOver (ctx : Context) (slot : SessionStream) : Bool :=
  slot.stream.state == .closed ||
    (ctx.channels[slot.stream.channel]?.map ChannelContext.state).any fun state =>
      state == .closing || state == .closed

/-- How many streams are neither closed nor reset. -/
def openStreams (ctx : Context) : Nat :=
  ctx.streams.countP fun slot => slot.alive && !isOver ctx slot

/-- A SYN of the right parity whose id no slot of the table holds. -/
structure UnusedSyn (env : Env) (ctx : Context) (incoming : Bytes) (f : Frame) : Prop where
  read : Frame.read env.host incoming = some f
  version : f.version = yamuxVersion
  nonzero : f.streamid ≠ 0
  syn : f.has frameSyn
  parity : inboundParity ctx f.streamid
  unused : ∀ slot ∈ ctx.streams, slot.stream.id ≠ f.streamid

/-- The frame leaves a live stream with this id behind. -/
def Accepts (env : Env) (ctx : Context) (incoming : Bytes) (id : UInt32) : Prop :=
  ∃ slot ∈ (decode env ctx incoming).2.2.streams, slot.alive ∧ slot.stream.id = id

theorem UnusedSyn.newInbound {env : Env} {ctx : Context} {incoming : Bytes} {f : Frame}
    (hsyn : UnusedSyn env ctx incoming f) : newInbound env ctx incoming = some f := by
  have hfind : (findStream ctx f.streamid).1 = none := by
    refine List.findIdx?_eq_none_iff.mpr fun slot hslot => ?_
    have hne := hsyn.unused slot hslot
    simp [hne]
  simp [YamuxV1.newInbound, hsyn.read, hsyn.version, hsyn.nonzero, hfind, hsyn.syn, hsyn.parity]

theorem accepts_iff_mem_table {env : Env} {ctx : Context} {incoming : Bytes} {id : UInt32} :
    Accepts env ctx incoming id ↔ (⟨id, true⟩ : Slot UInt32) ∈ (decode env ctx incoming).2.2.table := by
  unfold Accepts Context.table
  rw [List.mem_map]
  refine exists_congr fun slot => and_congr_right fun _ => ?_
  simp only [SessionStream.entry, Slot.mk.injEq]
  exact And.comm

/-- A new inbound stream is accepted as long as the table has room for one more slot. -/
theorem Packed.accepts_iff {env : Env} {ctx : Context} (hpacked : Packed ctx) {incoming : Bytes}
    {f : Frame} (hsyn : UnusedSyn env ctx incoming f) :
    Accepts env ctx incoming f.streamid ↔ ctx.streams.length < ctx.acceptBacklog := by
  obtain ⟨hnone, -⟩ | ⟨f', hnew, hid, hsame⟩ :=
    decode_cases env incoming fun slot hslot _ => hpacked.sound slot hslot
  · rw [hsyn.newInbound] at hnone
    cases hnone
  · obtain rfl : f = f' := by
      rw [hsyn.newInbound] at hnew
      exact Option.some.inj hnew
    have hbound := hpacked.bounded
    rw [accepts_iff_mem_table, hsame.table, hpacked.channelNew_eq]
    by_cases hfull : ctx.streams.length = ctx.acceptBacklog
    · rw [if_pos hfull, table_pickId]
      refine iff_of_false ?_ (by omega)
      intro hmem
      obtain ⟨slot, hslot, hentry⟩ := List.mem_map.mp hmem
      exact hsyn.unused slot hslot (congrArg Slot.key hentry)
    · rw [if_neg hfull, table_appendSlot, pickId_fst_of_ne hid]
      refine iff_of_true ?_ (by omega)
      exact List.mem_append_right _ (List.mem_singleton.mpr rfl)

theorem openStreams_le (ctx : Context) : openStreams ctx ≤ ctx.streams.length :=
  List.countP_le_length

theorem Packed.openStreams_eq_length {ctx : Context} (hpacked : Packed ctx) :
    openStreams ctx = ctx.streams.length ↔ ∀ slot ∈ ctx.streams, isOver ctx slot = false := by
  rw [openStreams, List.countP_eq_length]
  refine forall₂_congr fun slot hslot => ?_
  rw [hpacked.alive slot hslot, Bool.true_and, Bool.not_eq_true']

/-- **When closed streams use up the backlog.** After any run without frees, an unused SYN is accepted
whenever fewer than `accept_backlog` streams are open exactly if the table has a slot left or every
stream in it is still open. -/
theorem accepts_of_backlog_iff (env : Env) (acceptBacklog : Nat) (amServer : Bool) (state : StreamState)
    (outcomes : List Bool) (ops : List Op) (hops : ∀ op ∈ ops, ∀ i, op ≠ .streamFree i) :
    ∀ incoming f, let ctx := run (step env) (sessionStart acceptBacklog amServer state outcomes) ops
      UnusedSyn env ctx incoming f →
      ((openStreams ctx < ctx.acceptBacklog → Accepts env ctx incoming f.streamid) ↔
        (ctx.streams.length < ctx.acceptBacklog ∨
          ∀ slot ∈ ctx.streams, isOver ctx slot = false)) := by
  intro incoming f ctx hsyn
  have hpacked : Packed ctx :=
    packed_run (packed_sessionStart acceptBacklog amServer state outcomes) hops
  have hbound := hpacked.bounded
  have hopen := openStreams_le ctx
  rw [hpacked.accepts_iff hsyn, ← hpacked.openStreams_eq_length]
  omega

def synFrame (id : UInt32) : Frame := ⟨0, frameWindowUpdate, frameSyn, id, 0⟩

def rstFrame (id : UInt32) : Frame := ⟨0, frameWindowUpdate, frameRst, id, 0⟩

/-- With a backlog of two there is still room after a stream that the peer opened and reset. -/
theorem accepts_of_backlog_iff_afterReset :
    UnusedSyn ⟨.little, fun _ => false, true⟩
        (run (step ⟨.little, fun _ => false, true⟩) (sessionStart 2 true .est [])
          [.decode (synFrame 1).network, .decode (rstFrame 1).network])
        (synFrame 3).network (synFrame 3) ∧
      Accepts ⟨.little, fun _ => false, true⟩
        (run (step ⟨.little, fun _ => false, true⟩) (sessionStart 2 true .est [])
          [.decode (synFrame 1).network, .decode (rstFrame 1).network])
        (synFrame 3).network 3 := by
  have hsyn : UnusedSyn ⟨.little, fun _ => false, true⟩
      (run (step ⟨.little, fun _ => false, true⟩) (sessionStart 2 true .est [])
        [.decode (synFrame 1).network, .decode (rstFrame 1).network])
      (synFrame 3).network (synFrame 3) :=
    ⟨Frame.read_network _ _, rfl, by decide, by decide, by decide, by decide⟩
  refine ⟨hsyn, ?_⟩
  exact (accepts_of_backlog_iff ⟨.little, fun _ => false, true⟩ 2 true .est []
    [.decode (synFrame 1).network, .decode (rstFrame 1).network] (by simp) (synFrame 3).network
    (synFrame 3) hsyn).mpr (Or.inl (by decide)) (by decide)

/-- One stream that the peer opened and reset leaves a backlog of one without room. -/
theorem accepts_after_reset_fails :
    ¬∀ (env : Env) (acceptBacklog : Nat) (amServer : Bool) (ops : List Op)
      (incoming : Bytes) (f : Frame), (∀ op ∈ ops, ∀ i, op ≠ .streamFree i) →
      let ctx := run (step env) (sessionNew acceptBacklog amServer) ops
      UnusedSyn env ctx incoming f → openStreams ctx < ctx.acceptBacklog →
        Accepts env ctx incoming f.streamid := by
  intro hall
  have haccepts := hall ⟨.little, fun _ => false, true⟩ 1 true
    [.decode (synFrame 1).network, .decode (rstFrame 1).network] (synFrame 3).network (synFrame 3)
    (by simp) ⟨Frame.read_network _ _, rfl, by decide, by decide, by decide, by decide⟩ (by decide)
  obtain ⟨slot, hslot, -, hid⟩ := haccepts
  revert slot
  decide

end CLibp2p.YamuxV1
