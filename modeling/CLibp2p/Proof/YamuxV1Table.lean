import CLibp2p.Machine.SlotTable
import CLibp2p.YamuxV1.Run

/-!
# The stream table of a v1 session

What the slots hold in terms of `Machine.SlotTable`. Opening a stream places its id, freeing one releases
it, and every other operation leaves ids and `alive` flags alone, whatever it does to the states, windows
and buffers of the streams.
-/

namespace CLibp2p.YamuxV1

open Duplex Machine

def SessionStream.entry (slot : SessionStream) : Slot UInt32 := ⟨slot.stream.id, slot.alive⟩

/-- The session's streams as a table of ids. -/
def Context.table (ctx : Context) : List (Slot UInt32) := ctx.streams.map SessionStream.entry

/-- No slot of the table points to a block that was given back. -/
def Context.Sound (ctx : Context) : Prop := ∀ slot ∈ ctx.streams, slot.freed = false

/-- `ctx'` is `ctx` up to the states, windows and buffers of its streams and what was written. A freed
block is used only if the table points to one. -/
structure SameTable (ctx ctx' : Context) : Prop where
  amServer : ctx'.amServer = ctx.amServer
  acceptBacklog : ctx'.acceptBacklog = ctx.acceptBacklog
  numStreams : ctx'.numStreams = ctx.numStreams
  nextid : ctx'.nextid = ctx.nextid
  table : ctx'.table = ctx.table
  freed : ctx'.streams.map SessionStream.freed = ctx.streams.map SessionStream.freed
  channels : ctx'.channels.map ChannelContext.channel = ctx.channels.map ChannelContext.channel
  sticky : ctx.fault → ctx'.fault
  fault : ctx.Sound → ctx'.fault = ctx.fault

theorem Context.sound_iff (ctx : Context) :
    ctx.Sound ↔ ∀ freed ∈ ctx.streams.map SessionStream.freed, freed = false := by
  simp only [Context.Sound, List.mem_map, forall_exists_index, and_imp, forall_apply_eq_imp_iff₂]

namespace SameTable

variable {ctx ctx' ctx'' : Context}

theorem refl (ctx : Context) : SameTable ctx ctx :=
  ⟨rfl, rfl, rfl, rfl, rfl, rfl, rfl, id, fun _ => rfl⟩

theorem sound (hsame : SameTable ctx ctx') : ctx'.Sound ↔ ctx.Sound := by
  rw [Context.sound_iff, Context.sound_iff, hsame.freed]

theorem trans (hfirst : SameTable ctx ctx') (hsecond : SameTable ctx' ctx'') : SameTable ctx ctx'' where
  amServer := hsecond.amServer.trans hfirst.amServer
  acceptBacklog := hsecond.acceptBacklog.trans hfirst.acceptBacklog
  numStreams := hsecond.numStreams.trans hfirst.numStreams
  nextid := hsecond.nextid.trans hfirst.nextid
  table := hsecond.table.trans hfirst.table
  freed := hsecond.freed.trans hfirst.freed
  channels := hsecond.channels.trans hfirst.channels
  sticky hfault := hsecond.sticky (hfirst.sticky hfault)
  fault hsound := (hsecond.fault (hfirst.sound.mpr hsound)).trans (hfirst.fault hsound)

theorem with_nextid (hsame : SameTable ctx ctx') (nextid : UInt32) :
    SameTable { ctx with nextid } { ctx' with nextid } :=
  ⟨hsame.amServer, hsame.acceptBacklog, hsame.numStreams, rfl, hsame.table, hsame.freed,
    hsame.channels, hsame.sticky, hsame.fault⟩

/-- An operation that leaves the table alone does so whatever it made of the next id. -/
theorem lift (hsame : SameTable ctx ctx') : SameTable { ctx with nextid := ctx'.nextid } ctx' :=
  hsame.with_nextid ctx'.nextid

theorem length (hsame : SameTable ctx ctx') : ctx'.streams.length = ctx.streams.length := by
  simpa [Context.table] using congrArg List.length hsame.table

end SameTable

/-! ### What operations are made of -/

/-- `ctx'` comes from `ctx` by changing states, windows and buffers, looking slots up, and writing
messages whose headers, if they have one, went through `encode_frame`. -/
inductive Effect (env : Env) (ctx : Context) : Context → Prop where
  | refl : Effect env ctx ctx
  | stream {ctx' : Context} (i : Nat) (change : YamuxStream → YamuxStream)
      (hid : ∀ stream, (change stream).id = stream.id) :
      Effect env ctx ctx' → Effect env ctx (ctx'.modifyStream i change)
  | channel {ctx' : Context} (c : Nat) (change : ChannelContext → ChannelContext)
      (hid : ∀ channel, (change channel).channel = channel.channel) :
      Effect env ctx ctx' → Effect env ctx (ctx'.modifyChannel c change)
  | search {ctx' : Context} (reads match? : SessionStream → Bool) :
      Effect env ctx ctx' → Effect env ctx (ctx'.firstSlot reads match?).2
  | marshal {ctx' : Context} (c : Nat) (message : Bytes) :
      Effect env ctx ctx' → Effect env ctx (ctx'.marshal c message)
  | write {ctx' : Context} (message : Bytes) :
      Effect env ctx ctx' → Effect env ctx (ctx'.parentWrite message).2
  | encoded {ctx' : Context} (f : Frame) (data : Bytes) :
      Effect env ctx ctx' → Effect env ctx (sendEncoded env ctx' f data).2

namespace Effect

variable {env : Env} {ctx ctx' ctx'' : Context}

theorem trans (hfirst : Effect env ctx ctx') (hsecond : Effect env ctx' ctx'') :
    Effect env ctx ctx'' := by
  induction hsecond with
  | refl => exact hfirst
  | stream i change hid _ ih => exact ih.stream i change hid
  | channel c change hid _ ih => exact ih.channel c change hid
  | search reads match? _ ih => exact ih.search reads match?
  | marshal c message _ ih => exact ih.marshal c message
  | write message _ ih => exact ih.write message
  | encoded f data _ ih => exact ih.encoded f data

theorem streamState (i : Nat) (state : StreamState) (heffect : Effect env ctx ctx') :
    Effect env ctx (ctx'.setStreamState i state) := heffect.stream i _ fun _ => rfl

theorem channelState (c : Nat) (state : StreamState) (heffect : Effect env ctx ctx') :
    Effect env ctx (ctx'.setChannelState c state) := heffect.channel c _ fun _ => rfl

theorem buffer (c : Nat) (buffer : Bytes) (heffect : Effect env ctx ctx') :
    Effect env ctx (ctx'.setBuffer c buffer) := heffect.channel c _ fun _ => rfl

end Effect

theorem map_modify_of_eq {α β : Type} (g : α → β) (change : α → α) (heq : ∀ a, g (change a) = g a)
    (l : List α) (i : Nat) : (l.modify i change).map g = l.map g := by
  apply List.ext_getElem?
  intro j
  rw [List.getElem?_map, List.getElem?_map, List.getElem?_modify]
  by_cases hij : i = j
  · simp only [if_pos hij, Option.map_eq_map, Option.map_map]
    exact congrArg (fun f => Option.map f l[j]?) (funext heq)
  · simp only [if_neg hij, id_map']

theorem firstSlot_eq {ctx : Context} {reads : SessionStream → Bool}
    (hreads : ∀ slot ∈ ctx.streams, reads slot → slot.freed = false)
    (match? : SessionStream → Bool) :
    ctx.firstSlot reads match? = (ctx.streams.findIdx? match?, ctx) := by
  have hnone : ∀ slots, slots ⊆ ctx.streams →
      (slots.any fun slot => slot.freed && reads slot) = false := by
    intro slots hsub
    rw [List.any_eq_false]
    intro slot hslot hboth
    rw [Bool.and_eq_true] at hboth
    rw [hreads slot (hsub hslot) hboth.2] at hboth
    exact Bool.false_ne_true hboth.1
  unfold Context.firstSlot
  cases ctx.streams.findIdx? match? with
  | none => simp only [hnone _ (List.Subset.refl _), Bool.or_false]
  | some i => simp only [hnone _ (List.take_subset _ _), Bool.or_false]

theorem modifyStream_sameTable (ctx : Context) (i : Nat) (change : YamuxStream → YamuxStream)
    (hid : ∀ stream, (change stream).id = stream.id) : SameTable ctx (ctx.modifyStream i change) :=
  { SameTable.refl ctx with
    table := map_modify_of_eq SessionStream.entry _
      (fun slot => by simp only [SessionStream.entry, hid]) _ _
    freed := map_modify_of_eq SessionStream.freed
      (fun slot => { slot with stream := change slot.stream }) (fun _ => rfl) _ _ }

theorem firstSlot_sameTable (ctx : Context) (reads match? : SessionStream → Bool) :
    SameTable ctx (ctx.firstSlot reads match?).2 :=
  { SameTable.refl ctx with
    sticky := fun hfault => by simp only [Context.firstSlot, hfault, Bool.true_or]
    fault := fun hsound => by rw [firstSlot_eq fun slot hslot _ => hsound slot hslot] }

theorem Effect.sameTable {env : Env} {ctx ctx' : Context} (heffect : Effect env ctx ctx') :
    SameTable ctx ctx' := by
  induction heffect with
  | refl => exact SameTable.refl ctx
  | stream i change hid _ ih => exact ih.trans (modifyStream_sameTable _ i change hid)
  | channel c change hid _ ih =>
      exact ih.trans { SameTable.refl _ with channels := map_modify_of_eq _ _ hid _ _ }
  | search reads match? _ ih => exact ih.trans (firstSlot_sameTable _ reads match?)
  | marshal c message _ ih => exact ih.trans { SameTable.refl _ with }
  | write message _ ih => exact ih.trans { SameTable.refl _ with }
  | encoded f data _ ih => exact ih.trans { SameTable.refl _ with }

/-! ### The operations -/

section Operations

variable (env : Env) (ctx : Context)

theorem setSlotState_effect (id : UInt32) (state : StreamState) :
    Effect env ctx (setSlotState ctx id state) := by
  unfold setSlotState
  have hfind : Effect env ctx (getSessionStream ctx id).2 := Effect.refl.search _ _
  split <;> rename_i heq <;> rw [heq] at hfind
  · exact hfind.streamState _ _
  · exact hfind

theorem writeFrame_effect (f : Frame) : Effect env ctx (writeFrame env ctx f).2 :=
  Effect.refl.encoded f []

theorem getFlags_effect (c : Nat) : Effect env ctx (getFlags ctx c).2 := by
  unfold getFlags
  split
  · exact Effect.refl
  · split
    · exact Effect.refl
    · exact (Effect.refl.channelState _ _).trans (setSlotState_effect env _ _ _)

theorem streamInit_effect (c : Nat) : Effect env ctx (streamInit env ctx c).2 := by
  unfold streamInit
  split
  · exact Effect.refl
  · split
    · exact Effect.refl
    · exact ((Effect.refl.channelState _ _).trans (setSlotState_effect env _ _ _)).encoded _ _

theorem streamClose_effect (c : Nat) : Effect env ctx (streamClose env ctx c).2 := by
  unfold streamClose
  split
  · exact Effect.refl
  · split
    · exact Effect.refl
    · exact (Effect.refl.channelState _ _).encoded _ _

theorem streamReset_effect (c : Nat) : Effect env ctx (streamReset env ctx c).2 := by
  unfold streamReset
  split
  · exact Effect.refl
  · split
    · exact Effect.refl
    · exact (Effect.refl.channelState _ _).encoded _ _

theorem streamWindowUpdate_effect (c : Nat) (delta : UInt32) :
    Effect env ctx (streamWindowUpdate env ctx c delta).2 := by
  unfold streamWindowUpdate
  split
  · exact Effect.refl
  · split
    · exact Effect.refl
    · exact (getFlags_effect env ctx c).encoded _ _

theorem streamWriteLoop_invariant {env : Env} {c : Nat} {id : UInt32} {P : Context → Prop}
    (hround : ∀ ctx data, P ctx → P (streamWriteRound env c id ctx data).2) (ws total rounds : Nat)
    {ctx : Context} (hP : P ctx) (data : Bytes) :
    P (streamWriteLoop env c id ws total rounds ctx data).2 := by
  induction rounds generalizing ctx data with
  | zero => cases data <;> exact hP
  | succ rounds ih =>
      cases data with
      | nil => exact hP
      | cons byte rest =>
          have hnext := hround ctx ((byte :: rest).take ws) hP
          rw [streamWriteLoop]
          split <;> rename_i heq <;> rw [heq] at hnext
          · exact hnext
          · exact ih hnext _

theorem streamWrite_effect (c : Nat) (data : Bytes) (rounds : Nat) :
    Effect env ctx (streamWrite env ctx c data rounds).2 := by
  unfold streamWrite
  split
  · exact Effect.refl
  · split
    · exact Effect.refl
    · refine streamWriteLoop_invariant (fun ctx' data heffect => ?_) _ _ rounds Effect.refl data
      exact (heffect.trans (getFlags_effect env ctx' c)).encoded _ _

theorem channelReceive_effect (i : Nat) (incoming : Bytes) :
    Effect env ctx (channelReceive env ctx i incoming).2 := by
  unfold channelReceive
  split
  · exact Effect.refl
  · split
    · exact Effect.refl
    · dsimp only
      split
      · exact Effect.refl
      · split
        · exact (Effect.refl.buffer _ _).marshal _ _
        · exact Effect.refl.buffer _ _

theorem streamProcess_effect (i : Nat) (f : Frame) (incoming : Bytes) :
    Effect env ctx (streamProcess env ctx i f incoming).2 := by
  unfold streamProcess
  split
  · refine Effect.trans ?_ (channelReceive_effect env _ i incoming)
    exact Effect.refl.stream i _ fun _ => rfl
  · split
    · split
      · exact Effect.refl
      · exact channelReceive_effect env ctx i incoming
    · exact Effect.refl

theorem yamuxWrite_effect (c : Nat) (message : Bytes) :
    Effect env ctx (yamuxWrite env ctx c message).2 := by
  unfold yamuxWrite
  split
  · exact Effect.refl
  · rename_i channel _
    by_cases hest : ctx.state ≠ .est
    · rw [if_pos hest]
      exact Effect.refl.write message
    · rw [if_neg hest]
      by_cases hinit : channel.state = .inited
      · have hopen := streamWindowUpdate_effect env ctx c defaultWindow
        simp only [if_pos hinit]
        split
        · exact (hopen.trans (getFlags_effect env _ c)).encoded _ _
        · exact hopen
      · simp only [if_neg hinit, if_true]
        exact (getFlags_effect env ctx c).encoded _ _

theorem handleUpgrade_effect (c : Nat) : Effect env ctx (handleUpgrade ctx c).2 := by
  unfold handleUpgrade
  split
  · exact Effect.refl
  · rename_i channel _
    have hchild : Effect env ctx (ctx.modifyChannel c fun channel => { channel with child := true }) :=
      Effect.refl.channel c _ fun _ => rfl
    have hfind : Effect env ctx (getSessionStream
        (ctx.modifyChannel c fun channel => { channel with child := true }) channel.channel).2 :=
      hchild.search _ _
    dsimp only
    split <;> rename_i heq <;> rw [heq] at hfind
    · exact hfind
    · exact hfind.stream _ (fun stream => { stream with channel := c }) fun _ => rfl

theorem multistreamStreamNew_effect (c : Nat) : Effect env ctx (multistreamStreamNew env ctx c).2 :=
  (handleUpgrade_effect env ctx c).trans (yamuxWrite_effect env _ c _)

theorem getParentChannelContext_eq_none (chain : List (Option Nat)) :
    getParentChannelContext chain = none := by
  induction chain with
  | nil => rfl
  | cons context below ih =>
      cases context with
      | none => exact ih
      | some c => rfl

/-- What the flags of a frame do to its slot; closing on FIN never reaches the channel. -/
theorem decodeFlags_eq (i : Nat) (slot : SessionStream) (f : Frame) :
    decodeFlags env ctx i slot f =
      if f.has frameRst ∨ f.has frameFin then some (ctx.setStreamState i .closed)
      else if f.has frameAck then
        if slot.stream.state = .synSent then some (ctx.setStreamState i .est) else none
      else if f.flags = 0 then some ctx else none := by
  unfold decodeFlags
  by_cases hrst : f.has frameRst
  · simp [hrst]
  · by_cases hfin : f.has frameFin
    · simp [hrst, hfin, getParentChannelContext_eq_none]
    · by_cases hack : f.has frameAck <;> simp [hrst, hfin, hack]

theorem decodeFlags_cases {env : Env} {ctx ctx' : Context} {i : Nat} {slot : SessionStream}
    {f : Frame} (hflags : decodeFlags env ctx i slot f = some ctx') :
    ctx' = ctx ∨ ∃ state, ctx' = ctx.setStreamState i state := by
  rw [decodeFlags_eq] at hflags
  split at hflags
  · exact Or.inr ⟨_, (Option.some.inj hflags).symm⟩
  · split at hflags
    · split at hflags
      · exact Or.inr ⟨_, (Option.some.inj hflags).symm⟩
      · cases hflags
    · split at hflags
      · exact Or.inl (Option.some.inj hflags).symm
      · cases hflags

theorem decodeStream_effect (i : Nat) (f : Frame) (incoming : Bytes) :
    Effect env ctx (decodeStream env ctx i f incoming).2 := by
  unfold decodeStream
  split
  · exact Effect.refl
  · split
    · exact Effect.refl
    · rename_i ctx' hflags
      refine Effect.trans ?_ (streamProcess_effect env ctx' i f _)
      obtain rfl | ⟨state, rfl⟩ := decodeFlags_cases hflags
      · exact Effect.refl
      · exact Effect.refl.streamState i state

theorem acceptStream_effect (c : Nat) (f : Frame) (incoming : Bytes) :
    Effect env ctx (acceptStream env ctx c f incoming).2 := by
  unfold acceptStream
  have hfind : Effect env ctx (getSessionStream ctx f.streamid).2 := Effect.refl.search _ _
  split <;> rename_i heq <;> rw [heq] at hfind
  · exact hfind
  · rename_i i ctx'
    have hprocess := ((hfind.stream i
      (fun stream => { stream with state := .synRecv, windowSize := 0 }) fun _ => rfl).trans
      (streamProcess_effect env _ i f (incoming.drop Frame.size))).channelState c .synRecv
    dsimp only
    split
    · exact (hprocess.trans (streamWindowUpdate_effect env _ c _)).trans
        (multistreamStreamNew_effect env _ c)
    · exact hprocess.trans (multistreamStreamNew_effect env _ c)

theorem getFlagsSession_est {ctx : Context} (hest : ctx.state = .est) :
    getFlagsSession ctx = (0, ctx) := by
  rw [getFlagsSession, hest]
  rfl

theorem yamuxWriteSession_effect (message : Bytes) :
    Effect env { ctx with nextid := (yamuxWriteSession env ctx message).2.nextid }
      (yamuxWriteSession env ctx message).2 := by
  unfold yamuxWriteSession
  by_cases hest : ctx.state = .est
  · rw [if_neg (not_not.mpr hest), getFlagsSession_est hest]
    exact Effect.refl.encoded _ _
  · rw [if_pos hest]
    exact Effect.refl.write message

end Operations

/-! ### What goes out unencoded -/

theorem emit_sameTable {ctx : Context} {f : Frame} {bytes : Bytes} :
    SameTable ctx (ctx.emit f bytes) := { SameTable.refl ctx with }

theorem sessionPing_sameTable (env : Env) (ctx : Context) (value : UInt32) (pong : Bool) :
    SameTable ctx (sessionPing env ctx value pong).2 := by
  unfold sessionPing
  split
  · exact SameTable.refl ctx
  · split
    · exact SameTable.refl ctx
    · exact { SameTable.refl ctx with }

theorem decodeSession_sameTable (env : Env) (ctx : Context) (f : Frame) :
    SameTable ctx (decodeSession env ctx f).2 := by
  unfold decodeSession
  split
  · split
    · exact sessionPing_sameTable _ _ _ _
    · split
      · split <;> exact SameTable.refl ctx
      · exact SameTable.refl ctx
  · split
    · exact { SameTable.refl ctx with }
    · exact SameTable.refl ctx

end CLibp2p.YamuxV1
