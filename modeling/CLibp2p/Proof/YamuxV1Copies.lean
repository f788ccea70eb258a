import CLibp2p.Proof.YamuxV1Backlog

/-!
# The two states of a v1 stream

A stream has one state in its slot and another in its channel context. What an operation does to the two
is stated here for each: most leave both alone, and sending the flag that is due moves the channel and
the first slot with its id.
-/

namespace CLibp2p.YamuxV1

open Duplex Machine

/-! ### The two copies -/

def Context.slotStates (ctx : Context) : List StreamState :=
  ctx.streams.map fun slot => slot.stream.state

def Context.channelStates (ctx : Context) : List StreamState :=
  ctx.channels.map ChannelContext.state

/-- The channel context of each slot. -/
def Context.owners (ctx : Context) : List Nat := ctx.streams.map fun slot => slot.stream.channel

/-- Each live slot has the state of its channel. -/
def StatesAgree (ctx : Context) : Prop :=
  ∀ slot ∈ ctx.streams, slot.alive →
    ∃ channel, ctx.channels[slot.stream.channel]? = some channel ∧ channel.state = slot.stream.state

/-- Slot `i` holds the stream of channel context `i`, under its id. -/
structure Paired (ctx : Context) : Prop where
  packed : Packed ctx
  ids : ctx.streams.map (fun slot => slot.stream.id) = ctx.channels.map ChannelContext.channel
  owners : ctx.owners = List.range ctx.streams.length
  usable : ∀ channel ∈ ctx.channels, channel.closed = false

namespace Paired

variable {ctx : Context}

theorem length (hpaired : Paired ctx) : ctx.streams.length = ctx.channels.length := by
  simpa using congrArg List.length hpaired.ids

theorem owner (hpaired : Paired ctx) {i : Nat} (hi : i < ctx.streams.length) :
    ctx.streams[i].stream.channel = i := by
  have howner : ctx.owners[i]? = some i := by
    rw [hpaired.owners, List.getElem?_range hi]
  simpa [Context.owners, hi] using howner

theorem statesAgree_iff (hpaired : Paired ctx) : StatesAgree ctx ↔ ctx.slotStates = ctx.channelStates := by
  have hlength := hpaired.length
  constructor
  · intro hagree
    apply List.ext_getElem
    · simpa [Context.slotStates, Context.channelStates] using hlength
    · intro i hslot hchannel
      have hi : i < ctx.streams.length := by simpa [Context.slotStates] using hslot
      obtain ⟨channel, hat, hstate⟩ :=
        hagree _ (List.getElem_mem hi) (hpaired.packed.alive _ (List.getElem_mem hi))
      rw [hpaired.owner hi, List.getElem?_eq_some_iff] at hat
      obtain ⟨_, rfl⟩ := hat
      simpa [Context.slotStates, Context.channelStates] using hstate.symm
  · intro hstates slot hslot _
    obtain ⟨i, hi, rfl⟩ := List.getElem_of_mem hslot
    have hc : i < ctx.channels.length := hlength ▸ hi
    refine ⟨ctx.channels[i], ?_, ?_⟩
    · rw [hpaired.owner hi, List.getElem?_eq_getElem hc]
    · have hat := congrArg (·[i]?) hstates
      simpa [Context.slotStates, Context.channelStates, hi, hc] using hat.symm

end Paired

/-- What ties the slots to the channels is the same in both. -/
structure SameOwners (ctx ctx' : Context) : Prop extends SameTable ctx ctx' where
  owners : ctx'.owners = ctx.owners
  usable : (∀ channel ∈ ctx.channels, channel.closed = false) →
    ∀ channel ∈ ctx'.channels, channel.closed = false

/-- Neither copy of a state changed. -/
structure SameStates (ctx ctx' : Context) : Prop extends SameOwners ctx ctx' where
  slots : ctx'.slotStates = ctx.slotStates
  channelsStates : ctx'.channelStates = ctx.channelStates

theorem SameOwners.refl (ctx : Context) : SameOwners ctx ctx := ⟨SameTable.refl ctx, rfl, id⟩

theorem SameOwners.trans {ctx ctx' ctx'' : Context} (hfirst : SameOwners ctx ctx')
    (hsecond : SameOwners ctx' ctx'') : SameOwners ctx ctx'' :=
  ⟨hfirst.toSameTable.trans hsecond.toSameTable, hsecond.owners.trans hfirst.owners,
    fun husable => hsecond.usable (hfirst.usable husable)⟩

theorem SameStates.refl (ctx : Context) : SameStates ctx ctx := ⟨SameOwners.refl ctx, rfl, rfl⟩

theorem SameStates.trans {ctx ctx' ctx'' : Context} (hfirst : SameStates ctx ctx')
    (hsecond : SameStates ctx' ctx'') : SameStates ctx ctx'' :=
  ⟨hfirst.toSameOwners.trans hsecond.toSameOwners, hsecond.slots.trans hfirst.slots,
    hsecond.channelsStates.trans hfirst.channelsStates⟩

theorem Paired.of_sameOwners {ctx ctx' : Context} (hpaired : Paired ctx) (hsame : SameOwners ctx ctx') :
    Paired ctx' where
  packed := hpaired.packed.of_sameTable hsame.toSameTable
  ids := by
    have hids := congrArg (List.map Slot.key) hsame.table
    simp only [Context.table, List.map_map] at hids
    rw [hsame.channels, ← hpaired.ids]
    exact hids
  owners := by rw [hsame.owners, hsame.length, hpaired.owners]
  usable := hsame.usable hpaired.usable

/-! ### What leaves both copies alone -/

/-- Change every stream's record of slot `i` in one of the views of the table. -/
theorem modifyStream_view {β : Type} (g : YamuxStream → β) (ctx : Context) (i : Nat)
    {change : YamuxStream → YamuxStream} {b : β} (heq : ∀ stream, g (change stream) = b) :
    (ctx.modifyStream i change).streams.map (fun slot => g slot.stream) =
      (ctx.streams.map fun slot => g slot.stream).set i b :=
  map_modify_eq_set (fun slot : SessionStream => g slot.stream)
    (fun slot => { slot with stream := change slot.stream }) b (fun slot => heq slot.stream) _ _

theorem modifyStream_view_of_eq {β : Type} (g : YamuxStream → β) (ctx : Context) (i : Nat)
    {change : YamuxStream → YamuxStream} (heq : ∀ stream, g (change stream) = g stream) :
    (ctx.modifyStream i change).streams.map (fun slot => g slot.stream) =
      ctx.streams.map fun slot => g slot.stream :=
  map_modify_of_eq (fun slot : SessionStream => g slot.stream)
    (fun slot => { slot with stream := change slot.stream }) (fun slot => heq slot.stream) _ _

theorem modifyStream_sameOwners (ctx : Context) (i : Nat) (change : YamuxStream → YamuxStream)
    (hid : ∀ stream, (change stream).id = stream.id)
    (howner : ∀ stream, (change stream).channel = stream.channel) :
    SameOwners ctx (ctx.modifyStream i change) where
  toSameTable := modifyStream_sameTable ctx i change hid
  owners := modifyStream_view_of_eq YamuxStream.channel ctx i howner
  usable := id

theorem modifyChannel_sameOwners (ctx : Context) (c : Nat) (change : ChannelContext → ChannelContext)
    (hid : ∀ channel, (change channel).channel = channel.channel)
    (hclosed : ∀ channel, (change channel).closed = channel.closed) :
    SameOwners ctx (ctx.modifyChannel c change) where
  toSameTable := { SameTable.refl ctx with channels := map_modify_of_eq _ _ hid _ _ }
  owners := rfl
  usable := by
    intro husable channel hchannel
    have hmem := List.mem_map_of_mem (f := ChannelContext.closed) hchannel
    change channel.closed ∈ (ctx.channels.modify c change).map ChannelContext.closed at hmem
    rw [map_modify_of_eq _ _ hclosed] at hmem
    obtain ⟨old, hold, heq⟩ := List.mem_map.mp hmem
    rw [← heq, husable old hold]

section Operations

variable (env : Env) (ctx : Context)

theorem sendEncoded_sameStates (f : Frame) (data : Bytes) :
    SameStates ctx (sendEncoded env ctx f data).2 :=
  ⟨⟨(Effect.refl.encoded f data).sameTable, rfl, id⟩, rfl, rfl⟩

theorem parentWrite_sameStates (message : Bytes) : SameStates ctx (ctx.parentWrite message).2 :=
  ⟨⟨{ SameTable.refl ctx with }, rfl, id⟩, rfl, rfl⟩

theorem firstSlot_sameStates (reads match? : SessionStream → Bool) :
    SameStates ctx (ctx.firstSlot reads match?).2 :=
  ⟨⟨firstSlot_sameTable ctx reads match?, rfl, id⟩, rfl, rfl⟩

theorem setBuffer_sameStates (c : Nat) (buffer : Bytes) : SameStates ctx (ctx.setBuffer c buffer) :=
  ⟨modifyChannel_sameOwners ctx c _ (fun _ => rfl) fun _ => rfl, rfl,
    map_modify_of_eq _ (fun channel : ChannelContext => { channel with buffer }) (fun _ => rfl) _ _⟩

theorem setWindow_sameStates (i : Nat) (window : YamuxStream → UInt32) :
    SameStates ctx (ctx.modifyStream i fun stream => { stream with windowSize := window stream }) :=
  ⟨modifyStream_sameOwners ctx i _ (fun _ => rfl) fun _ => rfl,
    modifyStream_view_of_eq YamuxStream.state ctx i fun _ => rfl, rfl⟩

theorem channelReceive_sameStates (i : Nat) (incoming : Bytes) :
    SameStates ctx (channelReceive env ctx i incoming).2 := by
  unfold channelReceive
  split
  · exact SameStates.refl ctx
  · split
    · exact SameStates.refl ctx
    · dsimp only
      split
      · exact SameStates.refl ctx
      · split
        · exact (setBuffer_sameStates ctx _ []).trans
            ⟨⟨{ SameTable.refl _ with }, rfl, id⟩, rfl, rfl⟩
        · exact setBuffer_sameStates ctx _ _

theorem streamProcess_sameStates (i : Nat) (f : Frame) (incoming : Bytes) :
    SameStates ctx (streamProcess env ctx i f incoming).2 := by
  unfold streamProcess
  split
  · refine SameStates.trans ?_ (channelReceive_sameStates env _ i incoming)
    exact setWindow_sameStates ctx i fun stream => stream.windowSize + f.length
  · split
    · split
      · exact SameStates.refl ctx
      · exact channelReceive_sameStates env ctx i incoming
    · exact SameStates.refl ctx

theorem sessionPing_sameStates (value : UInt32) (pong : Bool) :
    SameStates ctx (sessionPing env ctx value pong).2 := by
  unfold sessionPing
  split
  · exact SameStates.refl ctx
  · split
    · exact SameStates.refl ctx
    · exact ⟨⟨{ SameTable.refl ctx with }, rfl, id⟩, rfl, rfl⟩

theorem decodeSession_sameStates (f : Frame) : SameStates ctx (decodeSession env ctx f).2 := by
  unfold decodeSession
  split
  · split
    · exact sessionPing_sameStates env ctx _ _
    · split
      · split <;> exact SameStates.refl ctx
      · exact SameStates.refl ctx
  · split
    · exact ⟨⟨{ SameTable.refl ctx with }, rfl, id⟩, rfl, rfl⟩
    · exact SameStates.refl ctx

end Operations

/-! ### Sending the flag that is due -/

/-- The first slot with the id of channel context `c`. -/
def slotOf (ctx : Context) (c : Nat) : Option Nat :=
  ctx.channels[c]?.bind fun channel =>
    ctx.streams.findIdx? fun slot => slot.stream.id == channel.channel

/-- Channel `c` and the slot that its id leads to were moved to `state`. -/
structure Moved (ctx : Context) (c : Nat) (state : StreamState) (ctx' : Context) : Prop
    extends SameOwners ctx ctx' where
  slots : ctx'.slotStates = (slotOf ctx c).elim ctx.slotStates (ctx.slotStates.set · state)
  channelsStates : ctx'.channelStates = ctx.channelStates.set c state

theorem Moved.trans {ctx ctx' ctx'' : Context} {c : Nat} {state : StreamState}
    (hmoved : Moved ctx c state ctx') (hsame : SameStates ctx' ctx'') : Moved ctx c state ctx'' :=
  ⟨hmoved.toSameOwners.trans hsame.toSameOwners, hsame.slots.trans hmoved.slots,
    hsame.channelsStates.trans hmoved.channelsStates⟩

theorem setStreamState_sameOwners (ctx : Context) (i : Nat) (state : StreamState) :
    SameOwners ctx (ctx.setStreamState i state) :=
  modifyStream_sameOwners ctx i _ (fun _ => rfl) fun _ => rfl

theorem slotStates_setStreamState (ctx : Context) (i : Nat) (state : StreamState) :
    (ctx.setStreamState i state).slotStates = ctx.slotStates.set i state :=
  modifyStream_view YamuxStream.state ctx i fun _ => rfl

theorem setChannelState_sameOwners (ctx : Context) (c : Nat) (state : StreamState) :
    SameOwners ctx (ctx.setChannelState c state) :=
  modifyChannel_sameOwners ctx c _ (fun _ => rfl) fun _ => rfl

theorem channelStates_setChannelState (ctx : Context) (c : Nat) (state : StreamState) :
    (ctx.setChannelState c state).channelStates = ctx.channelStates.set c state :=
  map_modify_eq_set _ (fun channel : ChannelContext => { channel with state }) state (fun _ => rfl) _ _

/-- `get_flags` and `yamux_stream_init` set the channel first and then the slot with its id. -/
theorem setSlotState_moved {ctx : Context} {c : Nat} {channel : ChannelContext}
    (hchannel : ctx.channels[c]? = some channel) (state : StreamState) :
    Moved ctx c state (setSlotState (ctx.setChannelState c state) channel.channel state) := by
  have hslot : slotOf ctx c =
      (getSessionStream (ctx.setChannelState c state) channel.channel).1 := by
    rw [slotOf, hchannel]
    rfl
  have hfind := firstSlot_sameStates (ctx.setChannelState c state) (fun _ => true)
    fun slot => slot.stream.id == channel.channel
  have hset := (setChannelState_sameOwners ctx c state).trans hfind.toSameOwners
  change SameOwners ctx (getSessionStream (ctx.setChannelState c state) channel.channel).2 at hset
  have hslots : (getSessionStream (ctx.setChannelState c state) channel.channel).2.slotStates =
      ctx.slotStates := hfind.slots
  have hchannels : (getSessionStream (ctx.setChannelState c state) channel.channel).2.channelStates =
      ctx.channelStates.set c state :=
    hfind.channelsStates.trans (channelStates_setChannelState ctx c state)
  unfold setSlotState
  rcases hget : getSessionStream (ctx.setChannelState c state) channel.channel with ⟨found, ctx'⟩
  rw [hget] at hslot hset hslots hchannels
  cases found with
  | none => exact ⟨hset, by rw [hslot]; exact hslots, hchannels⟩
  | some i =>
      refine ⟨hset.trans (setStreamState_sameOwners ctx' i state), ?_, hchannels⟩
      rw [hslot, slotStates_setStreamState, hslots]
      rfl

/-- The state that the next flag of channel `c` moves it to. -/
def due (ctx : Context) (c : Nat) : Option StreamState :=
  ctx.channelStates[c]?.bind fun state => (nextFlags state).map Prod.snd

theorem due_eq {ctx : Context} {c : Nat} {channel : ChannelContext}
    (hchannel : ctx.channels[c]? = some channel) :
    due ctx c = (nextFlags channel.state).map Prod.snd := by
  rw [due, Context.channelStates, List.getElem?_map, hchannel]
  rfl

theorem due_of_none {ctx : Context} {c : Nat} (hchannel : ctx.channels[c]? = none) :
    due ctx c = none := by
  rw [due, Context.channelStates, List.getElem?_map, hchannel]
  rfl

/-- Channel `c` and its slot were moved to the state, if there is one. -/
def Follows (ctx : Context) (c : Nat) : Option StreamState → Context → Prop
  | none, ctx' => SameStates ctx ctx'
  | some state, ctx' => Moved ctx c state ctx'

theorem Follows.trans {ctx ctx' ctx'' : Context} {c : Nat} {move : Option StreamState}
    (hfollows : Follows ctx c move ctx') (hsame : SameStates ctx' ctx'') : Follows ctx c move ctx'' := by
  cases move with
  | none => exact SameStates.trans hfollows hsame
  | some state => exact Moved.trans hfollows hsame

theorem Follows.sameOwners {ctx ctx' : Context} {c : Nat} {move : Option StreamState}
    (hfollows : Follows ctx c move ctx') : SameOwners ctx ctx' := by
  cases move with
  | none => exact SameStates.toSameOwners hfollows
  | some state => exact Moved.toSameOwners hfollows

theorem Follows.due_eq_none {ctx ctx' : Context} {c : Nat} (hfollows : Follows ctx c (due ctx c) ctx') :
    due ctx' c = none := by
  cases hdue : due ctx c with
  | none =>
      rw [hdue] at hfollows
      have hstates : ctx'.channelStates = ctx.channelStates := SameStates.channelsStates hfollows
      rw [due, hstates]
      exact hdue
  | some state =>
      rw [hdue] at hfollows
      have hstates : ctx'.channelStates = ctx.channelStates.set c state := Moved.channelsStates hfollows
      rw [due, Option.bind_eq_some_iff] at hdue
      obtain ⟨old, hold, hnext⟩ := hdue
      have hlast : nextFlags state = none := by
        cases old <;> simp [nextFlags] at hnext <;> subst hnext <;> rfl
      rw [due, hstates, List.getElem?_set_self (List.getElem?_eq_some_iff.mp hold).1, Option.bind_some,
        hlast, Option.map_none]

theorem getFlags_follows (ctx : Context) (c : Nat) : Follows ctx c (due ctx c) (getFlags ctx c).2 := by
  unfold getFlags
  cases hchannel : ctx.channels[c]? with
  | none =>
      rw [due_of_none hchannel]
      exact SameStates.refl ctx
  | some channel =>
      rw [due_eq hchannel]
      dsimp only
      cases nextFlags channel.state with
      | none => exact SameStates.refl ctx
      | some next => exact setSlotState_moved hchannel next.2

theorem streamInit_follows (env : Env) {ctx : Context} (hpaired : Paired ctx) (c : Nat) :
    Follows ctx c (if ctx.channelStates[c]? = some .inited then some .synSent else none)
      (streamInit env ctx c).2 := by
  unfold streamInit
  rw [Context.channelStates, List.getElem?_map]
  cases hchannel : ctx.channels[c]? with
  | none => exact SameStates.refl ctx
  | some channel =>
      have husable := hpaired.usable channel (List.mem_of_getElem? hchannel)
      by_cases hinited : channel.state = .inited
      · simp only [Option.map_some, hinited, husable, ne_eq, not_true_eq_false, Bool.false_eq_true,
          or_self, if_true, if_false]
        exact (setSlotState_moved hchannel .synSent).trans (sendEncoded_sameStates env _ _ [])
      · simp only [Option.map_some, Option.some.injEq, hinited, ne_eq, not_false_eq_true, true_or,
          if_true, if_false]
        exact SameStates.refl ctx

theorem streamWindowUpdate_follows (env : Env) {ctx : Context}
    (husable : ∀ channel ∈ ctx.channels, channel.closed = false) (c : Nat) (delta : UInt32) :
    Follows ctx c (due ctx c) (streamWindowUpdate env ctx c delta).2 := by
  unfold streamWindowUpdate
  cases hchannel : ctx.channels[c]? with
  | none =>
      rw [due_of_none hchannel]
      exact SameStates.refl ctx
  | some channel =>
      have husable := husable channel (List.mem_of_getElem? hchannel)
      dsimp only
      split
      · rename_i hover
        have hnone : nextFlags channel.state = none := by
          rcases hover with hclosed | hclosing | hclosed
          · rw [hclosed]
            rfl
          · rw [hclosing]
            rfl
          · rw [husable] at hclosed
            cases hclosed
        rw [due_eq hchannel, hnone]
        exact SameStates.refl ctx
      · exact (getFlags_follows ctx c).trans (sendEncoded_sameStates env _ _ [])

theorem yamuxWrite_follows (env : Env) {ctx : Context}
    (husable : ∀ channel ∈ ctx.channels, channel.closed = false) (c : Nat) (message : Bytes) :
    Follows ctx c (if ctx.state = .est then due ctx c else none) (yamuxWrite env ctx c message).2 := by
  unfold yamuxWrite
  cases hchannel : ctx.channels[c]? with
  | none =>
      rw [due_of_none hchannel, ite_self]
      exact SameStates.refl ctx
  | some channel =>
      dsimp only
      by_cases hest : ctx.state = .est
      · rw [if_pos hest, if_neg (not_not.mpr hest)]
        by_cases hinited : channel.state = .inited
        · have hupdate := streamWindowUpdate_follows env husable c defaultWindow
          -- the window update sends the SYN, so no flag is left for the data
          have hagain := getFlags_follows (streamWindowUpdate env ctx c defaultWindow).2 c
          rw [hupdate.due_eq_none] at hagain
          simp only [if_pos hinited]
          split
          · exact (hupdate.trans hagain).trans (sendEncoded_sameStates env _ _ _)
          · exact hupdate
        · simp only [if_neg hinited, if_true]
          exact (getFlags_follows ctx c).trans (sendEncoded_sameStates env _ _ _)
      · rw [if_neg hest, if_pos hest]
        exact parentWrite_sameStates ctx message

theorem streamWriteLoop_sameStates (env : Env) {ctx : Context} {c : Nat} (hdue : due ctx c = none)
    (id : UInt32) (ws total rounds : Nat) (data : Bytes) :
    SameStates ctx (streamWriteLoop env c id ws total rounds ctx data).2 := by
  have hloop : SameStates ctx (streamWriteLoop env c id ws total rounds ctx data).2 ∧
      due (streamWriteLoop env c id ws total rounds ctx data).2 c = none := by
    refine streamWriteLoop_invariant (P := fun ctx' => SameStates ctx ctx' ∧ due ctx' c = none)
      ?_ ws total rounds ⟨SameStates.refl ctx, hdue⟩ data
    rintro ctx' data ⟨hsame, hnone⟩
    have hround : Follows ctx' c (due ctx' c) (streamWriteRound env c id ctx' data).2 :=
      (getFlags_follows ctx' c).trans (sendEncoded_sameStates env _ _ data)
    refine ⟨hsame.trans ?_, hround.due_eq_none⟩
    rw [hnone] at hround
    exact hround
  exact hloop.1

theorem streamWrite_follows (env : Env) (ctx : Context) (c : Nat) (data : Bytes) (rounds : Nat) :
    Follows ctx c (if data = [] ∨ rounds = 0 then none else due ctx c)
      (streamWrite env ctx c data rounds).2 := by
  unfold streamWrite
  cases hchannel : ctx.channels[c]? with
  | none =>
      rw [due_of_none hchannel, ite_self]
      exact SameStates.refl ctx
  | some channel =>
      dsimp only
      cases rounds with
      | zero =>
          rw [if_pos (Or.inr rfl)]
          cases data <;> exact SameStates.refl ctx
      | succ rounds =>
          cases data with
          | nil =>
              rw [if_pos (Or.inl rfl)]
              exact SameStates.refl ctx
          | cons byte rest =>
              have hround : Follows ctx c (due ctx c) (streamWriteRound env c channel.channel ctx
                  ((byte :: rest).take channel.windowSize.toNat)).2 :=
                (getFlags_follows ctx c).trans (sendEncoded_sameStates env _ _ _)
              simp only [reduceCtorEq, Nat.succ_ne_zero, or_self, if_false]
              rw [streamWriteLoop]
              split <;> rename_i heq <;> rw [heq] at hround
              · exact hround
              · exact hround.trans (streamWriteLoop_sameStates env hround.due_eq_none _ _ _ _ _)

end CLibp2p.YamuxV1
