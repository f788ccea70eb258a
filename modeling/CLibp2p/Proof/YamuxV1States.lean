import CLibp2p.Proof.YamuxV1Copies

/-!
# Sessions whose streams have one state

Opening a stream and sending the flag that is due write both copies of its state; a local close or reset
writes the channel's only, and the flags of an inbound frame write the slot's only. The two agree in
every state of a run exactly when no step of it is one of the latter kind and every flag that is sent
finds its own slot.
-/

namespace CLibp2p.YamuxV1

open Duplex Machine

/-! ### Sessions whose copies agree -/

/-- The copies agree, and no stream is closed yet. -/
structure InStep (ctx : Context) : Prop extends Paired ctx where
  agree : ctx.slotStates = ctx.channelStates
  opened : StreamState.closed ∉ ctx.slotStates

theorem InStep.of_sameStates {ctx ctx' : Context} (hstep : InStep ctx) (hsame : SameStates ctx ctx') :
    InStep ctx' where
  toPaired := hstep.toPaired.of_sameOwners hsame.toSameOwners
  agree := by rw [hsame.slots, hsame.channelsStates, hstep.agree]
  opened := by rw [hsame.slots]; exact hstep.opened

theorem mem_set_of_ne {α : Type} {l : List α} {i : Nat} {a b : α} (hne : a ≠ b) (hnot : a ∉ l) :
    a ∉ l.set i b := fun hmem => (List.mem_or_eq_of_mem_set hmem).elim hnot hne

theorem InStep.of_moved {ctx ctx' : Context} (hstep : InStep ctx) {c : Nat} {state : StreamState}
    (hslot : slotOf ctx c = some c) (hopen : state ≠ .closed) (hmoved : Moved ctx c state ctx') :
    InStep ctx' where
  toPaired := hstep.toPaired.of_sameOwners hmoved.toSameOwners
  agree := by
    rw [hmoved.slots, hmoved.channelsStates, hslot, hstep.agree]
    rfl
  opened := by
    rw [hmoved.slots, hslot]
    exact mem_set_of_ne hopen.symm hstep.opened

theorem InStep.not_agree_of_moved {ctx ctx' : Context} (hstep : InStep ctx) {c : Nat}
    {old state : StreamState} (hold : ctx.channelStates[c]? = some old) (hne : state ≠ old)
    (hslot : slotOf ctx c ≠ some c) (hmoved : Moved ctx c state ctx') :
    ctx'.slotStates ≠ ctx'.channelStates := by
  intro hagree
  have hlt := (List.getElem?_eq_some_iff.mp hold).1
  have hchannel : ctx'.channelStates[c]? = some state := by
    rw [hmoved.channelsStates, List.getElem?_set_self hlt]
  have hkept : ctx'.slotStates[c]? = some old := by
    rw [hmoved.slots, ← hold, ← hstep.agree]
    cases hfound : slotOf ctx c with
    | none => rfl
    | some k =>
        have hkc : k ≠ c := fun heq => hslot (by rw [hfound, heq])
        exact List.getElem?_set_ne hkc
  rw [hagree, hchannel, Option.some.injEq] at hkept
  exact hne hkept

theorem due_ne {ctx : Context} {c : Nat} {old state : StreamState}
    (hold : ctx.channelStates[c]? = some old) (hdue : due ctx c = some state) :
    state ≠ old ∧ state ≠ .closed := by
  rw [due, hold, Option.bind_some] at hdue
  cases old <;> simp [nextFlags] at hdue <;> subst hdue <;> exact ⟨by decide, by decide⟩

theorem inStep_appendSlot {ctx : Context} (hstep : InStep ctx)
    (hroom : ctx.streams.length ≠ ctx.acceptBacklog) (id : UInt32) : InStep (appendSlot ctx id).2 where
  packed := packed_appendSlot hstep.packed hroom id
  ids := by
    change (ctx.streams ++ [_]).map _ = (ctx.channels ++ [_]).map _
    rw [List.map_append, List.map_append, hstep.ids]
    rfl
  owners := by
    have howners := hstep.owners
    change (ctx.streams ++ [_]).map _ = List.range (ctx.streams ++ [_]).length
    rw [List.map_append, List.length_append, List.length_singleton, List.range_succ]
    rw [Context.owners] at howners
    rw [howners]
    simp only [List.map_cons, List.map_nil, newStream, hstep.toPaired.length]
  usable := by
    intro channel hchannel
    rcases List.mem_append.mp hchannel with hold | hlast
    · exact hstep.usable channel hold
    · rw [List.mem_singleton.mp hlast]
  agree := by
    have hagree := hstep.agree
    change (ctx.streams ++ [_]).map _ = (ctx.channels ++ [_]).map _
    rw [Context.slotStates, Context.channelStates] at hagree
    rw [List.map_append, List.map_append, hagree]
    rfl
  opened := by
    have hopened := hstep.opened
    change StreamState.closed ∉ (ctx.streams ++ [_]).map _
    rw [List.map_append, List.mem_append, not_or]
    exact ⟨hopened, by simp [newStream]⟩

theorem InStep.with_nextid {ctx : Context} (hstep : InStep ctx) (nextid : UInt32) :
    InStep { ctx with nextid } :=
  ⟨⟨hstep.packed.with_nextid nextid, hstep.ids, hstep.owners, hstep.usable⟩, hstep.agree, hstep.opened⟩

theorem inStep_channelNew {ctx : Context} (hstep : InStep ctx) (id : UInt32) :
    InStep (channelNew ctx id).2 := by
  rw [hstep.packed.channelNew_eq]
  obtain ⟨nextid, hrest⟩ := pickId_rest ctx id
  by_cases hfull : ctx.streams.length = ctx.acceptBacklog
  · rw [if_pos hfull, hrest]
    exact hstep.with_nextid nextid
  · rw [if_neg hfull, hrest]
    exact inStep_appendSlot (hstep.with_nextid nextid) hfull _

theorem InStep.of_follows {ctx ctx' : Context} (hstep : InStep ctx) {c : Nat}
    {move : Option StreamState}
    (hmove : ∀ state, move = some state → slotOf ctx c = some c ∧ state ≠ .closed)
    (hfollows : Follows ctx c move ctx') : InStep ctx' := by
  cases move with
  | none => exact hstep.of_sameStates hfollows
  | some state =>
      obtain ⟨hslot, hopen⟩ := hmove state rfl
      exact hstep.of_moved hslot hopen hfollows

theorem due_ne_closed {ctx : Context} {c : Nat} {state : StreamState} (hdue : due ctx c = some state) :
    state ≠ .closed := by
  have hdue' := hdue
  rw [due, Option.bind_eq_some_iff] at hdue'
  obtain ⟨old, hold, -⟩ := hdue'
  exact (due_ne hold hdue).2

theorem slotOf_eq {ctx ctx' : Context} (hsame : SameTable ctx ctx') (c : Nat) :
    slotOf ctx' c = slotOf ctx c := by
  have hview : ∀ ctx : Context, slotOf ctx c =
      (ctx.channels.map ChannelContext.channel)[c]?.bind fun id =>
        (ctx.table.map Slot.key).findIdx? (· == id) := by
    intro ctx
    rw [slotOf, List.getElem?_map]
    cases ctx.channels[c]? with
    | none => rfl
    | some channel =>
        simp only [Option.bind_some, Option.map_some, Context.table, List.map_map, List.findIdx?_map]
        rfl
  rw [hview, hview, hsame.table, hsame.channels]

theorem getSessionStream_eq {ctx : Context} (hsound : ctx.Sound) {c : Nat} {channel : ChannelContext}
    (hchannel : ctx.channels[c]? = some channel) :
    getSessionStream ctx channel.channel = (slotOf ctx c, ctx) := by
  rw [slotOf, hchannel]
  exact firstSlot_eq (fun slot hslot _ => hsound slot hslot) _

/-! ### Frames for the streams of the table -/

theorem findStream_eq {ctx : Context} (hsound : ctx.Sound) (id : UInt32) :
    findStream ctx id = (ctx.streams.findIdx? fun slot =>
      slot.alive && slot.stream.state != .closed && slot.stream.id == id, ctx) :=
  firstSlot_eq (fun slot hslot _ => hsound slot hslot) _

/-- `yamux_decode` takes the bytes for a frame `f` of the stream in slot `i`. -/
structure Addressed (env : Env) (ctx : Context) (incoming : Bytes) (f : Frame) (i : Nat)
    (slot : SessionStream) : Prop where
  read : Frame.read env.host incoming = some f
  version : f.version = yamuxVersion
  streamid : f.streamid ≠ 0
  found : (findStream ctx f.streamid).1 = some i
  slot : ctx.streams[i]? = some slot

theorem Addressed.decode_eq {env : Env} {ctx : Context} {incoming : Bytes} {f : Frame} {i : Nat}
    {slot : SessionStream} (haddressed : Addressed env ctx incoming f i slot) :
    decode env ctx incoming = ((decodeStream env (findStream ctx f.streamid).2 i f incoming).1, none,
      (decodeStream env (findStream ctx f.streamid).2 i f incoming).2) := by
  have hfound : findStream ctx f.streamid = (some i, (findStream ctx f.streamid).2) :=
    Prod.ext haddressed.found rfl
  unfold decode
  rw [haddressed.read]
  dsimp only
  rw [if_neg (not_not.mpr haddressed.version), if_neg haddressed.streamid, hfound]

theorem Addressed.findStream_eq {env : Env} {ctx : Context} {incoming : Bytes} {f : Frame} {i : Nat}
    {slot : SessionStream} (haddressed : Addressed env ctx incoming f i slot) (hsound : ctx.Sound) :
    findStream ctx f.streamid = (some i, ctx) := by
  have hfound := haddressed.found
  rw [CLibp2p.YamuxV1.findStream_eq hsound] at hfound ⊢
  exact Prod.ext hfound rfl

theorem Addressed.slot_open {env : Env} {ctx : Context} {incoming : Bytes} {f : Frame} {i : Nat}
    {slot : SessionStream} (haddressed : Addressed env ctx incoming f i slot) :
    slot.alive = true ∧ slot.stream.state ≠ .closed ∧ slot.stream.id = f.streamid := by
  obtain ⟨hi, hmatch, -⟩ := List.findIdx?_eq_some_iff_getElem.mp haddressed.found
  have hslot := haddressed.slot
  rw [List.getElem?_eq_getElem hi, Option.some.injEq] at hslot
  rw [hslot] at hmatch
  simpa [and_assoc] using hmatch

/-- The frame leaves the state of its stream as it is. -/
def SparesState (slot : SessionStream) (f : Frame) : Prop :=
  ¬f.has frameRst ∧ ¬f.has frameFin ∧ (f.has frameAck → slot.stream.state ≠ .synSent)

/-- Slot `i` alone was moved to `state`. -/
structure SlotMoved (ctx : Context) (i : Nat) (state : StreamState) (ctx' : Context) : Prop
    extends SameOwners ctx ctx' where
  slots : ctx'.slotStates = ctx.slotStates.set i state
  channelsStates : ctx'.channelStates = ctx.channelStates

theorem decodeStream_states (env : Env) {ctx : Context} {i : Nat} {slot : SessionStream}
    (hslot : ctx.streams[i]? = some slot) (f : Frame) (incoming : Bytes) :
    (SparesState slot f → SameStates ctx (decodeStream env ctx i f incoming).2) ∧
      (¬SparesState slot f → ∃ state, (state = .closed ∨ slot.stream.state = .synSent ∧ state = .est) ∧
        SlotMoved ctx i state (decodeStream env ctx i f incoming).2) := by
  have hset : ∀ state, SlotMoved ctx i state
      (streamProcess env (ctx.setStreamState i state) i f (incoming.drop Frame.size)).2 := by
    intro state
    have hrest := streamProcess_sameStates env (ctx.setStreamState i state) i f (incoming.drop Frame.size)
    exact ⟨(setStreamState_sameOwners ctx i state).trans hrest.toSameOwners,
      hrest.slots.trans (slotStates_setStreamState ctx i state), hrest.channelsStates⟩
  unfold decodeStream SparesState
  simp only [hslot, decodeFlags_eq]
  by_cases hover : f.has frameRst ∨ f.has frameFin
  · simp only [if_pos hover]
    refine ⟨fun hspares => ?_, fun _ => ⟨.closed, Or.inl rfl, hset .closed⟩⟩
    exact absurd hover (not_or.mpr ⟨hspares.1, hspares.2.1⟩)
  · obtain ⟨hrst, hfin⟩ := not_or.mp hover
    simp only [if_neg hover]
    by_cases hack : f.has frameAck
    · by_cases hsent : slot.stream.state = .synSent
      · simp only [if_pos hack, if_pos hsent]
        exact ⟨fun hspares => absurd hsent (hspares.2.2 hack), fun _ => ⟨.est, Or.inr ⟨hsent, rfl⟩,
          hset .est⟩⟩
      · simp only [if_pos hack, if_neg hsent]
        exact ⟨fun _ => SameStates.refl ctx, fun hnot => absurd ⟨hrst, hfin, fun _ => hsent⟩ hnot⟩
    · simp only [if_neg hack]
      refine ⟨fun _ => ?_, fun hnot => absurd ⟨hrst, hfin, fun hyes => absurd hyes hack⟩ hnot⟩
      split
      · exact SameStates.refl ctx
      · rename_i ctx' heq
        obtain rfl : ctx = ctx' := by
          split at heq
          · exact Option.some.inj heq
          · cases heq
        exact streamProcess_sameStates env ctx i f _

theorem InStep.not_agree_of_slotMoved {ctx ctx' : Context} (hstep : InStep ctx) {i : Nat}
    {old state : StreamState} (hold : ctx.slotStates[i]? = some old) (hne : state ≠ old)
    (hmoved : SlotMoved ctx i state ctx') : ctx'.slotStates ≠ ctx'.channelStates := by
  intro hagree
  have hlt := (List.getElem?_eq_some_iff.mp hold).1
  have hslot : ctx'.slotStates[i]? = some state := by
    rw [hmoved.slots, List.getElem?_set_self hlt]
  rw [hagree, hmoved.channelsStates, ← hstep.agree, hold, Option.some.injEq] at hslot
  exact hne hslot.symm

/-! ### Inbound streams -/

theorem slotOf_some {ctx : Context} {c k : Nat} (hslot : slotOf ctx c = some k) :
    ∃ channel, ctx.channels[c]? = some channel := by
  rw [slotOf, Option.bind_eq_some_iff] at hslot
  obtain ⟨channel, hchannel, -⟩ := hslot
  exact ⟨channel, hchannel⟩

theorem set_owner {ctx : Context} (hpaired : Paired ctx) (c : Nat) :
    ctx.owners.set c c = ctx.owners := by
  rw [hpaired.owners]
  apply List.ext_getElem?
  intro j
  by_cases hj : c = j
  · subst hj
    by_cases hc : c < (List.range ctx.streams.length).length
    · rw [List.getElem?_set_self hc, List.getElem?_range (by rwa [List.length_range] at hc)]
    · rw [List.getElem?_eq_none (by rw [List.length_set]; omega), List.getElem?_eq_none (by omega)]
  · exact List.getElem?_set_ne hj

theorem handleUpgrade_sameStates {ctx : Context} (hpaired : Paired ctx) {c : Nat}
    (hslot : slotOf ctx c = some c) : SameStates ctx (handleUpgrade ctx c).2 := by
  obtain ⟨channel, hchannel⟩ := slotOf_some hslot
  have hchild : SameStates ctx (ctx.modifyChannel c fun channel => { channel with child := true }) :=
    ⟨modifyChannel_sameOwners ctx c _ (fun _ => rfl) fun _ => rfl, rfl,
      map_modify_of_eq _ (fun channel : ChannelContext => { channel with child := true })
        (fun _ => rfl) _ _⟩
  have hfind : getSessionStream (ctx.modifyChannel c fun channel => { channel with child := true })
      channel.channel =
        (some c, ctx.modifyChannel c fun channel => { channel with child := true }) := by
    have hlive : ∀ slot ∈ ctx.streams, true → slot.freed = false :=
      fun slot hslot _ => hpaired.packed.sound slot hslot
    have hfound := @firstSlot_eq
      (ctx.modifyChannel c fun channel => { channel with child := true }) (fun _ => true) hlive
      fun slot => slot.stream.id == channel.channel
    rw [slotOf, hchannel, Option.bind_some] at hslot
    exact hfound.trans (Prod.ext hslot rfl)
  unfold handleUpgrade
  rw [hchannel]
  dsimp only
  rw [hfind]
  generalize ctx.modifyChannel c (fun channel => { channel with child := true }) = ctx' at hchild
  have howners : (ctx'.modifyStream c fun stream => { stream with channel := c }).owners =
      ctx.owners.set c c := by
    rw [← hchild.owners]
    exact modifyStream_view YamuxStream.channel ctx' c fun _ => rfl
  have hsame : ctx.owners.set c c = ctx.owners := set_owner hpaired c
  refine ⟨⟨hchild.toSameTable.trans ?_, howners.trans hsame, hchild.usable⟩, ?_, hchild.channelsStates⟩
  · exact modifyStream_sameTable ctx' c (fun stream => { stream with channel := c }) fun _ => rfl
  · have hstates : (ctx'.modifyStream c fun stream => { stream with channel := c }).slotStates =
        ctx'.slotStates := modifyStream_view_of_eq YamuxStream.state ctx' c fun _ => rfl
    exact hstates.trans hchild.slots

theorem inStep_multistreamStreamNew (env : Env) {ctx : Context} (hstep : InStep ctx) {c : Nat}
    (hslot : slotOf ctx c = some c) : InStep (multistreamStreamNew env ctx c).2 := by
  have hupgrade := handleUpgrade_sameStates hstep.toPaired hslot
  have hstep' := hstep.of_sameStates hupgrade
  have hwrite := yamuxWrite_follows env hstep'.usable c multistreamHeader
  refine hstep'.of_follows (fun state hmove => ?_) hwrite
  rw [slotOf_eq hupgrade.toSameTable]
  split at hmove
  · exact ⟨hslot, due_ne_closed hmove⟩
  · cases hmove

theorem inStep_acceptStream (env : Env) {ctx : Context} (hstep : InStep ctx) {c : Nat}
    (hslot : slotOf ctx c = some c) {f : Frame}
    (hid : ∀ channel, ctx.channels[c]? = some channel → channel.channel = f.streamid)
    (incoming : Bytes) : InStep (acceptStream env ctx c f incoming).2 := by
  obtain ⟨channel, hchannel⟩ := slotOf_some hslot
  have hget := getSessionStream_eq hstep.packed.sound hchannel
  rw [hid channel hchannel, hslot] at hget
  have hopen : SlotMoved ctx c .synRecv (ctx.modifyStream c fun stream =>
      { stream with state := .synRecv, windowSize := 0 }) :=
    ⟨modifyStream_sameOwners ctx c _ (fun _ => rfl) fun _ => rfl,
      modifyStream_view YamuxStream.state ctx c fun _ => rfl, rfl⟩
  have hprocess := streamProcess_sameStates env (ctx.modifyStream c fun stream =>
    { stream with state := .synRecv, windowSize := 0 }) c f (incoming.drop Frame.size)
  have hmoved : Moved ctx c .synRecv ((streamProcess env (ctx.modifyStream c fun stream =>
      { stream with state := .synRecv, windowSize := 0 }) c f
        (incoming.drop Frame.size)).2.setChannelState c .synRecv) := by
    refine ⟨(hopen.toSameOwners.trans hprocess.toSameOwners).trans (setChannelState_sameOwners _ c _), ?_, ?_⟩
    · rw [hslot]
      exact hprocess.slots.trans hopen.slots
    · rw [channelStates_setChannelState, hprocess.channelsStates, hopen.channelsStates]
  have hrecv := hstep.of_moved hslot (by decide) hmoved
  have hslot' := (slotOf_eq hmoved.toSameTable c).trans hslot
  unfold acceptStream
  rw [hget]
  dsimp only
  by_cases hwindow : f.type = frameWindowUpdate
  · simp only [if_pos hwindow]
    -- the window update that answers sends the ACK
    have hupdate := fun window => streamWindowUpdate_follows env hrecv.usable c window
    refine inStep_multistreamStreamNew env (hrecv.of_follows (fun state hmove => ?_) (hupdate _)) ?_
    · exact ⟨hslot', due_ne_closed hmove⟩
    · exact (slotOf_eq (hupdate _).sameOwners.toSameTable c).trans hslot'
  · simp only [if_neg hwindow]
    exact inStep_multistreamStreamNew env hrecv hslot'

theorem slotOf_appendSlot {ctx : Context} (hpaired : Paired ctx) {id : UInt32}
    (hfresh : ∀ slot ∈ ctx.streams, slot.stream.id ≠ id) :
    slotOf (appendSlot ctx id).2 ctx.channels.length = some ctx.channels.length := by
  have hchannel : (appendSlot ctx id).2.channels[ctx.channels.length]? =
      some ⟨id, .inited, false, 0, [], false⟩ := List.getElem?_concat_length
  rw [slotOf, hchannel, Option.bind_some]
  change (ctx.streams ++ [_]).findIdx? _ = _
  rw [List.findIdx?_append, List.findIdx?_eq_none_iff.mpr fun slot hslot => by simpa using hfresh slot hslot]
  simp [newStream, hpaired.length]

theorem inStep_decodeNew (env : Env) {ctx : Context} (hstep : InStep ctx) {f : Frame}
    (hid : f.streamid ≠ 0) (hfresh : ∀ slot ∈ ctx.streams, slot.stream.id ≠ f.streamid)
    (incoming : Bytes) : InStep (decodeNew env ctx f incoming).2.2 := by
  unfold decodeNew
  by_cases hsyn : f.has frameSyn
  · by_cases hparity : inboundParity ctx f.streamid
    · simp only [if_pos hsyn, if_pos hparity]
      have hnew := inStep_channelNew hstep f.streamid
      have hpick : pickId ctx f.streamid = (f.streamid, ctx) := by rw [pickId, if_neg hid]
      rw [hstep.packed.channelNew_eq, hpick] at hnew ⊢
      by_cases hfull : ctx.streams.length = ctx.acceptBacklog
      · rw [if_pos hfull]
        exact hstep
      · rw [if_neg hfull] at hnew ⊢
        refine inStep_acceptStream env hnew (slotOf_appendSlot hstep.toPaired hfresh) ?_ incoming
        intro channel hchannel
        have hlast : (appendSlot ctx f.streamid).2.channels[ctx.channels.length]? =
            some ⟨f.streamid, .inited, false, 0, [], false⟩ := List.getElem?_concat_length
        rw [hlast, Option.some.injEq] at hchannel
        rw [← hchannel]
    · simp only [if_pos hsyn, if_neg hparity]
      exact hstep
  · simp only [if_neg hsyn]
    exact hstep

/-! ### Runs -/

/-- The calls that read or write the state of a stream. -/
inductive StateOp where
  | channelNew (id : UInt32)
  | handleMessage
  | decode (incoming : Bytes)
  | streamInit (channel : Nat)
  | streamWindowUpdate (channel : Nat) (delta : UInt32)
  | streamClose (channel : Nat)
  | streamReset (channel : Nat)
  | streamWrite (channel : Nat) (data : Bytes) (rounds : Nat)
  | write (channel : Nat) (message : Bytes)
deriving Repr, DecidableEq

def StateOp.toOp : StateOp → Op
  | .channelNew id => .channelNew id
  | .handleMessage => .handleMessage
  | .decode incoming => .decode incoming
  | .streamInit c => .streamInit c
  | .streamWindowUpdate c delta => .streamWindowUpdate c delta
  | .streamClose c => .streamClose c
  | .streamReset c => .streamReset c
  | .streamWrite c data rounds => .streamWrite c data rounds
  | .write c message => .write c message

def stateStep (env : Env) (ctx : Context) (op : StateOp) : Context := step env ctx op.toOp

/-- The call is no close of an established channel, no reset, and no frame whose flags move a stream of
the table; and if a flag is due on its channel, the id of the channel leads to its own slot. -/
def StateOp.Mirrors (env : Env) (ctx : Context) : StateOp → Prop
  | .channelNew _ => True
  | .handleMessage => True
  | .decode incoming => ∀ f i slot, Addressed env ctx incoming f i slot → SparesState slot f
  | .streamInit c => ctx.channelStates[c]? = some .inited → slotOf ctx c = some c
  | .streamWindowUpdate c _ => due ctx c ≠ none → slotOf ctx c = some c
  | .streamClose c => ctx.channelStates[c]? ≠ some .est
  | .streamReset c => ctx.channels[c]? = none
  | .streamWrite c data rounds => data ≠ [] ∧ rounds ≠ 0 → due ctx c ≠ none → slotOf ctx c = some c
  | .write c _ => ctx.state = .est → due ctx c ≠ none → slotOf ctx c = some c

/-- The condition decides whether the copies still agree in `ctx'`. -/
def Settles (condition : Prop) (ctx' : Context) : Prop :=
  (condition → InStep ctx') ∧ (¬condition → ¬StatesAgree ctx')

theorem Settles.congr {condition condition' : Prop} {ctx' : Context}
    (hsettles : Settles condition ctx') (hiff : condition' ↔ condition) : Settles condition' ctx' :=
  ⟨fun hyes => hsettles.1 (hiff.mp hyes), fun hno => hsettles.2 fun hyes => hno (hiff.mpr hyes)⟩

section Settling

variable {env : Env} {ctx ctx' : Context}

theorem InStep.settles_of_follows (hstep : InStep ctx) {c : Nat} {move : Option StreamState}
    (hmove : ∀ state, move = some state →
      ∃ old, ctx.channelStates[c]? = some old ∧ state ≠ old ∧ state ≠ .closed)
    (hfollows : Follows ctx c move ctx') : Settles (move ≠ none → slotOf ctx c = some c) ctx' := by
  have hpaired := hstep.toPaired.of_sameOwners hfollows.sameOwners
  constructor
  · intro hslot
    refine hstep.of_follows (fun state hsome => ?_) hfollows
    obtain ⟨_, -, -, hopen⟩ := hmove state hsome
    exact ⟨hslot (by rw [hsome]; exact Option.some_ne_none state), hopen⟩
  · intro hnot
    obtain ⟨hsome, hslot⟩ := Classical.not_imp.mp hnot
    obtain ⟨state, rfl⟩ := Option.ne_none_iff_exists'.mp hsome
    obtain ⟨old, hold, hne, -⟩ := hmove state rfl
    rw [hpaired.statesAgree_iff]
    exact hstep.not_agree_of_moved hold hne hslot hfollows

theorem due_move {c : Nat} {state : StreamState} (hdue : due ctx c = some state) :
    ∃ old, ctx.channelStates[c]? = some old ∧ state ≠ old ∧ state ≠ .closed := by
  have hdue' := hdue
  rw [due, Option.bind_eq_some_iff] at hdue'
  obtain ⟨old, hold, -⟩ := hdue'
  exact ⟨old, hold, due_ne hold hdue⟩

/-- Channel `c` alone was moved to `state`. -/
structure ChannelMoved (ctx : Context) (c : Nat) (state : StreamState) (ctx' : Context) : Prop
    extends SameOwners ctx ctx' where
  slots : ctx'.slotStates = ctx.slotStates
  channelsStates : ctx'.channelStates = ctx.channelStates.set c state

theorem channelMoved_sendEncoded (env : Env) (ctx : Context) (c : Nat) (state : StreamState) (f : Frame) :
    ChannelMoved ctx c state (sendEncoded env (ctx.setChannelState c state) f []).2 := by
  have hsend := sendEncoded_sameStates env (ctx.setChannelState c state) f []
  exact ⟨(setChannelState_sameOwners ctx c state).trans hsend.toSameOwners, hsend.slots,
    hsend.channelsStates.trans (channelStates_setChannelState ctx c state)⟩

theorem InStep.not_agree_of_channelMoved (hstep : InStep ctx) {c : Nat} {old state : StreamState}
    (hold : ctx.channelStates[c]? = some old) (hne : state ≠ old)
    (hmoved : ChannelMoved ctx c state ctx') : ¬StatesAgree ctx' := by
  rw [(hstep.toPaired.of_sameOwners hmoved.toSameOwners).statesAgree_iff]
  intro hagree
  have hlt := (List.getElem?_eq_some_iff.mp hold).1
  have hchannel : ctx'.channelStates[c]? = some state := by
    rw [hmoved.channelsStates, List.getElem?_set_self hlt]
  rw [← hagree, hmoved.slots, hstep.agree, hold, Option.some.injEq] at hchannel
  exact hne hchannel.symm

theorem channelStates_of_some {c : Nat} {channel : ChannelContext}
    (hchannel : ctx.channels[c]? = some channel) : ctx.channelStates[c]? = some channel.state := by
  rw [Context.channelStates, List.getElem?_map, hchannel]
  rfl

theorem streamClose_settles (hstep : InStep ctx) (c : Nat) :
    Settles (ctx.channelStates[c]? ≠ some .est) (streamClose env ctx c).2 := by
  unfold streamClose
  cases hchannel : ctx.channels[c]? with
  | none =>
      have hnone : ctx.channelStates[c]? = none := by
        rw [Context.channelStates, List.getElem?_map, hchannel]
        rfl
      rw [hnone]
      exact ⟨fun _ => hstep, fun hnot => absurd (Option.some_ne_none _).symm hnot⟩
  | some channel =>
      have husable := hstep.usable channel (List.mem_of_getElem? hchannel)
      rw [channelStates_of_some hchannel]
      by_cases hest : channel.state = .est
      · simp only [hest, husable, ne_eq, not_true_eq_false, Bool.false_eq_true, or_self, if_false]
        refine ⟨False.elim, fun _ => ?_⟩
        exact hstep.not_agree_of_channelMoved (channelStates_of_some hchannel)
          (by rw [hest]; decide) (channelMoved_sendEncoded env ctx c .closing _)
      · simp only [hest, ne_eq, not_false_eq_true, true_or, if_true]
        refine ⟨fun _ => hstep, fun hnot => absurd (fun hsome => ?_) hnot⟩
        exact hest (Option.some.inj hsome)

theorem InStep.channel_open (hstep : InStep ctx) {c : Nat} {channel : ChannelContext}
    (hchannel : ctx.channels[c]? = some channel) : channel.state ≠ .closed := by
  intro hclosed
  have hmem := List.mem_of_getElem? (channelStates_of_some hchannel)
  rw [hclosed, ← hstep.agree] at hmem
  exact hstep.opened hmem

theorem streamReset_settles (hstep : InStep ctx) (c : Nat) :
    Settles (ctx.channels[c]? = none) (streamReset env ctx c).2 := by
  unfold streamReset
  cases hchannel : ctx.channels[c]? with
  | none => exact ⟨fun _ => hstep, fun hnot => absurd rfl hnot⟩
  | some channel =>
      have husable := hstep.usable channel (List.mem_of_getElem? hchannel)
      dsimp only
      rw [if_neg (by rw [husable]; exact Bool.false_ne_true)]
      refine ⟨fun hnone => absurd hnone (Option.some_ne_none channel), fun _ => ?_⟩
      exact hstep.not_agree_of_channelMoved (channelStates_of_some hchannel)
        (hstep.channel_open hchannel).symm (channelMoved_sendEncoded env ctx c .closed _)

/-- Frames settle by their flags: opening a stream keeps the copies together, moving one parts them. -/
theorem decode_settles (hstep : InStep ctx) (incoming : Bytes) :
    Settles (∀ f i slot, Addressed env ctx incoming f i slot → SparesState slot f)
      (decode env ctx incoming).2.2 := by
  by_cases haddressed : ∃ f i slot, Addressed env ctx incoming f i slot
  · obtain ⟨f, i, slot, haddressed⟩ := haddressed
    have hfind : findStream ctx f.streamid = (some i, ctx) :=
      haddressed.findStream_eq hstep.packed.sound
    have hstream := decodeStream_states env haddressed.slot f incoming
    rw [haddressed.decode_eq, hfind]
    by_cases hspares : SparesState slot f
    · refine ⟨fun _ => hstep.of_sameStates (hstream.1 hspares), fun hnot => absurd ?_ hnot⟩
      intro f' i' slot' hother
      obtain rfl : f = f' := Option.some.inj (haddressed.read.symm.trans hother.read)
      obtain rfl : i = i' := Option.some.inj (haddressed.found.symm.trans hother.found)
      obtain rfl : slot = slot' := Option.some.inj (haddressed.slot.symm.trans hother.slot)
      exact hspares
    · refine ⟨fun hall => absurd (hall f i slot haddressed) hspares, fun _ => ?_⟩
      obtain ⟨state, hstate, hmoved⟩ := hstream.2 hspares
      rw [(hstep.toPaired.of_sameOwners hmoved.toSameOwners).statesAgree_iff]
      have hold : ctx.slotStates[i]? = some slot.stream.state := by
        rw [Context.slotStates, List.getElem?_map, haddressed.slot]
        rfl
      refine hstep.not_agree_of_slotMoved hold ?_ hmoved
      rcases hstate with rfl | ⟨hsent, rfl⟩
      · exact haddressed.slot_open.2.1.symm
      · rw [hsent]
        decide
  · refine ⟨fun _ => ?_, fun hnot => absurd (fun f i slot hsome => ?_) hnot⟩
    · unfold decode
      cases hread : Frame.read env.host incoming with
      | none => exact hstep
      | some f =>
          by_cases hversion : f.version = yamuxVersion
          · by_cases hid : f.streamid = 0
            · simp only [hversion, hid, ne_eq, not_true_eq_false, if_true, if_false]
              exact hstep.of_sameStates (decodeSession_sameStates env ctx f)
            · simp only [hversion, hid, ne_eq, not_true_eq_false, if_false]
              have hsearch := findStream_eq hstep.packed.sound f.streamid
              rw [hsearch]
              cases hfound : ctx.streams.findIdx? fun slot =>
                  slot.alive && slot.stream.state != .closed && slot.stream.id == f.streamid with
              | some i =>
                  obtain ⟨hi, -, -⟩ := List.findIdx?_eq_some_iff_getElem.mp hfound
                  exact absurd ⟨f, i, ctx.streams[i], hread, hversion, hid, by rw [hsearch, hfound],
                    List.getElem?_eq_getElem hi⟩ haddressed
              | none =>
                  -- no slot is closed, so the table has no stream with this id at all
                  refine inStep_decodeNew env hstep hid (fun slot hslot heq => ?_) incoming
                  have hmiss := List.findIdx?_eq_none_iff.mp hfound slot hslot
                  have hopen : slot.stream.state ≠ .closed := by
                    intro hclosed
                    exact hstep.opened (List.mem_map.mpr ⟨slot, hslot, hclosed⟩)
                  simp [hstep.packed.alive slot hslot, hopen, heq] at hmiss
          · simp only [hversion, ne_eq, not_false_eq_true, if_true]
            exact hstep
    · exact absurd ⟨f, i, slot, hsome⟩ haddressed

end Settling

theorem stateStep_settles (env : Env) {ctx : Context} (hstep : InStep ctx) (op : StateOp) :
    Settles (op.Mirrors env ctx) (stateStep env ctx op) := by
  have hdue : ∀ {c move}, (move = none ∨ move = due ctx c) → ∀ state, move = some state →
      ∃ old, ctx.channelStates[c]? = some old ∧ state ≠ old ∧ state ≠ .closed := by
    rintro c move (rfl | rfl) state hsome
    · cases hsome
    · exact due_move hsome
  cases op with
  | channelNew id => exact ⟨fun _ => inStep_channelNew hstep id, fun hnot => absurd trivial hnot⟩
  | handleMessage =>
      refine ⟨fun _ => hstep.of_sameStates ?_, fun hnot => absurd trivial hnot⟩
      change SameStates ctx (handleMessage ctx).2
      unfold handleMessage
      split
      · exact SameStates.refl ctx
      · exact ⟨⟨{ SameTable.refl ctx with }, rfl, id⟩, rfl, rfl⟩
  | decode incoming => exact decode_settles hstep incoming
  | streamInit c =>
      refine (hstep.settles_of_follows ?_ (streamInit_follows env hstep.toPaired c)).congr ?_
      · intro state hsome
        split at hsome
        · rename_i hinited
          obtain rfl := Option.some.inj hsome
          exact ⟨.inited, hinited, by decide, by decide⟩
        · cases hsome
      · simp only [StateOp.Mirrors, ne_eq, ite_eq_right_iff, reduceCtorEq, imp_false, not_not]
  | streamWindowUpdate c delta =>
      exact hstep.settles_of_follows (hdue (Or.inr rfl))
        (streamWindowUpdate_follows env hstep.usable c delta)
  | streamClose c => exact streamClose_settles hstep c
  | streamReset c => exact streamReset_settles hstep c
  | streamWrite c data rounds =>
      refine (hstep.settles_of_follows (hdue ?_) (streamWrite_follows env ctx c data rounds)).congr ?_
      · by_cases hidle : data = [] ∨ rounds = 0
        · exact Or.inl (if_pos hidle)
        · exact Or.inr (if_neg hidle)
      · by_cases hidle : data = [] ∨ rounds = 0
        · have hbusy : ¬(data ≠ [] ∧ rounds ≠ 0) := by tauto
          simp [StateOp.Mirrors, hidle, hbusy]
        · have hbusy : data ≠ [] ∧ rounds ≠ 0 := not_or.mp hidle
          simp [StateOp.Mirrors, hbusy]
  | write c message =>
      refine (hstep.settles_of_follows (hdue ?_) (yamuxWrite_follows env hstep.usable c message)).congr ?_
      · by_cases hest : ctx.state = .est
        · exact Or.inr (if_pos hest)
        · exact Or.inl (if_neg hest)
      · by_cases hest : ctx.state = .est <;> simp [StateOp.Mirrors, hest]

theorem inStep_sessionStart (acceptBacklog : Nat) (amServer : Bool) (state : StreamState)
    (outcomes : List Bool) : InStep (sessionStart acceptBacklog amServer state outcomes) where
  packed := packed_sessionStart acceptBacklog amServer state outcomes
  ids := rfl
  owners := rfl
  usable _ hchannel := absurd hchannel List.not_mem_nil
  agree := rfl
  opened hmem := absurd hmem List.not_mem_nil

/-- **Runs on which a stream has one state.** From a new session, the two copies agree in every state
reached exactly when every step mirrors what it does to one of them. -/
theorem statesAgree_iff_mirrors (env : Env) (acceptBacklog : Nat) (amServer : Bool)
    (state : StreamState) (outcomes : List Bool) (ops : List StateOp) :
    (∀ reached, reached <+: ops → StatesAgree (run (stateStep env)
        (sessionStart acceptBacklog amServer state outcomes) reached)) ↔
      Along (stateStep env) (fun ctx op => op.Mirrors env ctx)
        (sessionStart acceptBacklog amServer state outcomes) ops :=
  along_iff_good (stateStep env) (fun _ hstep => hstep.toPaired.statesAgree_iff.mpr hstep.agree)
    (fun _ op hstep => (stateStep_settles env hstep op).1)
    (fun _ op hstep => (stateStep_settles env hstep op).2)
    (inStep_sessionStart acceptBacklog amServer state outcomes)

/-- The ACK of a stream that a client opened is recorded in the slot only. -/
theorem statesAgree_fails :
    ¬∀ (env : Env) (acceptBacklog : Nat) (amServer : Bool) (ops : List StateOp),
      StatesAgree (run (stateStep env) (sessionNew acceptBacklog amServer) ops) := by
  intro hall
  obtain ⟨channel, hchannel, hstate⟩ := hall ⟨.little, fun _ => false, true⟩ 256 false
    [.channelNew 0, .streamInit 0,
     .decode (Frame.network ⟨0, frameWindowUpdate, frameAck, 1, 0⟩)] _ (List.mem_singleton.mpr rfl) rfl
  obtain rfl := Option.some.inj hchannel
  cases hstate

end CLibp2p.YamuxV1
