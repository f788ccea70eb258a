import CLibp2p.Proof.YamuxV1Table

/-!
# Opening and freeing streams of a v1 session

`yamux_channel_new` places an id in the table and `yamux_stream_free` releases one. The count of live
streams and the bound on the slots hold in every run. That an id belongs to one live stream, and that no
block is used after it was freed, holds exactly as long as nothing opens a stream while a slot is dead or
its id is taken.
-/

namespace CLibp2p.YamuxV1

open Duplex Machine

/-! ### Opening a stream -/

theorem map_modify_eq_set {α β : Type} (g : α → β) (change : α → α) (b : β)
    (heq : ∀ a, g (change a) = b) (l : List α) (i : Nat) :
    (l.modify i change).map g = (l.map g).set i b := by
  apply List.ext_getElem?
  intro j
  rw [List.getElem?_map, List.getElem?_modify, List.getElem?_set, List.getElem?_map, List.length_map]
  by_cases hij : i = j
  · subst hij
    by_cases hlt : i < l.length
    · simp [hlt, heq]
    · simp [hlt]
  · simp [hij]

theorem deadSlot_eq {ctx : Context} (hcount : ctx.numStreams = SlotTable.countLive ctx.table) :
    deadSlot ctx = SlotTable.firstDead ctx.table := by
  have hfind : (ctx.streams.findIdx? fun slot => !slot.alive) = SlotTable.firstDead ctx.table := by
    rw [SlotTable.firstDead, Context.table, List.findIdx?_map]
    rfl
  unfold deadSlot
  by_cases hfull : ctx.numStreams = ctx.streams.length
  · rw [if_neg (not_not.mpr hfull)]
    have hlive : SlotTable.countLive ctx.table = ctx.table.length := by
      rw [← hcount, hfull, Context.table, List.length_map]
    exact (SlotTable.firstDead_eq_none.mpr (SlotTable.countLive_eq_length.mp hlive)).symm
  · rw [if_pos hfull, hfind]

theorem table_pickId (ctx : Context) (id : UInt32) : (pickId ctx id).2.table = ctx.table := by
  unfold pickId
  split <;> rfl

theorem pickId_rest (ctx : Context) (id : UInt32) :
    ∃ nextid, (pickId ctx id).2 = { ctx with nextid } := by
  unfold pickId
  split
  · exact ⟨_, rfl⟩
  · exact ⟨ctx.nextid, rfl⟩

/-- A new channel touches the table, the channels and the count, besides the next id. -/
theorem channelNew_rest (ctx : Context) (id : UInt32) :
    ∃ streams channels numStreams fault, (channelNew ctx id).2 =
      { (pickId ctx id).2 with streams, channels, numStreams, fault } := by
  unfold channelNew
  obtain ⟨id', ctx'⟩ := pickId ctx id
  dsimp only
  split
  · exact ⟨_, _, _, _, rfl⟩
  · split <;> exact ⟨_, _, _, _, rfl⟩

/-- A slot is free for one more stream. -/
def HasRoom (ctx : Context) : Prop :=
  deadSlot ctx ≠ none ∨ ctx.streams.length ≠ ctx.acceptBacklog

theorem channelNew_eq_none_iff {ctx : Context} {id : UInt32} : (channelNew ctx id).1 = none ↔ ¬HasRoom ctx := by
  obtain ⟨nextid, hrest⟩ := pickId_rest ctx id
  have hdead : deadSlot (pickId ctx id).2 = deadSlot ctx := by
    rw [hrest]
    rfl
  unfold channelNew HasRoom
  dsimp only
  rw [hdead, hrest]
  cases deadSlot ctx with
  | some i => simp
  | none =>
      dsimp only
      by_cases hfull : ctx.streams.length = ctx.acceptBacklog
      · simp [hfull]
      · simp [hfull]

theorem table_reuseSlot (ctx : Context) (i : Nat) (id : UInt32) :
    (reuseSlot ctx i id).2.table = ctx.table.set i ⟨id, true⟩ :=
  map_modify_eq_set SessionStream.entry
    (fun slot => { slot with stream := newStream id ctx.channels.length, alive := true })
    ⟨id, true⟩ (fun _ => rfl) _ _

theorem table_appendSlot (ctx : Context) (id : UInt32) :
    (appendSlot ctx id).2.table = ctx.table ++ [⟨id, true⟩] := List.map_append

/-- The three ways a call of `yamux_channel_new` goes, once the count of live streams is right. -/
theorem channelNew_cases {ctx : Context} (hcount : ctx.numStreams = SlotTable.countLive ctx.table)
    (id : UInt32) :
    (∃ i, SlotTable.firstDead ctx.table = some i ∧
      channelNew ctx id = (some ctx.channels.length,
        (reuseSlot (pickId ctx id).2 i (pickId ctx id).1).2)) ∨
    (SlotTable.firstDead ctx.table = none ∧ ctx.streams.length = ctx.acceptBacklog ∧
      channelNew ctx id = (none, (pickId ctx id).2)) ∨
    (SlotTable.firstDead ctx.table = none ∧ ctx.streams.length ≠ ctx.acceptBacklog ∧
      channelNew ctx id = (some ctx.channels.length,
        (appendSlot (pickId ctx id).2 (pickId ctx id).1).2)) := by
  obtain ⟨nextid, hrest⟩ := pickId_rest ctx id
  have hdead : deadSlot (pickId ctx id).2 = SlotTable.firstDead ctx.table := by
    rw [deadSlot_eq, table_pickId]
    rw [table_pickId, hrest]
    exact hcount
  unfold channelNew
  simp only [hdead]
  cases hfirst : SlotTable.firstDead ctx.table with
  | some i =>
      refine Or.inl ⟨i, rfl, ?_⟩
      rw [hrest]
      rfl
  | none =>
      refine Or.inr ?_
      by_cases hfull : ctx.streams.length = ctx.acceptBacklog
      · refine Or.inl ⟨rfl, hfull, ?_⟩
        rw [hrest]
        exact if_pos hfull
      · refine Or.inr ⟨rfl, hfull, ?_⟩
        rw [hrest]
        exact if_neg hfull

/-- No slot is dead, and either no slot is left or none holds the id. -/
def OpensSoundly (ctx : Context) (id : UInt32) : Prop :=
  (∀ slot ∈ ctx.streams, slot.alive) ∧
    (ctx.streams.length = ctx.acceptBacklog ∨ ∀ slot ∈ ctx.streams, slot.stream.id ≠ id)

/-- What the table satisfies as long as streams are opened and freed soundly. -/
structure TableInv (ctx : Context) : Prop where
  count : ctx.numStreams = SlotTable.countLive ctx.table
  bounded : ctx.streams.length ≤ ctx.acceptBacklog
  separated : SlotTable.Separated ctx.table
  freed : ctx.streams.map SessionStream.freed = ctx.table.map fun slot => !slot.live
  fault : ctx.fault = false

theorem TableInv.of_sameTable {ctx ctx' : Context} (hinv : TableInv ctx) (hsame : SameTable ctx ctx')
    (hfault : ctx'.fault = ctx.fault) : TableInv ctx' where
  count := by rw [hsame.numStreams, hsame.table, hinv.count]
  bounded := by rw [hsame.length, hsame.acceptBacklog]; exact hinv.bounded
  separated := by rw [hsame.table]; exact hinv.separated
  freed := by rw [hsame.freed, hsame.table, hinv.freed]
  fault := by rw [hfault, hinv.fault]

theorem TableInv.freed_eq {ctx : Context} (hinv : TableInv ctx) {slot : SessionStream}
    (hslot : slot ∈ ctx.streams) : slot.freed = !slot.alive := by
  have hfreed := hinv.freed
  rw [Context.table, List.map_map] at hfreed
  exact List.map_inj_left.mp hfreed slot hslot

theorem firstDead_table_eq_none {ctx : Context} :
    SlotTable.firstDead ctx.table = none ↔ ∀ slot ∈ ctx.streams, slot.alive := by
  rw [SlotTable.firstDead_eq_none, Context.table]
  exact List.forall_mem_map

theorem TableInv.sound {ctx : Context} (hinv : TableInv ctx)
    (halive : ∀ slot ∈ ctx.streams, slot.alive) : ctx.Sound := by
  intro slot hslot
  rw [hinv.freed_eq hslot, halive slot hslot]
  rfl

theorem tableInv_pickId {ctx : Context} (hinv : TableInv ctx) (id : UInt32) :
    TableInv (pickId ctx id).2 := by
  obtain ⟨nextid, hrest⟩ := pickId_rest ctx id
  rw [hrest]
  exact ⟨hinv.count, hinv.bounded, hinv.separated, hinv.freed, hinv.fault⟩

theorem tableInv_appendSlot {ctx : Context} (hinv : TableInv ctx)
    (hdead : SlotTable.firstDead ctx.table = none) (hroom : ctx.streams.length ≠ ctx.acceptBacklog)
    {id : UInt32} (hfresh : ∀ slot ∈ ctx.streams, slot.stream.id ≠ id) :
    TableInv (appendSlot ctx id).2 := by
  have hplace : (appendSlot ctx id).2.table = SlotTable.place ctx.table id := by
    rw [table_appendSlot, SlotTable.place, hdead]
  refine ⟨?_, ?_, ?_, ?_, hinv.fault⟩
  · rw [hplace, SlotTable.countLive_place, ← hinv.count]
    rfl
  · have hlength : (appendSlot ctx id).2.streams.length = ctx.streams.length + 1 :=
      List.length_append
    have hbound := hinv.bounded
    rw [hlength]
    change ctx.streams.length + 1 ≤ ctx.acceptBacklog
    omega
  · rw [hplace]
    refine SlotTable.separated_place hinv.separated ?_
    intro entry hentry _
    obtain ⟨slot, hslot, rfl⟩ := List.mem_map.mp hentry
    exact hfresh slot hslot
  · rw [table_appendSlot, List.map_append, ← hinv.freed]
    exact List.map_append

/-- Opening a stream soundly keeps the invariant and leaves no freed block in the table. -/
theorem tableInv_channelNew {ctx : Context} (hinv : TableInv ctx) {id : UInt32}
    (hopens : OpensSoundly ctx (pickId ctx id).1) :
    TableInv (channelNew ctx id).2 ∧ (channelNew ctx id).2.Sound := by
  have hdead := firstDead_table_eq_none.mpr hopens.1
  have hpick := tableInv_pickId hinv id
  obtain ⟨nextid, hrest⟩ := pickId_rest ctx id
  have hsound : (pickId ctx id).2.Sound := by
    rw [hrest]
    exact hinv.sound hopens.1
  obtain ⟨i, hsome, -⟩ | ⟨-, -, hnew⟩ | ⟨-, hroom, hnew⟩ := channelNew_cases hinv.count id
  · rw [hdead] at hsome
    cases hsome
  · rw [hnew]
    exact ⟨hpick, hsound⟩
  · rw [hnew]
    have hfresh := hopens.2.resolve_left hroom
    rw [hrest] at hpick hsound ⊢
    refine ⟨tableInv_appendSlot hpick hdead hroom hfresh, ?_⟩
    intro slot hslot
    rcases List.mem_append.mp hslot with hold | hlast
    · exact hsound slot hold
    · rw [List.mem_singleton.mp hlast]

/-- Opening a stream unsoundly uses a freed block or gives one id to two live streams. -/
theorem channelNew_unsound {ctx : Context} (hinv : TableInv ctx) {id : UInt32}
    (hopens : ¬OpensSoundly ctx (pickId ctx id).1) :
    (channelNew ctx id).2.fault = true ∨ ¬SlotTable.Separated (channelNew ctx id).2.table := by
  obtain ⟨nextid, hrest⟩ := pickId_rest ctx id
  obtain ⟨i, hdead, hnew⟩ | ⟨hdead, hfull, -⟩ | ⟨hdead, hroom, hnew⟩ := channelNew_cases hinv.count id
  · -- the slot used again is dead, so its block was freed
    left
    obtain ⟨hlt, hat, -⟩ := SlotTable.firstDead_eq_some hdead
    have hlt' : i < ctx.streams.length := by simpa [Context.table] using hlt
    have halive : ctx.streams[i].alive = false := by simpa [Context.table, SessionStream.entry] using hat
    have hfreed : ctx.streams[i].freed = true := by
      rw [hinv.freed_eq (List.getElem_mem hlt'), halive]
      rfl
    rw [hnew, hrest]
    change (ctx.fault || (ctx.streams[i]?.map SessionStream.freed).getD false) = true
    rw [List.getElem?_eq_getElem hlt', Option.map_some, hfreed]
    exact Bool.or_true _
  · exact absurd ⟨firstDead_table_eq_none.mp hdead, Or.inl hfull⟩ hopens
  · right
    have hlive := firstDead_table_eq_none.mp hdead
    obtain ⟨slot, hslot, hid⟩ : ∃ slot ∈ ctx.streams,
        slot.stream.id = (pickId ctx id).1 := by
      by_contra hnone
      push Not at hnone
      exact hopens ⟨hlive, Or.inr hnone⟩
    rw [hnew, table_appendSlot, table_pickId]
    intro hsep
    have hentry : slot.entry ∈ ctx.table := List.mem_map.mpr ⟨slot, hslot, rfl⟩
    exact (List.pairwise_append.mp hsep).2.2 _ hentry _ (List.mem_singleton.mpr rfl) rfl hid

/-! ### Freeing a stream -/

theorem TableInv.alive_freed {ctx : Context} (hinv : TableInv ctx) {slot : SessionStream}
    (hslot : slot ∈ ctx.streams) (halive : slot.alive) : slot.freed = false := by
  rw [hinv.freed_eq hslot, halive]
  rfl

theorem TableInv.getElem_table {ctx : Context} {i : Nat} {slot : SessionStream}
    (hslot : ctx.streams[i]? = some slot) : ctx.table[i]? = some slot.entry := by
  rw [Context.table, List.getElem?_map, hslot, Option.map_some]

theorem TableInv.findLive {ctx : Context} (hinv : TableInv ctx) {i : Nat} {slot : SessionStream}
    (hslot : ctx.streams[i]? = some slot) (halive : slot.alive) :
    (ctx.streams.findIdx? fun other => other.alive && other.stream.id == slot.stream.id) = some i := by
  obtain ⟨hlt, rfl⟩ := List.getElem?_eq_some_iff.mp hslot
  refine List.findIdx?_eq_some_iff_getElem.mpr ⟨hlt, by simpa using halive, fun j hj => ?_⟩
  have hpair := List.pairwise_iff_getElem.mp hinv.separated j i
    (by simpa [Context.table] using Nat.lt_trans hj hlt) (by simpa [Context.table] using hlt) hj
  simp only [Context.table, List.getElem_map, SessionStream.entry] at hpair
  have hne := hpair halive
  simp [hne]

/-- Slot `i` once its stream is freed. -/
def killSlot (streams : List SessionStream) (i : Nat) : List SessionStream :=
  (streams.modify i fun slot => { slot with freed := true }).modify i
    fun slot => { slot with alive := false }

theorem killSlot_entry (streams : List SessionStream) (i : Nat) :
    (killSlot streams i).map SessionStream.entry =
      SlotTable.kill (streams.map SessionStream.entry) i := by
  apply List.ext_getElem?
  intro j
  rw [killSlot, List.modify_modify_eq]
  simp only [SlotTable.kill, List.getElem?_map, List.getElem?_modify]
  by_cases hij : i = j <;> simp [hij, SessionStream.entry, Function.comp_def]

theorem killSlot_freed (streams : List SessionStream) (i : Nat) :
    (killSlot streams i).map SessionStream.freed = (streams.map SessionStream.freed).set i true := by
  rw [killSlot, List.modify_modify_eq]
  exact map_modify_eq_set SessionStream.freed
    ((fun slot => { slot with alive := false }) ∘ fun slot => { slot with freed := true }) true
    (fun _ => rfl) _ _

/-- The invariant of a session whose streams were replaced by those of another table. -/
theorem TableInv.replace {ctx : Context} (hinv : TableInv ctx) {streams : List SessionStream}
    {table : List (Slot UInt32)} {numStreams : Nat} (htable : streams.map SessionStream.entry = table)
    (hcount : numStreams = SlotTable.countLive table) (hlength : table.length ≤ ctx.table.length)
    (hsep : SlotTable.Separated table)
    (hfreed : streams.map SessionStream.freed = table.map fun slot => !slot.live) :
    TableInv { ctx with numStreams, streams } := by
  subst htable
  rw [Context.table, List.length_map, List.length_map] at hlength
  exact ⟨hcount, hlength.trans hinv.bounded, hsep, hfreed, hinv.fault⟩

theorem tableInv_streamFree {ctx : Context} (hinv : TableInv ctx) {i : Nat}
    (halive : ∀ slot, ctx.streams[i]? = some slot → slot.alive) : TableInv (streamFree ctx i) := by
  unfold streamFree
  cases hslot : ctx.streams[i]? with
  | none => exact hinv
  | some slot =>
      have halive := halive slot hslot
      have hfault : (ctx.fault || slot.freed) = ctx.fault := by
        rw [hinv.alive_freed (List.mem_of_getElem? hslot) halive, Bool.or_false]
      have hlt : i < ctx.table.length := by
        rw [Context.table, List.length_map]
        exact (List.getElem?_eq_some_iff.mp hslot).1
      have hlive : ctx.table[i].live := by
        have hentry := TableInv.getElem_table hslot
        rw [List.getElem?_eq_getElem hlt, Option.some.injEq] at hentry
        rw [hentry]
        exact halive
      have hcount := SlotTable.countLive_kill hlt hlive
      have hnum := hinv.count
      have hsep := SlotTable.separated_kill hinv.separated i
      have hfreed : (killSlot ctx.streams i).map SessionStream.freed =
          (SlotTable.kill ctx.table i).map fun slot => !slot.live := by
        rw [killSlot_freed, hinv.freed, SlotTable.kill, map_modify_eq_set _ _ true fun _ => rfl]
      simp only [hfault]
      rw [firstSlot_eq fun slot hslot halive => hinv.alive_freed hslot halive,
        hinv.findLive hslot halive]
      change TableInv { ctx with
        numStreams := ctx.numStreams - 1
        streams := if i = (killSlot ctx.streams i).length - 1 then (killSlot ctx.streams i).dropLast
          else killSlot ctx.streams i }
      by_cases hlast : i = (killSlot ctx.streams i).length - 1
      · rw [if_pos hlast]
        have hend : i = ctx.table.length - 1 := by
          rw [hlast]
          rw [killSlot, List.length_modify, List.length_modify, Context.table, List.length_map]
        have htable : (killSlot ctx.streams i).dropLast.map SessionStream.entry =
            (SlotTable.kill ctx.table i).dropLast := by
          rw [List.map_dropLast, killSlot_entry]
          rfl
        refine hinv.replace htable ?_ ?_ ?_ ?_
        · rw [hend, SlotTable.countLive_dropLast_kill, ← hend]
          omega
        · rw [List.length_dropLast, SlotTable.kill, List.length_modify]
          omega
        · exact hsep.sublist (List.dropLast_sublist _)
        · rw [List.map_dropLast, hfreed, List.map_dropLast]
      · rw [if_neg hlast]
        refine hinv.replace (killSlot_entry ctx.streams i) ?_ ?_ hsep hfreed
        · change ctx.numStreams - 1 = SlotTable.countLive (SlotTable.kill ctx.table i)
          omega
        · rw [SlotTable.kill, List.length_modify]
          rfl

theorem streamFree_dead {ctx : Context} (hinv : TableInv ctx) {i : Nat} {slot : SessionStream}
    (hslot : ctx.streams[i]? = some slot) (hdead : ¬slot.alive) :
    (streamFree ctx i).fault = true := by
  have hfreed : slot.freed = true := by
    rw [hinv.freed_eq (List.mem_of_getElem? hslot)]
    simpa using hdead
  unfold streamFree
  simp only [hslot, hfreed, Bool.or_true]
  have hsticky := (firstSlot_sameTable { ctx with fault := true } SessionStream.alive fun other =>
    other.alive && other.stream.id == slot.stream.id).sticky rfl
  split <;> exact hsticky

/-! ### Decoding a frame -/

/-- The frame that `yamux_decode` takes for the start of a new inbound stream. -/
def newInbound (env : Env) (ctx : Context) (incoming : Bytes) : Option Frame :=
  (Frame.read env.host incoming).filter fun f =>
    f.version = yamuxVersion && f.streamid != 0 && (findStream ctx f.streamid).1.isNone &&
      f.has frameSyn && inboundParity ctx f.streamid

theorem channelReceive_fault (env : Env) (ctx : Context) (i : Nat) (incoming : Bytes) :
    (channelReceive env ctx i incoming).2.fault = ctx.fault := by
  unfold channelReceive
  dsimp only
  repeat' first | rfl | split

theorem streamProcess_fault (env : Env) (ctx : Context) (i : Nat) (f : Frame) (incoming : Bytes) :
    (streamProcess env ctx i f incoming).2.fault = ctx.fault := by
  unfold streamProcess
  split
  · exact channelReceive_fault env _ i incoming
  · split
    · split
      · rfl
      · exact channelReceive_fault env ctx i incoming
    · rfl

theorem decodeStream_fault (env : Env) (ctx : Context) (i : Nat) (f : Frame) (incoming : Bytes) :
    (decodeStream env ctx i f incoming).2.fault = ctx.fault := by
  unfold decodeStream
  split
  · rfl
  · split
    · rfl
    · rename_i ctx' hflags
      rw [streamProcess_fault]
      obtain rfl | ⟨state, rfl⟩ := decodeFlags_cases hflags <;> rfl

theorem decodeSession_fault (env : Env) (ctx : Context) (f : Frame) :
    (decodeSession env ctx f).2.fault = ctx.fault := by
  unfold decodeSession sessionPing
  repeat' first | split | rfl

/-- Either a frame leaves the table and the blocks alone, or it opens an inbound stream. -/
theorem decode_cases (env : Env) {ctx : Context} (incoming : Bytes)
    (halive : ∀ slot ∈ ctx.streams, slot.alive → slot.freed = false) :
    (newInbound env ctx incoming = none ∧ SameTable ctx (decode env ctx incoming).2.2 ∧
      (decode env ctx incoming).2.2.fault = ctx.fault) ∨
    ∃ f, newInbound env ctx incoming = some f ∧ f.streamid ≠ 0 ∧
      SameTable (channelNew ctx f.streamid).2 (decode env ctx incoming).2.2 := by
  have hsame := SameTable.refl ctx
  unfold newInbound decode
  cases Frame.read env.host incoming with
  | none => exact Or.inl ⟨rfl, hsame, rfl⟩
  | some f =>
      rw [Option.filter_some]
      by_cases hversion : f.version = yamuxVersion
      · by_cases hid : f.streamid = 0
        · left
          simp only [hversion, hid, if_true]
          exact ⟨by simp, decodeSession_sameTable env ctx f, decodeSession_fault env ctx f⟩
        · have hfind := firstSlot_eq halive fun slot =>
            slot.alive && slot.stream.state != .closed && slot.stream.id == f.streamid
          change findStream ctx f.streamid = _ at hfind
          simp only [hversion, hid, if_false, hfind]
          cases ctx.streams.findIdx? fun slot =>
              slot.alive && slot.stream.state != .closed && slot.stream.id == f.streamid with
          | some i =>
              left
              exact ⟨by simp, (decodeStream_effect env ctx i f incoming).sameTable,
                decodeStream_fault env ctx i f incoming⟩
          | none =>
              simp only [decodeNew]
              by_cases hsyn : f.has frameSyn
              · by_cases hparity : inboundParity ctx f.streamid
                · right
                  refine ⟨f, by simp [hid, hsyn, hparity], hid, ?_⟩
                  simp only [hsyn, hparity, if_true]
                  obtain ⟨channel?, ctx'⟩ := channelNew ctx f.streamid
                  cases channel? with
                  | none => exact SameTable.refl ctx'
                  | some c => exact (acceptStream_effect env ctx' c f incoming).sameTable
                · left
                  simp only [hsyn, hparity]
                  exact ⟨by simp, hsame, rfl⟩
              · left
                simp only [hsyn]
                exact ⟨by simp, hsame, rfl⟩
      · left
        dsimp only
        rw [if_pos hversion]
        exact ⟨by simp [hversion], hsame, rfl⟩

theorem pickId_fst_of_ne {ctx : Context} {id : UInt32} (hid : id ≠ 0) : (pickId ctx id).1 = id := by
  rw [pickId, if_neg hid]

theorem tableInv_decode {env : Env} {ctx : Context} (hinv : TableInv ctx) {incoming : Bytes}
    (hopens : ∀ f, newInbound env ctx incoming = some f → OpensSoundly ctx f.streamid) :
    TableInv (decode env ctx incoming).2.2 := by
  obtain ⟨-, hsame, hfault⟩ | ⟨f, hnew, hid, hsame⟩ :=
    decode_cases env incoming fun slot => hinv.alive_freed
  · exact hinv.of_sameTable hsame hfault
  · have hsound := hopens f hnew
    rw [← pickId_fst_of_ne hid] at hsound
    obtain ⟨hchannel, hblocks⟩ := tableInv_channelNew hinv hsound
    exact hchannel.of_sameTable hsame (hsame.fault hblocks)

theorem decode_unsound {env : Env} {ctx : Context} (hinv : TableInv ctx) {incoming : Bytes} {f : Frame}
    (hnew : newInbound env ctx incoming = some f) (hopens : ¬OpensSoundly ctx f.streamid) :
    (decode env ctx incoming).2.2.fault = true ∨
      ¬SlotTable.Separated (decode env ctx incoming).2.2.table := by
  obtain ⟨hnone, -⟩ | ⟨f', hnew', hid, hsame⟩ :=
    decode_cases env incoming fun slot => hinv.alive_freed
  · rw [hnew] at hnone
    cases hnone
  · obtain rfl : f = f' := by
      rw [hnew] at hnew'
      exact Option.some.inj hnew'
    rw [← pickId_fst_of_ne hid] at hopens
    rw [hsame.table]
    exact (channelNew_unsound hinv hopens).imp_left hsame.sticky

/-! ### Runs -/

/-- The calls that open, free and look up streams. -/
inductive TableOp where
  | channelNew (id : UInt32)
  | streamFree (slot : Nat)
  | decode (incoming : Bytes)
deriving Repr, DecidableEq

def TableOp.toOp : TableOp → Op
  | .channelNew id => .channelNew id
  | .streamFree slot => .streamFree slot
  | .decode incoming => .decode incoming

def tableStep (env : Env) (ctx : Context) (op : TableOp) : Context := step env ctx op.toOp

/-- A stream is opened while no slot is dead and, if there is room for it, under an id that no slot
holds; what is freed is alive. -/
def TableOp.Sound (env : Env) (ctx : Context) : TableOp → Prop
  | .channelNew id => OpensSoundly ctx (pickId ctx id).1
  | .streamFree i => ∀ slot, ctx.streams[i]? = some slot → slot.alive
  | .decode incoming => ∀ f, newInbound env ctx incoming = some f → OpensSoundly ctx f.streamid

/-- The count is right, the table is within its bound, an id belongs to one live stream and looking it up
finds that stream, and no freed block was used. -/
structure OneLiveStream (ctx : Context) : Prop where
  count : ctx.numStreams = ctx.streams.countP SessionStream.alive
  bounded : ctx.streams.length ≤ ctx.acceptBacklog
  distinct : ∀ (i j : Nat) (slot other : SessionStream), ctx.streams[i]? = some slot →
    ctx.streams[j]? = some other → slot.alive → other.alive → slot.stream.id = other.stream.id → i = j
  found : ∀ i slot, ctx.streams[i]? = some slot → slot.alive →
    (getSessionStream ctx slot.stream.id).1 = some i
  fault : ctx.fault = false

theorem separated_of_found {ctx : Context}
    (hfound : ∀ i slot, ctx.streams[i]? = some slot → slot.alive →
      (getSessionStream ctx slot.stream.id).1 = some i) : SlotTable.Separated ctx.table := by
  refine List.pairwise_iff_getElem.mpr fun i j hi hj hij => ?_
  rw [Context.table, List.length_map] at hi hj
  simp only [Context.table, List.getElem_map, SessionStream.entry]
  intro halive
  have hlookup := hfound j _ (List.getElem?_eq_getElem hj) halive
  obtain ⟨_, -, hbefore⟩ := List.findIdx?_eq_some_iff_getElem.mp hlookup
  simpa using hbefore i hij

theorem TableInv.oneLiveStream {ctx : Context} (hinv : TableInv ctx) : OneLiveStream ctx where
  count := by rw [hinv.count, SlotTable.countLive, Context.table, List.countP_map]; rfl
  bounded := hinv.bounded
  distinct := by
    intro i j slot other hslot hother halive hother_alive hid
    obtain ⟨hi, rfl⟩ := List.getElem?_eq_some_iff.mp hslot
    obtain ⟨hj, rfl⟩ := List.getElem?_eq_some_iff.mp hother
    refine hinv.separated.eq_of_key_eq (i := i) (j := j) ?_ ?_ ?_ ?_ ?_ <;>
      simp only [Context.table, List.length_map, List.getElem_map, SessionStream.entry] <;> assumption
  found := by
    intro i slot hslot halive
    obtain ⟨hi, rfl⟩ := List.getElem?_eq_some_iff.mp hslot
    have hlookup := hinv.separated.lookup (i := i) (by rw [Context.table, List.length_map]; exact hi)
      (by simpa only [Context.table, List.getElem_map, SessionStream.entry] using halive)
    simp only [SlotTable.lookup, Context.table, List.findIdx?_map, List.getElem_map] at hlookup
    exact hlookup
  fault := hinv.fault

theorem tableStep_sound {env : Env} {ctx : Context} {op : TableOp} (hinv : TableInv ctx)
    (hsound : op.Sound env ctx) : TableInv (tableStep env ctx op) := by
  cases op with
  | channelNew id => exact (tableInv_channelNew hinv hsound).1
  | streamFree i => exact tableInv_streamFree hinv hsound
  | decode incoming => exact tableInv_decode hinv hsound

theorem tableStep_unsound {env : Env} {ctx : Context} {op : TableOp} (hinv : TableInv ctx)
    (hsound : ¬op.Sound env ctx) : ¬OneLiveStream (tableStep env ctx op) := by
  intro hgood
  have hsep := separated_of_found hgood.found
  have hfault : (tableStep env ctx op).fault ≠ true := by
    rw [hgood.fault]
    exact Bool.false_ne_true
  cases op with
  | channelNew id => exact (channelNew_unsound hinv hsound).elim hfault fun hnot => hnot hsep
  | streamFree i =>
      unfold TableOp.Sound at hsound
      push Not at hsound
      obtain ⟨slot, hslot, hdead⟩ := hsound
      exact hfault (streamFree_dead hinv hslot hdead)
  | decode incoming =>
      unfold TableOp.Sound at hsound
      push Not at hsound
      obtain ⟨f, hnew, hopens⟩ := hsound
      exact (decode_unsound hinv hnew hopens).elim hfault fun hnot => hnot hsep

theorem tableInv_sessionStart (acceptBacklog : Nat) (amServer : Bool) (state : StreamState)
    (outcomes : List Bool) : TableInv (sessionStart acceptBacklog amServer state outcomes) :=
  ⟨rfl, Nat.zero_le _, List.Pairwise.nil, rfl, rfl⟩

/-- **Runs on which the stream table is sound.** From a new session, every state reached by opening,
freeing and decoding has one live stream for each id exactly when every step is sound. -/
theorem oneLiveStream_iff_sound (env : Env) (acceptBacklog : Nat) (amServer : Bool)
    (state : StreamState) (outcomes : List Bool) (ops : List TableOp) :
    (∀ reached, reached <+: ops → OneLiveStream (run (tableStep env)
        (sessionStart acceptBacklog amServer state outcomes) reached)) ↔
      Along (tableStep env) (fun ctx op => op.Sound env ctx)
        (sessionStart acceptBacklog amServer state outcomes) ops :=
  along_iff_good (tableStep env) (fun ctx (hinv : TableInv ctx) => hinv.oneLiveStream)
    (fun _ _ => tableStep_sound) (fun _ _ => tableStep_unsound)
    (tableInv_sessionStart acceptBacklog amServer state outcomes)

/-- A reset stream keeps its slot, and the peer may open its id again. -/
theorem oneLiveStream_fails :
    ¬∀ (env : Env) (acceptBacklog : Nat) (amServer : Bool) (ops : List TableOp),
      OneLiveStream (run (tableStep env) (sessionNew acceptBacklog amServer) ops) := by
  intro hall
  have hdistinct := (hall ⟨.little, fun _ => false, true⟩ 256 true
    [.decode (Frame.network ⟨0, frameWindowUpdate, frameSyn, 1, 0⟩),
     .decode (Frame.network ⟨0, frameWindowUpdate, frameRst, 1, 0⟩),
     .decode (Frame.network ⟨0, frameWindowUpdate, frameSyn, 1, 0⟩)]).distinct 0 1 _ _ rfl rfl
  exact absurd (hdistinct rfl rfl rfl) Nat.zero_ne_one

end CLibp2p.YamuxV1
