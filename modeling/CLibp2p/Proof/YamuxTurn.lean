import CLibp2p.Yamux.Session

/-!
# What one pass of a frame loop can do

Each of the four loops of the session consumes one header per pass. The relations below list, once
and for all, how a pass can end: what it returns, which notes it leaves, and which bytes it took after
the header. Every invariant of the session is then a case analysis over them.
-/

namespace CLibp2p.Yamux

open Duplex Duplex.Prog

/-- What happened to the inbound side: `data` was read, and then a read failed or not. -/
inductive Flow where
  | took (data : Bytes)
  | broke (data : Bytes)

/-- `w'` is `w` after leaving `notes` and reading as `flow` says. -/
def Follows (w : Wire) (notes : List Note) : Flow → Wire → Prop
  | .took data, w' => data <+: w.inbound ∧ w'.inbound = w.inbound.drop data.length ∧
      w'.failed = w.failed ∧ w'.asked = w.asked ++ notes.map (·, ())
  | .broke data, w' => data <+: w.inbound ∧ w'.failed = true ∧
      w'.asked = w.asked ++ notes.map (·, ())

/-- Reading in two stages. -/
def Flow.andThen : Flow → Flow → Flow
  | .took first, .took second => .took (first ++ second)
  | .took first, .broke second => .broke (first ++ second)
  | .broke first, _ => .broke first

def Flow.data : Flow → Bytes
  | .took data => data
  | .broke data => data

def Flow.failed : Flow → Bool
  | .took _ => false
  | .broke _ => true

theorem Follows.refl (w : Wire) : Follows w [] (.took []) w :=
  ⟨List.nil_prefix, rfl, rfl, by simp⟩

theorem Follows.asked {w w' : Wire} {notes : List Note} {flow : Flow}
    (hfollows : Follows w notes flow w') : w'.asked = w.asked ++ notes.map (·, ()) := by
  cases flow with
  | took data => exact hfollows.2.2.2
  | broke data => exact hfollows.2.2

theorem Follows.data {w w' : Wire} {notes : List Note} {flow : Flow}
    (hfollows : Follows w notes flow w') : flow.data <+: w.inbound := by
  cases flow with
  | took data => exact hfollows.1
  | broke data => exact hfollows.1

theorem Follows.failed {w w' : Wire} {notes : List Note} {flow : Flow}
    (hfollows : Follows w notes flow w') : w'.failed = (w.failed || flow.failed) := by
  cases flow with
  | took data => rw [hfollows.2.2.1, Flow.failed, Bool.or_false]
  | broke data => rw [hfollows.2.1, Flow.failed, Bool.or_true]

/-- A failed stream stays failed, so the second stage of a broken read is of no consequence. -/
theorem Follows.trans {w w' w'' : Wire} {notes notes' : List Note} {flow flow' : Flow}
    (hfirst : Follows w notes flow w') (hsecond : Follows w' notes' flow' w'')
    (hsticky : w'.failed = true → w''.failed = true) :
    Follows w (notes ++ notes') (flow.andThen flow') w'' := by
  have hasked : w''.asked = w.asked ++ (notes ++ notes').map (·, ()) := by
    rw [hsecond.asked, hfirst.asked, List.map_append, List.append_assoc]
  cases flow with
  | broke data => exact ⟨hfirst.1, hsticky hfirst.2.1, hasked⟩
  | took data =>
      obtain ⟨⟨rest, hrest⟩, hinbound, hfailed, -⟩ := hfirst
      obtain ⟨rest', hrest'⟩ := hsecond.data
      have hboth : (data ++ flow'.data) ++ rest' = w.inbound := by
        rw [List.append_assoc, hrest', hinbound, ← hrest, List.drop_left]
      cases flow' with
      | broke data' => exact ⟨⟨rest', hboth⟩, hsecond.2.1, hasked⟩
      | took data' =>
          refine ⟨⟨rest', hboth⟩, ?_, hsecond.2.2.1.trans hfailed, hasked⟩
          rw [hsecond.2.1, hinbound, List.drop_drop, List.length_append]

theorem Follows.forget {w w' : Wire} {notes : List Note} {data : Bytes}
    (hfollows : Follows w notes (.broke data) w') : Follows w notes (.broke []) w' :=
  ⟨List.nil_prefix, hfollows.2⟩

/-! ### The small programs -/

theorem length_eq_zero_of_not_pos {length : UInt32} (hlength : ¬ 0 < length) : length = 0 := by
  apply UInt32.toNat_inj.mp
  rw [UInt32.lt_iff_toNat_lt] at hlength
  simpa using hlength

theorem run_note_follows (mark : Note) (w : Wire) :
    Follows w [mark] (.took []) ((note mark : Code Unit).run w).2 :=
  ⟨List.nil_prefix, rfl, rfl, rfl⟩

/-- The note `sendHeader` leaves. -/
def headerNote (hdr : Header) (ok : Bool) : Note := if ok then .emitted hdr else .refused hdr

theorem run_sendHeader (type : UInt8) (flags : UInt16) (streamId length : UInt32) (w : Wire) :
    ∃ ok w', (sendHeader type flags streamId length).run w = (ok, w') ∧
      Follows w [headerNote ⟨version, type, flags, streamId, length⟩ ok] (.took []) w' := by
  rw [sendHeader, run_bind, run_send]
  split
  · exact ⟨true, _, rfl, List.nil_prefix, rfl, rfl, rfl⟩
  · exact ⟨false, _, rfl, List.nil_prefix, rfl, rfl, rfl⟩

theorem run_readFull (len : Nat) (w : Wire) :
    (∃ data w', (readFull len).run w = (some data, w') ∧ data.length = len ∧
        Follows w [] (.took data) w') ∨
      ∃ w', (readFull len).run w = (none, w') ∧ Follows w [] (.broke []) w' := by
  obtain ⟨w', hrun, htook⟩ | ⟨w', hrun, hbroke⟩ := run_readExactly len w
  · have hlength : (w.inbound.take len).length = len := by
      rw [List.length_take]
      have := htook.enough
      omega
    refine Or.inl ⟨_, w', hrun, hlength, List.take_prefix _ _, ?_, htook.failed, ?_⟩
    · rw [htook.inbound, hlength]
    · rw [htook.asked, List.map_nil, List.append_nil]
  · exact Or.inr ⟨w', hrun, List.nil_prefix, hbroke.failed,
      by rw [hbroke.asked, List.map_nil, List.append_nil]⟩

theorem run_readHeader (w : Wire) :
    (∃ data hdr w', readHeader.run w = (some hdr, w') ∧ Header.decode data = some hdr ∧
        data.length = headerSize ∧ Follows w [] (.took data) w') ∨
      ∃ w', readHeader.run w = (none, w') ∧ Follows w [] (.broke []) w' := by
  rw [readHeader, run_bind]
  obtain ⟨data, w', hrun, hlength, hfollows⟩ | ⟨w', hrun, hbroke⟩ := run_readFull headerSize w
  · obtain ⟨hdr, hdecode⟩ := Header.decode_isSome hlength
    refine Or.inl ⟨data, hdr, w', ?_, hdecode, hlength, hfollows⟩
    rw [hrun]
    simp [hdecode]
  · refine Or.inr ⟨w', ?_, hbroke⟩
    rw [hrun]
    rfl

theorem run_discardLoop (fuel remaining : Nat) (w : Wire) (hfuel : remaining ≤ fuel) :
    (∃ data w', (discardLoop fuel remaining).run w = (true, w') ∧ data.length = remaining ∧
        Follows w [] (.took data) w') ∨
      ∃ w', (discardLoop fuel remaining).run w = (false, w') ∧ Follows w [] (.broke []) w' := by
  induction fuel generalizing remaining w with
  | zero =>
      obtain rfl : remaining = 0 := by omega
      exact Or.inl ⟨[], w, rfl, rfl, Follows.refl w⟩
  | succ fuel ih =>
      cases remaining with
      | zero => exact Or.inl ⟨[], w, rfl, rfl, Follows.refl w⟩
      | succ remaining =>
          have hchunk : 0 < min (remaining + 1) discardSize := by
            simp only [discardSize]
            omega
          rw [discardLoop, run_bind]
          obtain ⟨data, w', hrun, hlength, hfollows⟩ | ⟨w', hrun, hbroke⟩ :=
            run_readFull (min (remaining + 1) discardSize) w
          · rw [hrun]
            obtain ⟨data', w'', hrun', hlength', hfollows'⟩ | ⟨w'', hrun', hbroke'⟩ :=
              ih (remaining + 1 - min (remaining + 1) discardSize) w' (by omega)
            · refine Or.inl ⟨data ++ data', w'', hrun', ?_, ?_⟩
              · rw [List.length_append, hlength, hlength']
                omega
              · exact hfollows.trans hfollows' fun hfailed => by
                  rw [hfollows'.2.2.1, hfailed]
            · exact Or.inr ⟨w'', hrun', (hfollows.trans hbroke' fun _ => hbroke'.2.1).forget⟩
          · rw [hrun]
            exact Or.inr ⟨w', rfl, hbroke⟩

theorem run_discardPayload (length : UInt32) (w : Wire) :
    (∃ data w', (discardPayload length).run w = (true, w') ∧ data.length = length.toNat ∧
        Follows w [] (.took data) w') ∨
      ∃ w', (discardPayload length).run w = (false, w') ∧ Follows w [] (.broke []) w' :=
  run_discardLoop length.toNat length.toNat w le_rfl

theorem run_discardPayload_of_failed {length : UInt32} (w : Wire) (hlength : 0 < length)
    (hfailed : w.failed = true) : ((discardPayload length).run w).1 = false := by
  have hpos : 0 < length.toNat := UInt32.lt_iff_toNat_lt.mp hlength
  obtain ⟨n, hn⟩ : ∃ n, length.toNat = n + 1 := ⟨length.toNat - 1, by omega⟩
  have hchunk : 0 < min (n + 1) discardSize := by
    simp only [discardSize]
    omega
  rw [discardPayload, hn, discardLoop, run_bind]
  have hread := run_readExactly_of_failed w hchunk hfailed
  rw [readFull, hread]
  rfl

theorem discard_broke {length : UInt32} {w w' : Wire}
    (hrun : (discardPayload length).run w = (false, w')) : Follows w [] (.broke []) w' := by
  obtain ⟨data, w₁, hrun₁, -⟩ | ⟨w₁, hrun₁, hbroke⟩ := run_discardPayload length w
  · rw [hrun₁] at hrun
    simp at hrun
  · rw [hrun₁] at hrun
    obtain rfl : w₁ = w' := congrArg Prod.snd hrun
    exact hbroke

/-! ### Control frames -/

inductive Control (session : Session) (hdr : Header) : Bool → Session → List Note → Prop where
  | pong (htype : hdr.type = typePing) (hack : hdr.has flagAck = true) :
      Control session hdr true session []
  | ping (htype : hdr.type = typePing) (hack : hdr.has flagAck = false) (ok : Bool) :
      Control session hdr ok session [headerNote ⟨version, typePing, flagAck, 0, hdr.length⟩ ok]
  | goAway (htype : hdr.type = typeGoAway) :
      Control session hdr false { session with closed := true } []
  | other (hping : hdr.type ≠ typePing) (hgoAway : hdr.type ≠ typeGoAway) :
      Control session hdr true session []

theorem run_handleControlFrame (session : Session) (hdr : Header) (w : Wire) :
    ∃ ok session' notes w', (handleControlFrame session hdr).run w = ((ok, session'), w') ∧
      Control session hdr ok session' notes ∧ Follows w notes (.took []) w' := by
  rw [handleControlFrame]
  split
  · rename_i htype
    split
    · rename_i hack
      exact ⟨true, session, [], w, rfl, .pong htype hack, Follows.refl w⟩
    · rename_i hack
      obtain ⟨ok, w', hrun, hfollows⟩ := run_sendHeader typePing flagAck 0 hdr.length w
      refine ⟨ok, session, _, w', ?_, .ping htype (by simpa using hack) ok, hfollows⟩
      rw [run_bind, sendPingResponse, hrun]
      rfl
  · rename_i hping
    split
    · rename_i htype
      exact ⟨false, _, [], w.close, rfl, .goAway htype, List.nil_prefix, rfl, rfl, by simp [Duplex.Wire.close]⟩
    · rename_i hgoAway
      exact ⟨true, session, [], w, rfl, .other hping hgoAway, Follows.refl w⟩

/-! ### Reading -/

/-- The header of the credit a read grants for `length` bytes of stream `streamId`. -/
def creditHeader (streamId length : UInt32) : Header :=
  ⟨version, typeWindowUpdate, 0, streamId, length⟩

/-- `recv_window` after a payload of `length` bytes was accounted for. -/
def windowAfter (ctx : StreamContext) (length : UInt32) : UInt32 :=
  if length ≤ ctx.recvWindow then ctx.recvWindow - length else 0

/-- How a payload that arrived changes the window, with the note of the credit sent, if any. -/
inductive Replenish (ctx : StreamContext) (length : UInt32) : UInt32 → List Note → Prop where
  | kept (hsmall : ¬ windowUpdateThreshold ≤ initialWindowSize - windowAfter ctx length) :
      Replenish ctx length (windowAfter ctx length) []
  | refused (hlarge : windowUpdateThreshold ≤ initialWindowSize - windowAfter ctx length) :
      Replenish ctx length (windowAfter ctx length)
        [.refused (creditHeader ctx.streamId (initialWindowSize - windowAfter ctx length))]
  | granted (hlarge : windowUpdateThreshold ≤ initialWindowSize - windowAfter ctx length) :
      Replenish ctx length
        (windowAfter ctx length + (initialWindowSize - windowAfter ctx length))
        [.emitted (creditHeader ctx.streamId (initialWindowSize - windowAfter ctx length))]

inductive ReadFrame (count : Nat) (session : Session) (ctx : StreamContext) (hdr : Header) :
    (Session × StreamContext) ⊕ ReadResult → List Note → Flow → Prop where
  | badVersion (hversion : hdr.version ≠ version) :
      ReadFrame count session ctx hdr (.inr (none, session, ctx)) [] (.took [])
  | control {ok : Bool} {session' : Session} {notes : List Note}
      (htype : hdr.type = typePing ∨ hdr.type = typeGoAway)
      (hcontrol : Control session hdr ok session' notes) :
      ReadFrame count session ctx hdr
        (if ok then .inl (session', ctx) else .inr (none, session', ctx)) notes (.took [])
  | credit (hversion : hdr.version = version) (htype : hdr.type = typeWindowUpdate)
      (hid : hdr.streamId = ctx.streamId) :
      ReadFrame count session ctx hdr
        (.inl (session, { ctx with
          sendWindow := ctx.sendWindow + hdr.length
          synAckReceived := ctx.synAckReceived || hdr.has flagAck })) [] (.took [])
  | foreignCredit (htype : hdr.type = typeWindowUpdate) (hid : hdr.streamId ≠ ctx.streamId) :
      ReadFrame count session ctx hdr (.inl (session, ctx)) [] (.took [])
  | unknown {data : Bytes} (hversion : hdr.version = version) (hping : hdr.type ≠ typePing)
      (hgoAway : hdr.type ≠ typeGoAway) (hwindow : hdr.type ≠ typeWindowUpdate)
      (hdata : hdr.type ≠ typeData) (hlength : data.length = hdr.length.toNat) :
      ReadFrame count session ctx hdr (.inl (session, ctx)) [] (.took data)
  | buffered {data : Bytes} (htype : hdr.type = typeData) (hid : hdr.streamId ≠ ctx.streamId)
      (hqueued : pendingExists session hdr.streamId = true)
      (hlength : data.length = hdr.length.toNat) (ok : Bool) :
      ReadFrame count session ctx hdr (.inl (pendingBuffer session hdr.streamId data, ctx))
        [headerNote (creditHeader hdr.streamId hdr.length) ok] (.took data)
  | dropped {data : Bytes} (htype : hdr.type = typeData) (hid : hdr.streamId ≠ ctx.streamId)
      (hunqueued : pendingExists session hdr.streamId = false ∨ hdr.length = 0)
      (hlength : data.length = hdr.length.toNat) :
      ReadFrame count session ctx hdr (.inl (session, ctx)) [] (.took data)
  | finished (htype : hdr.type = typeData) (hid : hdr.streamId = ctx.streamId)
      (hempty : hdr.length = 0) :
      ReadFrame count session ctx hdr (.inr (some [], session, { ctx with closed := true })) []
        (.took [])
  | empty (htype : hdr.type = typeData) (hid : hdr.streamId = ctx.streamId)
      (hempty : hdr.length = 0) :
      ReadFrame count session ctx hdr (.inl (session, ctx)) [] (.took [])
  | delivered {data : Bytes} {window : UInt32} {notes : List Note} (htype : hdr.type = typeData)
      (hid : hdr.streamId = ctx.streamId) (hfull : hdr.length ≠ 0)
      (hlength : data.length = hdr.length.toNat) (hreplenish : Replenish ctx hdr.length window notes) :
      ReadFrame count session ctx hdr
        (.inr (some (data.take count), session, { ctx with
          recvWindow := window
          closed := ctx.closed || hdr.has flagFin
          readBuffer := data
          readBufferPos := min count hdr.length.toNat })) notes (.took data)
  | failedDiscard (htype : hdr.type ≠ typeWindowUpdate)
      (hother : hdr.type ≠ typeData ∨ hdr.streamId ≠ ctx.streamId ∧
        (pendingExists session hdr.streamId = false ∨ hdr.length = 0)) :
      ReadFrame count session ctx hdr (.inr (none, session, ctx)) [] (.broke [])
  | failedBuffer (htype : hdr.type = typeData) (hid : hdr.streamId ≠ ctx.streamId) (ok : Bool) :
      ReadFrame count session ctx hdr (.inr (none, session, ctx))
        [headerNote (creditHeader hdr.streamId hdr.length) ok, .truncated hdr] (.broke [])
  | failed (htype : hdr.type = typeData) (hid : hdr.streamId = ctx.streamId) :
      ReadFrame count session ctx hdr (.inr (none, session, ctx)) [.truncated hdr] (.broke [])

theorem run_takePayload (count : Nat) (session : Session) (ctx : StreamContext) (fin : Bool)
    (payload : Bytes) (length : UInt32) (w : Wire) :
    ∃ window notes w', (takePayload count session ctx fin payload length).run w =
        ((some (payload.take count), session, { ctx with
          recvWindow := window
          closed := ctx.closed || fin
          readBuffer := payload
          readBufferPos := min count length.toNat }), w') ∧
      Replenish ctx length window notes ∧ Follows w notes (.took []) w' := by
  rw [takePayload]
  change ∃ window notes w', (_ : _ × Wire) = _ ∧ _
  by_cases hlarge : windowUpdateThreshold ≤ initialWindowSize - windowAfter ctx length
  · obtain ⟨ok, w', hrun, hfollows⟩ := run_sendHeader typeWindowUpdate 0 ctx.streamId
      (initialWindowSize - windowAfter ctx length) w
    have hlarge' := hlarge
    rw [windowAfter] at hlarge' hrun
    cases ok with
    | true =>
        refine ⟨_, _, w', ?_, .granted hlarge, hfollows⟩
        simp only [run_bind, if_pos hlarge', hrun]
        rfl
    | false =>
        refine ⟨_, _, w', ?_, .refused hlarge, hfollows⟩
        simp only [run_bind, if_pos hlarge', hrun]
        rfl
  · refine ⟨_, _, w, ?_, .kept hlarge, Follows.refl w⟩
    rw [windowAfter] at hlarge
    simp only [run_bind, if_neg hlarge]
    rfl

theorem run_discard_follows (turn fallback : (Session × StreamContext) ⊕ ReadResult)
    (length : UInt32) (w : Wire) :
    (∃ data w', (do
          if ← discardPayload length then pure turn else pure fallback : Code _).run w = (turn, w') ∧
        data.length = length.toNat ∧ Follows w [] (.took data) w') ∨
      ∃ w', (do
          if ← discardPayload length then pure turn else pure fallback : Code _).run w =
            (fallback, w') ∧ Follows w [] (.broke []) w' := by
  obtain ⟨data, w', hrun, hlength, hfollows⟩ | ⟨w', hrun, hbroke⟩ := run_discardPayload length w
  · exact Or.inl ⟨data, w', by simp [hrun], hlength, hfollows⟩
  · exact Or.inr ⟨w', by simp [hrun], hbroke⟩

theorem run_readFrame (count : Nat) (session : Session) (ctx : StreamContext) (hdr : Header)
    (w : Wire) :
    ∃ turn notes flow w', (readFrame count session ctx hdr).run w = (turn, w') ∧
      ReadFrame count session ctx hdr turn notes flow ∧ Follows w notes flow w' := by
  rw [readFrame]
  split
  · rename_i hversion
    exact ⟨_, _, _, w, rfl, .badVersion hversion, Follows.refl w⟩
  rename_i hversion
  split
  · rename_i htype
    obtain ⟨ok, session', notes, w', hrun, hcontrol, hfollows⟩ :=
      run_handleControlFrame session hdr w
    refine ⟨_, notes, _, w', ?_, .control htype hcontrol, hfollows⟩
    rw [run_bind, hrun]
    cases ok <;> rfl
  rename_i hcontrol
  rw [not_or] at hcontrol
  split
  · rename_i htype
    split
    · rename_i hid
      exact ⟨_, _, _, w, rfl, .credit (not_not.mp hversion) htype hid, Follows.refl w⟩
    · rename_i hid
      exact ⟨_, _, _, w, rfl, .foreignCredit htype hid, Follows.refl w⟩
  rename_i hwindow
  split
  · rename_i hdata
    obtain ⟨data, w', hrun, hlength, hfollows⟩ | ⟨w', hrun, hbroke⟩ :=
      run_discard_follows (.inl (session, ctx)) (.inr (none, session, ctx)) hdr.length w
    · exact ⟨_, _, _, w', hrun, .unknown (not_not.mp hversion) hcontrol.1 hcontrol.2 hwindow hdata
        hlength, hfollows⟩
    · exact ⟨_, _, _, w', hrun, .failedDiscard hwindow (Or.inl hdata), hbroke⟩
  rename_i hdata
  rw [not_not] at hdata
  split
  · rename_i hid
    split
    · rename_i hqueued
      obtain ⟨ok, w₁, hsend, hfollows₁⟩ :=
        run_sendHeader typeWindowUpdate 0 hdr.streamId hdr.length w
      obtain ⟨data, w₂, hread, hlength, hfollows₂⟩ | ⟨w₂, hread, hbroke₂⟩ :=
        run_readFull hdr.length.toNat w₁
      · refine ⟨_, _, _, w₂, ?_, .buffered hdata hid hqueued.1 hlength ok, ?_⟩
        · rw [run_bind, hsend, run_bind, hread]
          rfl
        · exact hfollows₁.trans hfollows₂ fun hfailed => by rw [hfollows₂.2.2.1, hfailed]
      · have hmark := hbroke₂.trans (run_note_follows (.truncated hdr) w₂) id
        set w₃ := ((note (.truncated hdr) : Code Unit).run w₂).2
        have hdiscard : (discardPayload hdr.length).run w₃ =
            (false, ((discardPayload hdr.length).run w₃).2) :=
          Prod.ext (run_discardPayload_of_failed w₃ hqueued.2 hmark.2.1) rfl
        have hbroke₃ := discard_broke hdiscard
        refine ⟨_, _, .broke [], ((discardPayload hdr.length).run w₃).2, ?_,
          .failedBuffer hdata hid ok, ?_⟩
        · rw [run_bind, hsend, run_bind, hread]
          simp only [run_bind]
          change (if ((discardPayload hdr.length).run w₃).1 then _ else _ : Code _).run _ = _
          rw [hdiscard]
          rfl
        · exact (hfollows₁.trans hmark fun _ => hmark.2.1).trans hbroke₃ fun _ => hbroke₃.2.1
    · rename_i hrest
      have hunqueued : pendingExists session hdr.streamId = false ∨ hdr.length = 0 := by
        by_cases hexists : pendingExists session hdr.streamId = true
        · exact Or.inr (length_eq_zero_of_not_pos fun hpos => hrest ⟨hexists, hpos⟩)
        · exact Or.inl (by simpa using hexists)
      obtain ⟨data, w', hrun, hlength, hfollows⟩ | ⟨w', hrun, hbroke⟩ :=
        run_discard_follows (.inl (session, ctx)) (.inr (none, session, ctx)) hdr.length w
      · exact ⟨_, _, _, w', hrun, .dropped hdata hid hunqueued hlength, hfollows⟩
      · exact ⟨_, _, _, w', hrun, .failedDiscard hwindow (Or.inr ⟨hid, hunqueued⟩), hbroke⟩
  rename_i hid
  rw [not_not] at hid
  split
  · rename_i hempty
    split
    · exact ⟨_, _, _, w, rfl, .finished hdata hid hempty, Follows.refl w⟩
    · exact ⟨_, _, _, w, rfl, .empty hdata hid hempty, Follows.refl w⟩
  · rename_i hfull
    obtain ⟨data, w₁, hread, hlength, hfollows₁⟩ | ⟨w₁, hread, hbroke₁⟩ :=
      run_readFull hdr.length.toNat w
    · obtain ⟨window, notes, w₂, htake, hreplenish, hfollows₂⟩ :=
        run_takePayload count session ctx (hdr.has flagFin) data hdr.length w₁
      refine ⟨_, notes, .took data, w₂, ?_, .delivered hdata hid hfull hlength hreplenish, ?_⟩
      · rw [run_bind, hread]
        simp only [run_bind, htake]
        rfl
      · simpa [Flow.andThen] using hfollows₁.trans hfollows₂ fun hfailed => by
          rw [hfollows₂.2.2.1, hfailed]
    · refine ⟨_, _, _, ((note (.truncated hdr) : Code Unit).run w₁).2, ?_, .failed hdata hid,
        hbroke₁.trans (run_note_follows (.truncated hdr) w₁) id⟩
      rw [run_bind, hread]
      rfl

theorem run_onHeader {α : Type} (fallback : α) (mark : Header → Note) (frame : Header → Code α)
    (w : Wire) :
    (∃ w', (onHeader fallback mark frame).run w = (fallback, w') ∧ Follows w [] (.broke []) w') ∨
      ∃ head hdr w', (onHeader fallback mark frame).run w = (frame hdr).run w' ∧
        Header.decode head = some hdr ∧ head.length = headerSize ∧ w.failed = false ∧
        Follows w [mark hdr] (.took head) w' := by
  obtain ⟨head, hdr, w', hrun, hdecode, hlength, hfollows⟩ | ⟨w', hrun, hbroke⟩ := run_readHeader w
  · refine Or.inr
      ⟨head, hdr, ((note (mark hdr) : Code Unit).run w').2, ?_, hdecode, hlength, ?_, ?_⟩
    · rw [onHeader, run_bind, hrun]
      rfl
    · by_contra hfailed
      rw [readHeader, run_bind, readFull,
        run_readExactly_of_failed w (by decide) (by simpa using hfailed)] at hrun
      cases hrun
    · simpa [Flow.andThen] using hfollows.trans (run_note_follows (mark hdr) w') id
  · refine Or.inl ⟨w', ?_, hbroke⟩
    rw [onHeader, run_bind, hrun]
    rfl

inductive ReadTurn (count : Nat) (session : Session) (ctx : StreamContext) :
    (Session × StreamContext) ⊕ ReadResult → List Note → Flow → Prop where
  | closed (hclosed : (session.closed || ctx.closed) = true) :
      ReadTurn count session ctx (.inr (none, session, ctx)) [] (.took [])
  | served (hbuffered : ctx.readBufferPos < ctx.readBuffer.length) :
      ReadTurn count session ctx (.inr (some (ctx.unread.take count), session, { ctx with
        readBufferPos := ctx.readBufferPos + (ctx.unread.take count).length })) [] (.took [])
  | headerFailed : ReadTurn count session ctx (.inr (none, session, ctx)) [] (.broke [])
  | frame {head : Bytes} {hdr : Header} {turn : (Session × StreamContext) ⊕ ReadResult}
      {notes : List Note} {flow : Flow} (hopen : (session.closed || ctx.closed) = false)
      (hread : ctx.readBuffer.length ≤ ctx.readBufferPos)
      (hdecode : Header.decode head = some hdr) (hlength : head.length = headerSize)
      (hframe : ReadFrame count session ctx hdr turn notes flow) :
      ReadTurn count session ctx turn
        (.received (.read ctx.handle ctx.streamId) session.queued hdr :: notes)
        ((Flow.took head).andThen flow)

theorem absurd_of_failed {w : Wire} {p : Prop} (hlive : w.failed = false)
    (hfailed : w.failed = true) : p := by
  rw [hlive] at hfailed
  cases hfailed

theorem failed_of_run {α : Type} {p : Code α} {w w' : Wire} {value : α}
    (hrun : p.run w = (value, w')) (hfailed : w.failed = true) : w'.failed = true := by
  have := failed_run p w hfailed
  rwa [hrun] at this

theorem run_readTurn (count : Nat) (session : Session) (ctx : StreamContext) (w : Wire) :
    ∃ turn notes flow w', (readTurn count (session, ctx)).run w = (turn, w') ∧
      ReadTurn count session ctx turn notes flow ∧ Follows w notes flow w' ∧
      (w.failed = true → notes = []) := by
  rw [readTurn]
  split
  · rename_i hclosed
    exact ⟨_, _, _, w, rfl, .closed hclosed, Follows.refl w, fun _ => rfl⟩
  rename_i hopen
  split
  · rename_i hbuffered
    exact ⟨_, _, _, w, rfl, .served hbuffered, Follows.refl w, fun _ => rfl⟩
  rename_i hread
  obtain ⟨w', hrun, hbroke⟩ | ⟨head, hdr, w₁, hrun, hdecode, hlength, hlive, hfollows₁⟩ :=
    run_onHeader (.inr (none, session, ctx))
      (.received (.read ctx.handle ctx.streamId) session.queued) (readFrame count session ctx) w
  · exact ⟨_, _, _, w', hrun, .headerFailed, hbroke, fun _ => rfl⟩
  · obtain ⟨turn, notes, flow, w₂, hframe, hcase, hfollows₂⟩ :=
      run_readFrame count session ctx hdr w₁
    exact ⟨turn, _, _, w₂, hrun.trans hframe,
      .frame (by simpa using hopen) (Nat.le_of_not_lt hread) hdecode hlength hcase,
      hfollows₁.trans hfollows₂ (failed_of_run hframe), absurd_of_failed hlive⟩

/-! ### Opening -/

/-- The header that acknowledges stream `streamId`. -/
def ackHeader (streamId : UInt32) : Header := ⟨version, typeWindowUpdate, flagAck, streamId, 0⟩

inductive OpenFrame (session : Session) (ctx : StreamContext) (hdr : Header) :
    (Session × StreamContext) ⊕ OpenResult → List Note → Flow → Prop where
  | control {ok : Bool} {session' : Session} {notes : List Note}
      (htype : hdr.type = typePing ∨ hdr.type = typeGoAway)
      (hcontrol : Control session hdr ok session' notes) :
      OpenFrame session ctx hdr (if ok then .inl (session', ctx) else .inr (none, session')) notes
        (.took [])
  | acked (htype : hdr.type = typeWindowUpdate) (hid : hdr.streamId = ctx.streamId) :
      OpenFrame session ctx hdr
        (.inr (some { ctx with
          sendWindow := ctx.sendWindow + hdr.length
          synAckReceived := true }, session)) [] (.took [])
  | credit (htype : hdr.type = typeWindowUpdate) (hid : hdr.streamId = ctx.streamId) :
      OpenFrame session ctx hdr
        (.inl (session, { ctx with sendWindow := ctx.sendWindow + hdr.length })) [] (.took [])
  | requeued (hown : ¬(hdr.type = typeWindowUpdate ∧ hdr.streamId = ctx.streamId))
      (hopens : hdr.opensStream = true) (hqueued : pendingExists session hdr.streamId = true) :
      OpenFrame session ctx hdr (.inl (session, ctx)) [] (.took [])
  | queued {data : Bytes} (hown : ¬(hdr.type = typeWindowUpdate ∧ hdr.streamId = ctx.streamId))
      (hopens : hdr.opensStream = true) (hunqueued : pendingExists session hdr.streamId = false)
      (hlength : data.length = hdr.payloadLength) (ok : Bool) :
      OpenFrame session ctx hdr
        (.inl (pendingBuffer (pendingAdd session hdr.streamId) hdr.streamId data, ctx))
        [headerNote (ackHeader hdr.streamId) ok] (.took data)
  | buffered {data : Bytes} (htype : hdr.type = typeData) (hopens : hdr.opensStream = false)
      (hqueued : pendingExists session hdr.streamId = true)
      (hlength : data.length = hdr.length.toNat) :
      OpenFrame session ctx hdr (.inl (pendingBuffer session hdr.streamId data, ctx)) []
        (.took data)
  | discarded {data : Bytes} (hping : hdr.type ≠ typePing) (hgoAway : hdr.type ≠ typeGoAway)
      (hown : ¬(hdr.type = typeWindowUpdate ∧ hdr.streamId = ctx.streamId))
      (hopens : hdr.opensStream = false)
      (hunqueued : hdr.type = typeData → pendingExists session hdr.streamId = false)
      (hlength : data.length = hdr.length.toNat) :
      OpenFrame session ctx hdr (.inl (session, ctx)) [] (.took data)
  | failedQueue (htype : hdr.type = typeData) (hopens : hdr.opensStream = true)
      (hunqueued : pendingExists session hdr.streamId = false) (ok : Bool) :
      OpenFrame session ctx hdr (.inl (pendingAdd session hdr.streamId, ctx))
        [headerNote (ackHeader hdr.streamId) ok, .truncated hdr] (.broke [])
  | failedBuffer (htype : hdr.type = typeData) :
      OpenFrame session ctx hdr (.inl (session, ctx)) [.truncated hdr] (.broke [])
  | failedDiscard (hown : ¬(hdr.type = typeWindowUpdate ∧ hdr.streamId = ctx.streamId)) :
      OpenFrame session ctx hdr (.inr (none, session)) [] (.broke [])

@[simp] theorem bufferFirst_nil_data (streamId : UInt32) (pending : List PendingInbound) :
    bufferFirst streamId [] pending = pending := by
  induction pending with
  | nil => rfl
  | cons entry rest ih =>
      rw [bufferFirst, ih]
      split <;> simp

@[simp] theorem pendingBuffer_nil (session : Session) (streamId : UInt32) :
    pendingBuffer session streamId [] = session := by
  rw [pendingBuffer, bufferFirst_nil_data]

theorem payloadLength_of_data {hdr : Header} (htype : hdr.type = typeData) :
    hdr.payloadLength = hdr.length.toNat := if_pos htype

theorem payloadLength_eq_zero {hdr : Header} (hempty : ¬(hdr.type = typeData ∧ 0 < hdr.length)) :
    hdr.payloadLength = 0 := by
  rw [Header.payloadLength]
  split
  · rename_i htype
    rw [length_eq_zero_of_not_pos fun hpos => hempty ⟨htype, hpos⟩]
    rfl
  · rfl

theorem run_openFrame (session : Session) (ctx : StreamContext) (hdr : Header) (w : Wire) :
    ∃ turn notes flow w', (openFrame session ctx hdr).run w = (turn, w') ∧
      OpenFrame session ctx hdr turn notes flow ∧ Follows w notes flow w' := by
  rw [openFrame]
  split
  · rename_i htype
    obtain ⟨ok, session', notes, w', hrun, hcontrol, hfollows⟩ :=
      run_handleControlFrame session hdr w
    refine ⟨_, notes, _, w', ?_, .control htype hcontrol, hfollows⟩
    rw [run_bind, hrun]
    cases ok <;> rfl
  rename_i hcontrol
  rw [not_or] at hcontrol
  split
  · rename_i hown
    dsimp only
    split
    · exact ⟨_, _, _, w, rfl, .acked hown.1 hown.2, Follows.refl w⟩
    · exact ⟨_, _, _, w, rfl, .credit hown.1 hown.2, Follows.refl w⟩
  rename_i hown
  split
  · rename_i hopens
    split
    · rename_i hqueued
      exact ⟨_, _, _, w, rfl, .requeued hown hopens hqueued, Follows.refl w⟩
    rename_i hunqueued
    rw [Bool.not_eq_true] at hunqueued
    obtain ⟨ok, w₁, hsend, hfollows₁⟩ :=
      run_sendHeader typeWindowUpdate flagAck hdr.streamId 0 w
    rw [run_bind, hsend]
    dsimp only
    split
    · rename_i hdata
      rw [run_bind]
      obtain ⟨data, w₂, hread, hlength, hfollows₂⟩ | ⟨w₂, hread, hbroke₂⟩ :=
        run_readFull hdr.length.toNat w₁
      · refine ⟨_, _, _, w₂, by rw [hread]; rfl, .queued hown hopens hunqueued ?_ ok, ?_⟩
        · rw [hlength, payloadLength_of_data hdata.1]
        · exact hfollows₁.trans hfollows₂ (failed_of_run hread)
      · have hmark := hbroke₂.trans (run_note_follows (.truncated hdr) w₂) id
        exact ⟨_, _, _, _, by rw [hread]; rfl, .failedQueue hdata.1 hopens hunqueued ok,
          hfollows₁.trans hmark fun _ => hmark.2.1⟩
    · rename_i hempty
      refine ⟨_, _, _, w₁, rfl, ?_, hfollows₁⟩
      have hlength : ([] : Bytes).length = hdr.payloadLength := (payloadLength_eq_zero hempty).symm
      have hcase := OpenFrame.queued hown hopens hunqueued hlength ok
      rwa [pendingBuffer_nil] at hcase
  rename_i hopens
  rw [Bool.not_eq_true] at hopens
  split
  · rename_i hqueued
    split
    · rw [run_bind]
      obtain ⟨data, w₁, hread, hlength, hfollows₁⟩ | ⟨w₁, hread, hbroke₁⟩ :=
        run_readFull hdr.length.toNat w
      · exact ⟨_, _, _, w₁, by rw [hread]; rfl, .buffered hqueued.1 hopens hqueued.2 hlength,
          hfollows₁⟩
      · exact ⟨_, _, _, _, by rw [hread]; rfl, .failedBuffer hqueued.1,
          hbroke₁.trans (run_note_follows (.truncated hdr) w₁) id⟩
    · rename_i hpos
      refine ⟨_, _, _, w, rfl, ?_, Follows.refl w⟩
      have hlength : ([] : Bytes).length = hdr.length.toNat := by
        rw [length_eq_zero_of_not_pos hpos]
        rfl
      have hcase : OpenFrame session ctx hdr
          (.inl (pendingBuffer session hdr.streamId [], ctx)) [] (.took []) :=
        .buffered hqueued.1 hopens hqueued.2 hlength
      rwa [pendingBuffer_nil] at hcase
  · rename_i hunqueued
    rw [run_bind]
    obtain ⟨data, w', hrun, hlength, hfollows⟩ | ⟨w', hrun, hbroke⟩ := run_discardPayload hdr.length w
    · refine ⟨_, _, _, w', by rw [hrun]; rfl, .discarded hcontrol.1 hcontrol.2 hown hopens ?_ hlength,
        hfollows⟩
      intro hdata
      rw [← Bool.not_eq_true]
      exact fun hexists => hunqueued ⟨hdata, hexists⟩
    · exact ⟨_, _, _, w', by rw [hrun]; rfl, .failedDiscard hown, hbroke⟩

inductive OpenTurn (session : Session) (ctx : StreamContext) :
    (Session × StreamContext) ⊕ OpenResult → List Note → Flow → Prop where
  | headerFailed : OpenTurn session ctx (.inr (none, session)) [] (.broke [])
  | frame {head : Bytes} {hdr : Header} {turn : (Session × StreamContext) ⊕ OpenResult}
      {notes : List Note} {flow : Flow} (hdecode : Header.decode head = some hdr)
      (hlength : head.length = headerSize) (hframe : OpenFrame session ctx hdr turn notes flow) :
      OpenTurn session ctx turn
        (.received (.open ctx.handle ctx.streamId) session.queued hdr :: notes)
        ((Flow.took head).andThen flow)

theorem run_openTurn (session : Session) (ctx : StreamContext) (w : Wire) :
    ∃ turn notes flow w', (openTurn (session, ctx)).run w = (turn, w') ∧
      OpenTurn session ctx turn notes flow ∧ Follows w notes flow w' ∧
      (w.failed = true → notes = []) := by
  rw [openTurn]
  obtain ⟨w', hrun, hbroke⟩ | ⟨head, hdr, w₁, hrun, hdecode, hlength, hlive, hfollows₁⟩ :=
    run_onHeader (.inr (none, session)) (.received (.open ctx.handle ctx.streamId) session.queued)
      (openFrame session ctx) w
  · exact ⟨_, _, _, w', hrun, .headerFailed, hbroke, fun _ => rfl⟩
  · obtain ⟨turn, notes, flow, w₂, hframe, hcase, hfollows₂⟩ := run_openFrame session ctx hdr w₁
    exact ⟨turn, _, _, w₂, hrun.trans hframe, .frame hdecode hlength hcase,
      hfollows₁.trans hfollows₂ (failed_of_run hframe), absurd_of_failed hlive⟩

/-! ### Waiting for a SYN -/

inductive SynFrame (session : Session) (hdr : Header) :
    Session ⊕ (Option Header × Session) → List Note → Flow → Prop where
  | control {ok : Bool} {session' : Session} {notes : List Note}
      (htype : hdr.type = typePing ∨ hdr.type = typeGoAway)
      (hcontrol : Control session hdr ok session' notes) :
      SynFrame session hdr (if ok then .inl session' else .inr (none, session')) notes (.took [])
  | opened (hopens : hdr.opensStream = true) :
      SynFrame session hdr (.inr (some hdr, session)) [] (.took [])
  | discarded {data : Bytes} (hping : hdr.type ≠ typePing) (hgoAway : hdr.type ≠ typeGoAway)
      (hopens : hdr.opensStream = false) (hlength : data.length = hdr.length.toNat) :
      SynFrame session hdr (.inl session) [] (.took data)
  | failed (hopens : hdr.opensStream = false) :
      SynFrame session hdr (.inr (none, session)) [] (.broke [])

theorem run_synFrame (session : Session) (hdr : Header) (w : Wire) :
    ∃ turn notes flow w', (synFrame session hdr).run w = (turn, w') ∧
      SynFrame session hdr turn notes flow ∧ Follows w notes flow w' := by
  rw [synFrame]
  split
  · rename_i htype
    obtain ⟨ok, session', notes, w', hrun, hcontrol, hfollows⟩ :=
      run_handleControlFrame session hdr w
    refine ⟨_, notes, _, w', ?_, .control htype hcontrol, hfollows⟩
    rw [run_bind, hrun]
    cases ok <;> rfl
  rename_i hcontrol
  rw [not_or] at hcontrol
  split
  · rename_i hopens
    exact ⟨_, _, _, w, rfl, .opened hopens, Follows.refl w⟩
  · rename_i hopens
    rw [Bool.not_eq_true] at hopens
    rw [run_bind]
    obtain ⟨data, w', hrun, hlength, hfollows⟩ | ⟨w', hrun, hbroke⟩ := run_discardPayload hdr.length w
    · exact ⟨_, _, _, w', by rw [hrun]; rfl, .discarded hcontrol.1 hcontrol.2 hopens hlength,
        hfollows⟩
    · exact ⟨_, _, _, w', by rw [hrun]; rfl, .failed hopens, hbroke⟩

inductive SynTurn (session : Session) :
    Session ⊕ (Option Header × Session) → List Note → Flow → Prop where
  | headerFailed : SynTurn session (.inr (none, session)) [] (.broke [])
  | frame {head : Bytes} {hdr : Header} {turn : Session ⊕ (Option Header × Session)}
      {notes : List Note} {flow : Flow} (hdecode : Header.decode head = some hdr)
      (hlength : head.length = headerSize) (hframe : SynFrame session hdr turn notes flow) :
      SynTurn session turn (.received .accept session.queued hdr :: notes)
        ((Flow.took head).andThen flow)

theorem run_synTurn (session : Session) (w : Wire) :
    ∃ turn notes flow w', (synTurn session).run w = (turn, w') ∧
      SynTurn session turn notes flow ∧ Follows w notes flow w' ∧
      (w.failed = true → notes = []) := by
  rw [synTurn]
  obtain ⟨w', hrun, hbroke⟩ | ⟨head, hdr, w₁, hrun, hdecode, hlength, hlive, hfollows₁⟩ :=
    run_onHeader (.inr (none, session)) (.received .accept session.queued) (synFrame session) w
  · exact ⟨_, _, _, w', hrun, .headerFailed, hbroke, fun _ => rfl⟩
  · obtain ⟨turn, notes, flow, w₂, hframe, hcase, hfollows₂⟩ := run_synFrame session hdr w₁
    exact ⟨turn, _, _, w₂, hrun.trans hframe, .frame hdecode hlength hcase,
      hfollows₁.trans hfollows₂ (failed_of_run hframe), absurd_of_failed hlive⟩

/-! ### Pinging -/

inductive PingFrame (value : UInt32) (session : Session) (hdr : Header) :
    Session ⊕ (Bool × Session) → List Note → Flow → Prop where
  | pong (htype : hdr.type = typePing) (hack : hdr.has flagAck = true)
      (hvalue : hdr.length = value) : PingFrame value session hdr (.inr (true, session)) [] (.took [])
  | stopped {session' : Session} {notes : List Note}
      (hcontrol : Control session hdr false session' notes) :
      PingFrame value session hdr (.inr (false, session')) notes (.took [])
  | discarded {data : Bytes} {session' : Session} {notes : List Note}
      (hother : ¬(hdr.type = typePing ∧ hdr.has flagAck = true ∧ hdr.length = value))
      (hcontrol : Control session hdr true session' notes)
      (hlength : data.length = hdr.length.toNat) :
      PingFrame value session hdr (.inl session') notes (.took data)
  | failed {session' : Session} {notes : List Note}
      (hcontrol : Control session hdr true session' notes) :
      PingFrame value session hdr (.inr (false, session')) notes (.broke [])

theorem run_pingFrame (value : UInt32) (session : Session) (hdr : Header) (w : Wire) :
    ∃ turn notes flow w', (pingFrame value session hdr).run w = (turn, w') ∧
      PingFrame value session hdr turn notes flow ∧ Follows w notes flow w' := by
  rw [pingFrame]
  split
  · rename_i hpong
    exact ⟨_, _, _, w, rfl, .pong hpong.1 hpong.2.1 hpong.2.2, Follows.refl w⟩
  · rename_i hother
    obtain ⟨ok, session', notes, w₁, hrun, hcontrol, hfollows₁⟩ :=
      run_handleControlFrame session hdr w
    rw [run_bind, hrun]
    cases ok with
    | false => exact ⟨_, _, _, w₁, rfl, .stopped hcontrol, hfollows₁⟩
    | true =>
        obtain ⟨data, w₂, hrun₂, hlength, hfollows₂⟩ | ⟨w₂, hrun₂, hbroke₂⟩ :=
          run_discardPayload hdr.length w₁
        · refine ⟨_, _, _, w₂, ?_, .discarded hother hcontrol hlength, ?_⟩
          · simp [hrun₂]
          · simpa [Flow.andThen] using hfollows₁.trans hfollows₂ (failed_of_run hrun₂)
        · refine ⟨_, _, _, w₂, ?_, .failed hcontrol, ?_⟩
          · simp [hrun₂]
          · simpa [Flow.andThen] using hfollows₁.trans hbroke₂ (failed_of_run hrun₂)

inductive PingTurn (value : UInt32) (session : Session) :
    Session ⊕ (Bool × Session) → List Note → Flow → Prop where
  | headerFailed : PingTurn value session (.inr (false, session)) [] (.broke [])
  | frame {head : Bytes} {hdr : Header} {turn : Session ⊕ (Bool × Session)}
      {notes : List Note} {flow : Flow} (hdecode : Header.decode head = some hdr)
      (hlength : head.length = headerSize)
      (hframe : PingFrame value session hdr turn notes flow) :
      PingTurn value session turn (.received (.ping value) session.queued hdr :: notes)
        ((Flow.took head).andThen flow)

theorem run_pingTurn (value : UInt32) (session : Session) (w : Wire) :
    ∃ turn notes flow w', (pingTurn value session).run w = (turn, w') ∧
      PingTurn value session turn notes flow ∧ Follows w notes flow w' ∧
      (w.failed = true → notes = []) := by
  rw [pingTurn]
  obtain ⟨w', hrun, hbroke⟩ | ⟨head, hdr, w₁, hrun, hdecode, hlength, hlive, hfollows₁⟩ :=
    run_onHeader (.inr (false, session)) (.received (.ping value) session.queued)
      (pingFrame value session) w
  · exact ⟨_, _, _, w', hrun, .headerFailed, hbroke, fun _ => rfl⟩
  · obtain ⟨turn, notes, flow, w₂, hframe, hcase, hfollows₂⟩ := run_pingFrame value session hdr w₁
    exact ⟨turn, _, _, w₂, hrun.trans hframe, .frame hdecode hlength hcase,
      hfollows₁.trans hfollows₂ (failed_of_run hframe), absurd_of_failed hlive⟩

end CLibp2p.Yamux
