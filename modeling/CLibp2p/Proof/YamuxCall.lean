import CLibp2p.Proof.YamuxTurn

/-!
# What one call can do

The passes of a loop are chained by `Runs`, and `Outcome` lists how each call of the session interface
can end: the new session and streams, the reply, the notes left on the way and the bytes taken from the
underlying stream. Nothing below this module unfolds the code of the session again.
-/

namespace CLibp2p.Yamux

open Duplex Duplex.Prog

def Note.isReceived : Note → Bool
  | .received _ _ _ => true
  | _ => false

/-- No header was consumed. -/
def Deaf (notes : List Note) : Prop := ∀ mark ∈ notes, mark.isReceived = false

@[simp] theorem deaf_nil : Deaf [] := by
  intro mark hmem
  cases hmem

@[simp] theorem deaf_cons {mark : Note} {notes : List Note} :
    Deaf (mark :: notes) ↔ mark.isReceived = false ∧ Deaf notes := List.forall_mem_cons

@[simp] theorem deaf_append {notes notes' : List Note} :
    Deaf (notes ++ notes') ↔ Deaf notes ∧ Deaf notes' := List.forall_mem_append

@[simp] theorem isReceived_emitted (hdr : Header) : (Note.emitted hdr).isReceived = false := rfl

@[simp] theorem isReceived_refused (hdr : Header) : (Note.refused hdr).isReceived = false := rfl

@[simp] theorem isReceived_truncated (hdr : Header) : (Note.truncated hdr).isReceived = false := rfl

@[simp] theorem isReceived_announced (handle : Nat) (length : UInt32) :
    (Note.announced handle length).isReceived = false := rfl

@[simp] theorem isReceived_payload (handle : Nat) (length : UInt32) (ret : Int) :
    (Note.payload handle length ret).isReceived = false := rfl

@[simp] theorem isReceived_headerNote (hdr : Header) (ok : Bool) :
    (headerNote hdr ok).isReceived = false := by
  cases ok <;> rfl

/-- Passes of a loop, one after the other, until one leaves it. A stream that failed gives no header
any more. -/
inductive Runs {τ ρ : Type} (Turn : τ → τ ⊕ ρ → List Note → Flow → Prop) :
    τ → ρ → List Note → Flow → Prop where
  | last {state : τ} {result : ρ} {notes : List Note} {flow : Flow}
      (hturn : Turn state (.inr result) notes flow) : Runs Turn state result notes flow
  | next {state state' : τ} {result : ρ} {notes notes' : List Note} {flow flow' : Flow}
      (hturn : Turn state (.inl state') notes flow) (hdeaf : flow.failed = true → Deaf notes')
      (hrest : Runs Turn state' result notes' flow') :
      Runs Turn state result (notes ++ notes') (flow.andThen flow')

theorem run_iterate {τ ρ : Type} {body : τ → Code (τ ⊕ ρ)}
    (Turn : τ → τ ⊕ ρ → List Note → Flow → Prop)
    (hbody : ∀ state w, ∃ turn notes flow w', (body state).run w = (turn, w') ∧
      Turn state turn notes flow ∧ Follows w notes flow w' ∧ (w.failed = true → notes = []))
    (hshrink : ∀ state w state', ((body state).run w).1 = .inl state' →
      ((body state).run w).2.inbound.length < w.inbound.length)
    (fuel : Nat) (state : τ) (w : Wire) (hfuel : w.inbound.length < fuel) :
    ∃ result notes flow w', (iterate body fuel state).run w = (.inr result, w') ∧
      Runs Turn state result notes flow ∧ Follows w notes flow w' ∧
      (w.failed = true → Deaf notes) := by
  induction fuel generalizing state w with
  | zero => omega
  | succ fuel ih =>
      rw [run_iterate_succ]
      obtain ⟨turn, notes, flow, w₁, hrun, hturn, hfollows₁, hsilent⟩ := hbody state w
      have hless := hshrink state w
      have hstuck := inbound_run_of_failed (body state) w
      rw [hrun] at hless hstuck ⊢
      cases turn with
      | inr result =>
          refine ⟨result, notes, flow, w₁, rfl, .last hturn, hfollows₁, fun hfailed => ?_⟩
          rw [hsilent hfailed]
          exact deaf_nil
      | inl state' =>
          have hshorter : w₁.inbound.length < w.inbound.length := hless state' rfl
          obtain ⟨result, notes', flow', w₂, hloop, hruns, hfollows₂, hdeaf⟩ :=
            ih state' w₁ (by omega)
          refine ⟨result, _, _, w₂, hloop, .next hturn ?_ hruns,
            hfollows₁.trans hfollows₂ (failed_of_run hloop), fun hfailed => ?_⟩
          · intro hbroke
            apply hdeaf
            rw [hfollows₁.failed, hbroke, Bool.or_true]
          · have hsame : w₁.inbound = w.inbound := hstuck hfailed
            rw [hsame] at hshorter
            exact absurd hshorter (lt_irrefl _)

theorem onHeader_shrinks {τ ρ : Type} {fallback : ρ} {mark : Header → Note}
    {frame : Header → Code (τ ⊕ ρ)} {w : Wire} {state' : τ}
    (hagain : ((onHeader (.inr fallback) mark frame).run w).1 = .inl state') :
    ((onHeader (.inr fallback) mark frame).run w).2.inbound.length < w.inbound.length := by
  obtain ⟨w', hrun, hbroke⟩ | ⟨head, hdr, w', hrun, hdecode, hlength, -, ⟨tail, htail⟩, hinbound, -⟩ :=
    run_onHeader (.inr fallback) mark frame w
  · rw [hrun] at hagain
    cases hagain
  · rw [hrun]
    have hsuffix := (inbound_isSuffix_run (frame hdr) w').length_le
    rw [hinbound, ← htail, List.drop_left] at hsuffix
    rw [← htail, List.length_append, hlength, headerSize]
    omega

theorem readTurn_shrinks (count : Nat) (state : Session × StreamContext) (w : Wire)
    (state' : Session × StreamContext) (hagain : ((readTurn count state).run w).1 = .inl state') :
    ((readTurn count state).run w).2.inbound.length < w.inbound.length := by
  obtain ⟨session, ctx⟩ := state
  rw [readTurn] at hagain ⊢
  split at hagain
  · cases hagain
  rename_i hopen
  rw [if_neg hopen]
  split at hagain
  · cases hagain
  rename_i hread
  rw [if_neg hread]
  exact onHeader_shrinks hagain

/-! ### Calls without a loop -/

def finHeader (streamId : UInt32) : Header := ⟨version, typeData, flagFin, streamId, 0⟩

inductive Closes (session : Session) (ctx : StreamContext) : List Note → Prop where
  | silent (hclosed : (ctx.closed || session.closed) = true) : Closes session ctx []
  | fin (ok : Bool) : Closes session ctx [headerNote (finHeader ctx.streamId) ok]

theorem run_streamClose (session : Session) (ctx : StreamContext) (w : Wire) :
    ∃ notes w', (streamClose session ctx).run w = ((), w') ∧ Closes session ctx notes ∧
      Follows w notes (.took []) w' := by
  rw [streamClose]
  split
  · obtain ⟨ok, w', hrun, hfollows⟩ := run_sendHeader typeData flagFin ctx.streamId 0 w
    refine ⟨_, w', ?_, .fin ok, hfollows⟩
    rw [run_bind, hrun]
    rfl
  · rename_i hclosed
    refine ⟨[], w, rfl, .silent ?_, Follows.refl w⟩
    cases hctx : ctx.closed <;> cases hsession : session.closed <;> simp_all

theorem Closes.deaf {session : Session} {ctx : StreamContext} {notes : List Note}
    (hcloses : Closes session ctx notes) : Deaf notes := by
  cases hcloses <;> simp

inductive Acknowledges (session : Session) (ctx : StreamContext) :
    Option StreamContext → List Note → Prop where
  | acked : Acknowledges session ctx (some ctx) [.emitted (ackHeader ctx.streamId)]
  | refused {notes : List Note} (hcloses : Closes session ctx notes) :
      Acknowledges session ctx none (.refused (ackHeader ctx.streamId) :: notes)

theorem Acknowledges.deaf {session : Session} {ctx : StreamContext}
    {result : Option StreamContext} {notes : List Note}
    (hack : Acknowledges session ctx result notes) : Deaf notes := by
  cases hack with
  | acked => simp
  | refused hcloses => simp [hcloses.deaf]

theorem run_acknowledge (session : Session) (ctx : StreamContext) (w : Wire) :
    ∃ result notes w', (acknowledge session ctx).run w = ((result, session), w') ∧
      Acknowledges session ctx result notes ∧ Follows w notes (.took []) w' := by
  rw [acknowledge, run_bind]
  obtain ⟨ok, w₁, hrun, hfollows₁⟩ := run_sendHeader typeWindowUpdate flagAck ctx.streamId 0 w
  rw [hrun]
  cases ok with
  | true => exact ⟨_, _, w₁, rfl, .acked, hfollows₁⟩
  | false =>
      obtain ⟨notes, w₂, hclose, hcloses, hfollows₂⟩ := run_streamClose session ctx w₁
      refine ⟨none, _, w₂, ?_, .refused hcloses, ?_⟩
      · simp [hclose]
      · exact hfollows₁.trans hfollows₂ (failed_of_run hclose)

def dataHeader (streamId length : UInt32) : Header := ⟨version, typeData, 0, streamId, length⟩

inductive Writes (ctx : StreamContext) : StreamContext → List Note → Prop where
  | nothing : Writes ctx ctx []
  | refused (length : UInt32) : Writes ctx ctx [.refused (dataHeader ctx.streamId length)]
  | sent {length : UInt32} (hwindow : length ≤ ctx.sendWindow) :
      Writes ctx { ctx with sendWindow := ctx.sendWindow - length }
        [.emitted (dataHeader ctx.streamId length), .announced ctx.handle length,
          .payload ctx.handle length length.toNat]
  | short {length : UInt32} {ret : Int} (hret : ret ≠ length.toNat) :
      Writes ctx ctx
        [.emitted (dataHeader ctx.streamId length), .announced ctx.handle length,
          .payload ctx.handle length ret]

theorem Writes.deaf {ctx ctx' : StreamContext} {notes : List Note}
    (hwrites : Writes ctx ctx' notes) : Deaf notes := by
  cases hwrites <;> simp

theorem run_streamWrite (session : Session) (ctx : StreamContext) (buf : Bytes) (w : Wire) :
    ∃ ret ctx' notes w', (streamWrite session ctx buf).run w = ((ret, ctx'), w') ∧
      Writes ctx ctx' notes ∧ Follows w notes (.took []) w' := by
  rw [streamWrite]
  split
  · exact ⟨-1, ctx, [], w, rfl, .nothing, Follows.refl w⟩
  dsimp only
  split
  · exact ⟨-1, ctx, [], w, rfl, .nothing, Follows.refl w⟩
  set count := min (min buf.length maxPayload) ctx.sendWindow.toNat with hcount
  have hbound : count ≤ ctx.sendWindow.toNat := Nat.min_le_right _ _
  have hsmall : count < 2 ^ 32 := lt_of_le_of_lt hbound ctx.sendWindow.toNat_lt
  have hlength : (UInt32.ofNat count).toNat = count := by
    rw [UInt32.toNat_ofNat', Nat.mod_eq_of_lt hsmall]
  have hwindow : UInt32.ofNat count ≤ ctx.sendWindow := by
    rw [UInt32.le_iff_toNat_le, hlength]
    exact hbound
  rw [run_bind]
  obtain ⟨ok, w₁, hrun, hfollows₁⟩ :=
    run_sendHeader typeData 0 ctx.streamId (UInt32.ofNat count) w
  rw [hrun]
  cases ok with
  | false => exact ⟨-1, ctx, _, w₁, rfl, .refused _, hfollows₁⟩
  | true =>
      simp only [if_true, run_bind, run_note, run_send]
      obtain ⟨ret, w₂, hwrite⟩ :
          ∃ ret w₂, (w₁.ask (.announced ctx.handle (UInt32.ofNat count))).2.write (buf.take count) =
            (ret, w₂) := ⟨_, _, rfl⟩
      have hfollows₂ : Follows w₁ [.announced ctx.handle (UInt32.ofNat count),
          .payload ctx.handle (UInt32.ofNat count) ret] (.took [])
          (w₂.ask (.payload ctx.handle (UInt32.ofNat count) ret)).2 := by
        obtain rfl : _ = w₂ := congrArg Prod.snd hwrite
        exact ⟨List.nil_prefix, rfl, rfl, List.append_assoc _ [_] [_]⟩
      have hfollows := hfollows₁.trans hfollows₂ fun hfailed => by
        rw [hfollows₂.2.2.1, hfailed]
      simp only [hwrite]
      split
      · rename_i hret
        exact ⟨-1, ctx, _, _, rfl, .short (by rwa [hlength]), hfollows⟩
      · rename_i hret
        rw [not_not] at hret
        refine ⟨count, _, _, _, rfl, ?_, hfollows⟩
        have hsent := Writes.sent hwindow
        rwa [hlength, ← hret] at hsent

/-! ### All calls -/

def synHeader (streamId : UInt32) : Header := ⟨version, typeWindowUpdate, flagSyn, streamId, 0⟩

/-- The session once an open has taken its stream id. -/
def Session.afterOpen (session : Session) : Session :=
  { session with nextStreamId := session.nextStreamId + 2 }

def Session.afterPing (session : Session) : Session :=
  { session with pingSeq := session.pingSeq + 1 }

abbrev OpenRuns := Runs fun state : Session × StreamContext => OpenTurn state.1 state.2
abbrev ReadRuns (count : Nat) := Runs fun state : Session × StreamContext =>
  ReadTurn count state.1 state.2
abbrev SynRuns := Runs SynTurn
abbrev PingRuns (value : UInt32) := Runs (PingTurn value)

inductive Outcome (session : Session) (streams : List (Option StreamContext)) :
    Call → Session → List (Option StreamContext) → Reply → List Note → Flow → Prop where
  | openClosed (hclosed : session.closed = true) :
      Outcome session streams .open session (streams ++ [none]) (.opened none) [] (.took [])
  | openRefused : Outcome session streams .open session.afterOpen (streams ++ [none]) (.opened none)
      [.refused (synHeader session.nextStreamId)] (.took [])
  | openRan {ctx : Option StreamContext} {session' : Session} {notes : List Note} {flow : Flow}
      (hruns : OpenRuns
        (session.afterOpen, newContext streams.length session.nextStreamId false [])
        (ctx, session') notes flow) :
      Outcome session streams .open session' (streams ++ [ctx])
        (.opened (ctx.map StreamContext.streamId))
        (.emitted (synHeader session.nextStreamId) :: notes) flow
  | acceptClosed (hclosed : session.closed = true) :
      Outcome session streams .accept session (streams ++ [none]) (.accepted none) [] (.took [])
  | acceptQueued {pending : PendingInbound} {rest : List PendingInbound}
      {ctx : Option StreamContext} {notes : List Note}
      (hpending : session.pendingInbound = pending :: rest)
      (hack : Acknowledges { session with pendingInbound := rest }
        (newContext streams.length pending.streamId true pending.data) ctx notes) :
      Outcome session streams .accept { session with pendingInbound := rest } (streams ++ [ctx])
        (.accepted (ctx.map StreamContext.streamId)) notes (.took [])
  | acceptNone {session' : Session} {notes : List Note} {flow : Flow}
      (hruns : SynRuns session (none, session') notes flow) :
      Outcome session streams .accept session' (streams ++ [none]) (.accepted none) notes flow
  | acceptSyn {session' : Session} {hdr : Header} {data : Bytes} {ctx : Option StreamContext}
      {notes notes' : List Note} {flow : Flow} (hpending : session.pendingInbound = [])
      (hruns : SynRuns session (some hdr, session') notes flow)
      (hlength : data.length = hdr.payloadLength)
      (hack : Acknowledges session' (newContext streams.length hdr.streamId true data) ctx notes') :
      Outcome session streams .accept session' (streams ++ [ctx])
        (.accepted (ctx.map StreamContext.streamId)) (notes ++ notes') (flow.andThen (.took data))
  | acceptLost {session' : Session} {hdr : Header} {notes : List Note} {flow : Flow}
      (hruns : SynRuns session (some hdr, session') notes flow) :
      Outcome session streams .accept session' (streams ++ [none]) (.accepted none)
        (notes ++ [.truncated hdr]) (flow.andThen (.broke []))
  | absent {call : Call} : Outcome session streams call session streams .void [] (.took [])
  | readRan {handle count : Nat} {ctx ctx' : StreamContext} {ret : Option Bytes}
      {session' : Session} {notes : List Note} {flow : Flow}
      (hctx : streams[handle]? = some (some ctx))
      (hruns : ReadRuns count (session, ctx) (ret, session', ctx') notes flow) :
      Outcome session streams (.read handle count) session' (streams.set handle (some ctx'))
        (.bytes ctx.streamId ret) notes flow
  | wrote {handle : Nat} {buf : Bytes} {ctx ctx' : StreamContext} {ret : Int} {notes : List Note}
      (hctx : streams[handle]? = some (some ctx)) (hwrites : Writes ctx ctx' notes) :
      Outcome session streams (.write handle buf) session (streams.set handle (some ctx'))
        (.wrote ctx.streamId ret) notes (.took [])
  | closed {handle : Nat} {ctx : StreamContext} {notes : List Note}
      (hctx : streams[handle]? = some (some ctx)) (hcloses : Closes session ctx notes) :
      Outcome session streams (.close handle) session (streams.set handle none) .void notes (.took [])
  | pingClosed (hclosed : session.closed = true) :
      Outcome session streams .ping session streams (.pinged false) [] (.took [])
  | pingRefused : Outcome session streams .ping session.afterPing streams (.pinged false)
      [.refused ⟨version, typePing, 0, 0, session.pingSeq⟩] (.took [])
  | pingRan {ok : Bool} {session' : Session} {notes : List Note} {flow : Flow}
      (hruns : PingRuns session.pingSeq session.afterPing (ok, session') notes flow) :
      Outcome session streams .ping session' streams (.pinged ok)
        (.emitted ⟨version, typePing, 0, 0, session.pingSeq⟩ :: notes) flow
  | goawayClosed {code : UInt32} (hclosed : session.closed = true) :
      Outcome session streams (.goaway code) session streams .void [] (.took [])
  | goaway {code : UInt32} (ok : Bool) :
      Outcome session streams (.goaway code) { session with closed := true } streams .void
        [headerNote ⟨version, typeGoAway, 0, 0, code⟩ ok] (.took [])

theorem took_nil_andThen (flow : Flow) : (Flow.took []).andThen flow = flow := by
  cases flow <;> rfl

/-- A header that goes out, and what follows it. -/
theorem Follows.cons {w w₁ w₂ : Wire} {note : Note} {notes : List Note} {flow : Flow}
    (hfirst : Follows w [note] (.took []) w₁) (hrest : Follows w₁ notes flow w₂)
    (hfailed : w₁.failed = true → w₂.failed = true) : Follows w (note :: notes) flow w₂ := by
  have hfollows := hfirst.trans hrest hfailed
  rwa [took_nil_andThen] at hfollows

theorem run_streamOpen (session : Session) (streams : List (Option StreamContext)) (w : Wire)
    (fuel : Nat) (hfuel : w.inbound.length < fuel) :
    ∃ ctx session' notes flow w',
      (streamOpen fuel session streams.length).run w = ((ctx, session'), w') ∧
      Outcome session streams .open session' (streams ++ [ctx])
        (.opened (ctx.map StreamContext.streamId)) notes flow ∧ Follows w notes flow w' ∧
      (w.failed = true → Deaf notes) := by
  rw [streamOpen]
  split
  · rename_i hclosed
    exact ⟨none, session, [], _, w, rfl, .openClosed hclosed, Follows.refl w, fun _ => deaf_nil⟩
  rw [run_bind]
  obtain ⟨ok, w₁, hrun, hfollows₁⟩ :=
    run_sendHeader typeWindowUpdate flagSyn session.nextStreamId 0 w
  have hsend : (sendHeader typeWindowUpdate flagSyn
      (newContext streams.length session.nextStreamId false []).streamId 0).run w = (ok, w₁) := hrun
  rw [hsend]
  cases ok with
  | false => exact ⟨none, _, _, _, w₁, rfl, .openRefused, hfollows₁, fun _ => by simp⟩
  | true =>
      have hinbound : w₁.inbound = w.inbound := hfollows₁.2.1
      obtain ⟨⟨ctx, session'⟩, notes, flow, w₂, hloop, hruns, hfollows₂, hdeaf⟩ := run_iterate
        (fun state => OpenTurn state.1 state.2)
        (fun state w => run_openTurn state.1 state.2 w)
        (fun state w state' hagain => onHeader_shrinks hagain) fuel
        (session.afterOpen, newContext streams.length session.nextStreamId false []) w₁
        (by rwa [hinbound])
      refine ⟨ctx, session', _, _, w₂, ?_, .openRan hruns, ?_, fun hfailed => ?_⟩
      · simp only [if_true, run_bind]
        erw [hloop]
        rfl
      · exact hfollows₁.cons hfollows₂ (failed_of_run hloop)
      · exact deaf_cons.mpr ⟨rfl, hdeaf (failed_of_run hsend hfailed)⟩

theorem run_waitForSyn (fuel : Nat) (session : Session) (w : Wire)
    (hfuel : w.inbound.length < fuel) :
    ∃ hdr session' notes flow w', (waitForSyn fuel session).run w = ((hdr, session'), w') ∧
      SynRuns session (hdr, session') notes flow ∧ Follows w notes flow w' ∧
      (w.failed = true → Deaf notes) := by
  obtain ⟨⟨hdr, session'⟩, notes, flow, w', hloop, hruns, hfollows⟩ := run_iterate
    SynTurn run_synTurn (fun state w state' hagain => onHeader_shrinks hagain) fuel session w hfuel
  refine ⟨hdr, session', notes, flow, w', ?_, hruns, hfollows⟩
  rw [waitForSyn, run_bind, hloop]
  rfl

theorem run_readPayload {hdr : Header} (hdata : hdr.type = typeData ∧ 0 < hdr.length) (w : Wire) :
    (∃ data w', (readFull hdr.length.toNat).run w = (some data, w') ∧
        data.length = hdr.payloadLength ∧ Follows w [] (.took data) w') ∨
      ∃ w', (readFull hdr.length.toNat).run w = (none, w') ∧ Follows w [] (.broke []) w' := by
  rw [payloadLength_of_data hdata.1]
  exact run_readFull hdr.length.toNat w

theorem run_streamAccept (session : Session) (streams : List (Option StreamContext)) (w : Wire)
    (fuel : Nat) (hfuel : w.inbound.length < fuel) :
    ∃ ctx session' notes flow w',
      (streamAccept fuel session streams.length).run w = ((ctx, session'), w') ∧
      Outcome session streams .accept session' (streams ++ [ctx])
        (.accepted (ctx.map StreamContext.streamId)) notes flow ∧ Follows w notes flow w' ∧
      (w.failed = true → Deaf notes) := by
  rw [streamAccept]
  split
  · rename_i hclosed
    exact ⟨none, session, [], _, w, rfl, .acceptClosed hclosed, Follows.refl w, fun _ => deaf_nil⟩
  split
  · rename_i pending rest hpending
    obtain ⟨ctx, notes, w', hrun, hack, hfollows⟩ :=
      run_acknowledge { session with pendingInbound := rest }
        (newContext streams.length pending.streamId true pending.data) w
    exact ⟨ctx, _, notes, _, w', hrun, .acceptQueued hpending hack, hfollows, fun _ => hack.deaf⟩
  rename_i hpending
  rw [run_bind]
  obtain ⟨found, session₁, notes₁, flow₁, w₁, hwait, hruns, hfollows₁, hdeaf⟩ :=
    run_waitForSyn fuel session w hfuel
  rw [hwait]
  cases found with
  | none => exact ⟨none, session₁, notes₁, flow₁, w₁, rfl, .acceptNone hruns, hfollows₁, hdeaf⟩
  | some hdr =>
      dsimp only
      split
      · rename_i hdata
        rw [run_bind]
        obtain ⟨data, w₂, hread, hlength, hfollows₂⟩ | ⟨w₂, hread, hbroke₂⟩ :=
          run_readPayload hdata w₁
        · rw [hread]
          obtain ⟨ctx, notes₃, w₃, hrun, hack, hfollows₃⟩ :=
            run_acknowledge session₁ (newContext streams.length hdr.streamId true data) w₂
          refine ⟨ctx, session₁, _, _, w₃, hrun, .acceptSyn hpending hruns hlength hack, ?_,
            fun hfailed => deaf_append.mpr ⟨hdeaf hfailed, hack.deaf⟩⟩
          have hpayload := hfollows₂.trans hfollows₃ (failed_of_run hrun)
          rw [show (Flow.took data).andThen (.took []) = .took data by simp [Flow.andThen]]
            at hpayload
          refine hfollows₁.trans hpayload fun hfailed => ?_
          exact failed_of_run hrun (failed_of_run hread hfailed)
        · rw [hread]
          have hmark := hbroke₂.trans (run_note_follows (.truncated hdr) w₂) id
          exact ⟨none, session₁, _, _, _, rfl, .acceptLost hruns,
            hfollows₁.trans hmark fun _ => hmark.2.1,
            fun hfailed => deaf_append.mpr ⟨hdeaf hfailed, by simp⟩⟩
      · rename_i hempty
        obtain ⟨ctx, notes₂, w₂, hrun, hack, hfollows₂⟩ :=
          run_acknowledge session₁ (newContext streams.length hdr.streamId true []) w₁
        have hlength : ([] : Bytes).length = hdr.payloadLength := (payloadLength_eq_zero hempty).symm
        exact ⟨ctx, session₁, _, _, w₂, hrun, .acceptSyn hpending hruns hlength hack,
          hfollows₁.trans hfollows₂ (failed_of_run hrun),
          fun hfailed => deaf_append.mpr ⟨hdeaf hfailed, hack.deaf⟩⟩

theorem run_sessionPing (session : Session) (streams : List (Option StreamContext)) (w : Wire)
    (fuel : Nat) (hfuel : w.inbound.length < fuel) :
    ∃ ok session' notes flow w', (sessionPing fuel session).run w = ((ok, session'), w') ∧
      Outcome session streams .ping session' streams (.pinged ok) notes flow ∧
      Follows w notes flow w' ∧ (w.failed = true → Deaf notes) := by
  rw [sessionPing]
  split
  · rename_i hclosed
    exact ⟨false, session, [], _, w, rfl, .pingClosed hclosed, Follows.refl w, fun _ => deaf_nil⟩
  rw [run_bind]
  obtain ⟨ok, w₁, hsend, hfollows₁⟩ := run_sendHeader typePing 0 0 session.pingSeq w
  rw [hsend]
  cases ok with
  | false => exact ⟨false, _, _, _, w₁, rfl, .pingRefused, hfollows₁, fun _ => by simp⟩
  | true =>
      have hinbound : w₁.inbound = w.inbound := hfollows₁.2.1
      obtain ⟨⟨ok, session'⟩, notes, flow, w₂, hloop, hruns, hfollows₂, hdeaf⟩ := run_iterate
        (PingTurn session.pingSeq) (run_pingTurn session.pingSeq)
        (fun state w state' hagain => onHeader_shrinks hagain) fuel session.afterPing w₁ (by rwa [hinbound])
      refine ⟨ok, session', _, _, w₂, ?_, .pingRan hruns, ?_, fun hfailed => ?_⟩
      · simp only [if_true, run_bind]
        erw [hloop]
        rfl
      · exact hfollows₁.cons hfollows₂ (failed_of_run hloop)
      · exact deaf_cons.mpr ⟨rfl, hdeaf (failed_of_run hsend hfailed)⟩

theorem run_sessionGoaway (session : Session) (streams : List (Option StreamContext))
    (code : UInt32) (w : Wire) :
    ∃ session' notes w', (sessionGoaway session code).run w = (session', w') ∧
      Outcome session streams (.goaway code) session' streams .void notes (.took []) ∧
      Follows w notes (.took []) w' ∧ Deaf notes := by
  rw [sessionGoaway]
  split
  · rename_i hclosed
    exact ⟨session, [], w, rfl, .goawayClosed hclosed, Follows.refl w, deaf_nil⟩
  · obtain ⟨ok, w', hrun, hfollows⟩ := run_sendHeader typeGoAway 0 0 code w
    refine ⟨_, _, w'.close, ?_, .goaway ok, hfollows, by simp⟩
    rw [run_bind, hrun]
    rfl

theorem run_streamRead (session : Session) {streams : List (Option StreamContext)} {handle : Nat}
    {ctx : StreamContext} (hctx : streams[handle]? = some (some ctx)) (count : Nat) (w : Wire)
    (fuel : Nat) (hfuel : w.inbound.length < fuel) :
    ∃ ret session' ctx' notes flow w',
      (streamRead fuel session ctx count).run w = ((ret, session', ctx'), w') ∧
      Outcome session streams (.read handle count) session' (streams.set handle (some ctx'))
        (.bytes ctx.streamId ret) notes flow ∧ Follows w notes flow w' ∧
      (w.failed = true → Deaf notes) := by
  obtain ⟨⟨ret, session', ctx'⟩, notes, flow, w', hloop, hruns, hfollows⟩ := run_iterate
    (fun state => ReadTurn count state.1 state.2)
    (fun state w => run_readTurn count state.1 state.2 w) (readTurn_shrinks count) fuel
    (session, ctx) w hfuel
  refine ⟨ret, session', ctx', notes, flow, w', ?_, .readRan hctx hruns, hfollows⟩
  rw [streamRead, run_bind, hloop]
  rfl

/-- **One call.** Whatever the node and the underlying stream, a call ends in one of the listed
ways. -/
theorem Node.step_outcome (node : Node) (call : Call) :
    ∃ notes flow, Outcome node.session node.streams call (node.step call).1.session
        (node.step call).1.streams (node.step call).2 notes flow ∧
      Follows node.wire notes flow (node.step call).1.wire ∧
      (node.wire.failed = true → Deaf notes) := by
  have hfuel : node.wire.inbound.length < node.fuel := Nat.lt_succ_self _
  cases call with
  | «open» =>
      obtain ⟨ctx, session', notes, flow, w', hrun, houtcome, hfollows⟩ :=
        run_streamOpen node.session node.streams node.wire node.fuel hfuel
      refine ⟨notes, flow, ?_⟩
      simp only [Node.step, hrun]
      exact ⟨houtcome, hfollows⟩
  | accept =>
      obtain ⟨ctx, session', notes, flow, w', hrun, houtcome, hfollows⟩ :=
        run_streamAccept node.session node.streams node.wire node.fuel hfuel
      refine ⟨notes, flow, ?_⟩
      simp only [Node.step, hrun]
      exact ⟨houtcome, hfollows⟩
  | read handle count =>
      cases hctx : node.context handle with
      | none =>
          refine ⟨[], .took [], ?_⟩
          simp only [Node.step, hctx]
          exact ⟨.absent, Follows.refl _, fun _ => deaf_nil⟩
      | some ctx =>
          have hstreams : node.streams[handle]? = some (some ctx) := Option.join_eq_some_iff.mp hctx
          obtain ⟨ret, session', ctx', notes, flow, w', hrun, houtcome, hfollows⟩ :=
            run_streamRead node.session hstreams count node.wire node.fuel hfuel
          refine ⟨notes, flow, ?_⟩
          simp only [Node.step, hctx, hrun]
          exact ⟨houtcome, hfollows⟩
  | write handle buf =>
      cases hctx : node.context handle with
      | none =>
          refine ⟨[], .took [], ?_⟩
          simp only [Node.step, hctx]
          exact ⟨.absent, Follows.refl _, fun _ => deaf_nil⟩
      | some ctx =>
          have hstreams : node.streams[handle]? = some (some ctx) := Option.join_eq_some_iff.mp hctx
          obtain ⟨ret, ctx', notes, w', hrun, hwrites, hfollows⟩ :=
            run_streamWrite node.session ctx buf node.wire
          refine ⟨notes, .took [], ?_⟩
          simp only [Node.step, hctx, hrun]
          exact ⟨.wrote hstreams hwrites, hfollows, fun _ => hwrites.deaf⟩
  | close handle =>
      cases hctx : node.context handle with
      | none =>
          refine ⟨[], .took [], ?_⟩
          simp only [Node.step, hctx]
          exact ⟨.absent, Follows.refl _, fun _ => deaf_nil⟩
      | some ctx =>
          have hstreams : node.streams[handle]? = some (some ctx) := Option.join_eq_some_iff.mp hctx
          obtain ⟨notes, w', hrun, hcloses, hfollows⟩ := run_streamClose node.session ctx node.wire
          refine ⟨notes, .took [], ?_⟩
          simp only [Node.step, hctx, hrun]
          exact ⟨.closed hstreams hcloses, hfollows, fun _ => hcloses.deaf⟩
  | ping =>
      obtain ⟨ok, session', notes, flow, w', hrun, houtcome, hfollows⟩ :=
        run_sessionPing node.session node.streams node.wire node.fuel hfuel
      refine ⟨notes, flow, ?_⟩
      simp only [Node.step, hrun]
      exact ⟨houtcome, hfollows⟩
  | goaway code =>
      obtain ⟨session', notes, w', hrun, houtcome, hfollows, hdeaf⟩ :=
        run_sessionGoaway node.session node.streams code node.wire
      refine ⟨notes, .took [], ?_⟩
      simp only [Node.step, hrun]
      exact ⟨houtcome, hfollows, fun _ => hdeaf⟩

/-- What every call keeps, with the replies given so far, a run keeps; every state of the run may be
assumed to meet `Ok`. -/
theorem Node.run_invariant_while (Ok : Node → Prop) (Inv : Node → List Reply → Prop)
    (hstep : ∀ node replies call, Ok node → Ok (node.step call).1 → Inv node replies →
      Inv (node.step call).1 (replies ++ [(node.step call).2]))
    (calls : List Call) (node : Node) (replies : List Reply)
    (hok : ∀ part ∈ calls.inits, Ok (node.run part).1) (hinit : Inv node replies) :
    Inv (node.run calls).1 (replies ++ (node.run calls).2) := by
  induction calls generalizing node replies with
  | nil => simpa [Node.run] using hinit
  | cons call calls ih =>
      have hafter : ∀ part ∈ calls.inits, Ok ((node.step call).1.run part).1 := by
        intro part hpart
        apply hok (call :: part)
        rw [List.mem_inits] at hpart ⊢
        exact (List.prefix_cons_inj call).mpr hpart
      have hnode : Ok node := hok [] (by rw [List.mem_inits]; exact List.nil_prefix)
      have hnext : Ok (node.step call).1 :=
        hafter [] (by rw [List.mem_inits]; exact List.nil_prefix)
      have hend := ih _ _ hafter (hstep node replies call hnode hnext hinit)
      rwa [List.append_assoc] at hend

theorem Node.run_invariant (Inv : Node → List Reply → Prop)
    (hstep : ∀ node replies call, Inv node replies →
      Inv (node.step call).1 (replies ++ [(node.step call).2]))
    (calls : List Call) (node : Node) (replies : List Reply) (hinit : Inv node replies) :
    Inv (node.run calls).1 (replies ++ (node.run calls).2) :=
  Node.run_invariant_while (fun _ => True) Inv
    (fun node replies call _ _ => hstep node replies call) calls node replies (fun _ _ => trivial)
    hinit

theorem Flow.andThen_eq_took {flow flow' : Flow} {data : Bytes}
    (htook : flow.andThen flow' = .took data) :
    ∃ first second, flow = .took first ∧ flow' = .took second ∧ data = first ++ second := by
  cases flow with
  | broke first => cases htook
  | took first =>
      cases flow' with
      | broke first => cases htook
      | took second => exact ⟨first, second, rfl, rfl, (Flow.took.inj htook).symm⟩

theorem append_prefix_split {first second inbound : Bytes} (hfront : first ++ second <+: inbound) :
    first <+: inbound ∧ second <+: inbound.drop first.length := by
  obtain ⟨rest, rfl⟩ := hfront
  refine ⟨⟨second ++ rest, by rw [List.append_assoc]⟩, ⟨rest, ?_⟩⟩
  rw [List.append_assoc, List.drop_left]

/-- What each pass keeps of the bytes still to come, and what the last one establishes, under a
condition on the notes of each pass. -/
theorem Runs.inbound {τ ρ : Type} {Turn : τ → τ ⊕ ρ → List Note → Flow → Prop}
    {Ok : Note → Prop} {Inv : Bytes → Prop} (Post : ρ → Bytes → Prop)
    (hnext : ∀ {state state' notes data inbound}, Turn state (.inl state') notes (.took data) →
      (∀ mark ∈ notes, Ok mark) → Inv inbound → data <+: inbound →
      Inv (inbound.drop data.length))
    (hlast : ∀ {state result notes data inbound}, Turn state (.inr result) notes (.took data) →
      (∀ mark ∈ notes, Ok mark) → Inv inbound → data <+: inbound →
      Post result (inbound.drop data.length))
    {state : τ} {result : ρ} {notes : List Note} {flow : Flow}
    (hruns : Runs Turn state result notes flow) :
    ∀ {data inbound : Bytes}, flow = .took data → (∀ mark ∈ notes, Ok mark) → Inv inbound →
      data <+: inbound → Post result (inbound.drop data.length) := by
  induction hruns with
  | last hturn =>
      rintro data inbound rfl hok hinv hfront
      exact hlast hturn hok hinv hfront
  | next hturn hdeaf hrest ih =>
      intro data inbound hflow hok hinv hfront
      obtain ⟨first, second, rfl, rfl, rfl⟩ := Flow.andThen_eq_took hflow
      obtain ⟨hfirst, hsecond⟩ := append_prefix_split hfront
      have hmiddle := hnext hturn (fun mark hmem => hok mark (List.mem_append_left _ hmem)) hinv
        hfirst
      have hend := ih rfl (fun mark hmem => hok mark (List.mem_append_right _ hmem)) hmiddle hsecond
      rwa [List.drop_drop, ← List.length_append] at hend

end CLibp2p.Yamux
