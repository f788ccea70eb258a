import CLibp2p.Stream.Trace
import CLibp2p.Proof.YamuxTurn

/-!
# Pings and the end of a session

A monitor reads what the session does on the underlying stream. After the header of a PING it expects the
answer as the very next action, after a GO_AWAY nothing but the close, and nowhere else a PING with ACK.
Every function of the session passes the monitor, in the mode `ended` if the session is closed.
-/

namespace CLibp2p.Yamux

open Duplex Duplex.Prog

abbrev Event := Duplex.Event UInt8 Note

def pongHeader (value : UInt32) : Header := ⟨version, typePing, flagAck, 0, value⟩

def Header.isPong (hdr : Header) : Bool := hdr.type == typePing && hdr.has flagAck

/-- `yamux_stream_read` looks at the version first, the other loops never do. -/
def Operation.dispatches (op : Operation) (hdr : Header) : Bool :=
  match op with
  | .read _ _ => hdr.version == version
  | _ => true

inductive Watch where
  | clear
  | owing (value : UInt32)
  | answering (value : UInt32) (ret : Int)
  | lost
  | ended
deriving Repr, DecidableEq

def Watch.afterHeader (op : Operation) (hdr : Header) : Watch :=
  if op.dispatches hdr then
    if hdr.type = typeGoAway then .ended
    else if hdr.type = typePing ∧ hdr.has flagAck = false then .owing hdr.length
    else .clear
  else .clear

/-- What a header that is sent does to a session that owes nothing. -/
def Watch.afterSend (hdr : Header) : Option Watch :=
  if hdr.isPong then none else if hdr.type = typeGoAway then some .ended else some .clear

def monitor : Watch → Event → Option Watch
  | .clear, .read _ _ => some .clear
  | .clear, .write _ _ => some .clear
  | .clear, .ask (.received op _ hdr) => some (Watch.afterHeader op hdr)
  | .clear, .ask (.emitted hdr) => Watch.afterSend hdr
  | .clear, .ask (.refused hdr) => Watch.afterSend hdr
  | .clear, .ask _ => some .clear
  | .owing value, .write data ret =>
      if data = (pongHeader value).encode then some (.answering value ret) else none
  | .answering value ret, .ask mark =>
      if mark = headerNote (pongHeader value) (ret = headerSize) then
        some (if ret = headerSize then .clear else .lost)
      else none
  | .ended, .close => some .ended
  | _, _ => none

def Session.watch (session : Session) : Watch := if session.closed then .ended else .clear

/-- How an operation ends: an answer that did not go out fails it. -/
def Settled (session : Session) (failed : Bool) (mode : Watch) : Prop :=
  mode = session.watch ∨ mode = .lost ∧ failed = true ∧ session.closed = false

theorem watch_of_open {session : Session} (hopen : session.closed = false) : session.watch = .clear := by
  rw [Session.watch, hopen]
  rfl

theorem settled_of_open {session : Session} (hopen : session.closed = false) (failed : Bool) :
    Settled session failed .clear :=
  Or.inl (watch_of_open hopen).symm

theorem afterHeader_of_other {op : Operation} {hdr : Header}
    (hother : ¬(hdr.type = typePing ∨ hdr.type = typeGoAway)) : Watch.afterHeader op hdr = .clear := by
  rw [not_or] at hother
  simp [Watch.afterHeader, hother.1, hother.2]

/-! ### The small programs -/

theorem passes_readFull (len : Nat) :
    Passes monitor .clear (readFull len) fun _ mode => mode = .clear :=
  Passes.readExactly (fun _ _ => rfl) len

theorem passes_readHeader : Passes monitor .clear readHeader fun _ mode => mode = .clear := by
  refine (passes_readFull headerSize).bind fun bytes mode hmode => ?_
  cases bytes <;> exact .done hmode

theorem passes_discardPayload (length : UInt32) :
    Passes monitor .clear (discardPayload length) fun _ mode => mode = .clear := by
  have hloop : ∀ fuel remaining,
      Passes monitor .clear (discardLoop fuel remaining) fun _ mode => mode = .clear := by
    intro fuel
    induction fuel with
    | zero => intro remaining; cases remaining <;> exact .done rfl
    | succ fuel ih =>
        intro remaining
        cases remaining with
        | zero => exact .done rfl
        | succ remaining =>
            rw [discardLoop]
            refine (passes_readFull _).bind ?_
            rintro bytes mode rfl
            cases bytes with
            | none => exact .done rfl
            | some bytes => exact ih _
  exact hloop _ _

theorem passes_sendHeader {type : UInt8} {flags : UInt16} {streamId length : UInt32} {mode : Watch}
    (hsend : Watch.afterSend ⟨version, type, flags, streamId, length⟩ = some mode) :
    Passes monitor .clear (sendHeader type flags streamId length) fun _ final => final = mode := by
  rw [sendHeader]
  refine (Passes.send (fun _ => .clear) fun _ => rfl).bind ?_
  rintro ret _ rfl
  split
  · refine Passes.bind (.note hsend) ?_
    rintro _ final rfl
    exact .done rfl
  · refine Passes.bind (.note hsend) ?_
    rintro _ final rfl
    exact .done rfl

/-- A header that is neither a PING nor a GO_AWAY. -/
theorem passes_sendOther (type : UInt8) (hping : type ≠ typePing) (hgoAway : type ≠ typeGoAway)
    {flags : UInt16} {streamId length : UInt32} :
    Passes monitor .clear (sendHeader type flags streamId length) fun _ mode => mode = .clear := by
  apply passes_sendHeader
  simp [Watch.afterSend, Header.isPong, hping, hgoAway]

theorem passes_sendPingResponse (value : UInt32) :
    Passes monitor (.owing value) (sendPingResponse value) fun ok mode =>
      mode = if ok then .clear else .lost := by
  rw [sendPingResponse, sendHeader]
  refine (Passes.send (fun ret => .answering value ret) fun ret => if_pos rfl).bind ?_
  rintro ret _ rfl
  split
  · rename_i hret
    have hmark : monitor (.answering value ret) (.ask (.emitted (pongHeader value))) = some .clear := by
      simp [monitor, headerNote, hret]
    refine Passes.bind (.note hmark) ?_
    rintro _ final rfl
    exact .done rfl
  · rename_i hret
    have hmark : monitor (.answering value ret) (.ask (.refused (pongHeader value))) = some .lost := by
      simp [monitor, headerNote, hret]
    refine Passes.bind (.note hmark) ?_
    rintro _ final rfl
    exact .done rfl

/-- What the dispatch of a control frame leaves, from what its header asks for. -/
theorem passes_handleControlFrame {op : Operation} {session : Session} {hdr : Header}
    (hopen : session.closed = false) (hdispatches : op.dispatches hdr = true) :
    Passes monitor (Watch.afterHeader op hdr) (handleControlFrame session hdr) fun result mode =>
      if result.1 then result.2.closed = false ∧ mode = .clear else Settled result.2 true mode := by
  rw [Watch.afterHeader, if_pos hdispatches, handleControlFrame]
  by_cases hping : hdr.type = typePing
  · have hgoAway : hdr.type ≠ typeGoAway := by
      rw [hping]
      decide
    rw [if_neg hgoAway, if_pos hping]
    cases hack : hdr.has flagAck with
    | true =>
        rw [if_neg fun hasks => Bool.noConfusion hasks.2]
        exact .done ⟨hopen, rfl⟩
    | false =>
        rw [if_pos ⟨hping, rfl⟩]
        refine (passes_sendPingResponse hdr.length).bind ?_
        rintro ok _ rfl
        cases ok with
        | true => exact .done ⟨hopen, rfl⟩
        | false => exact .done (Or.inr ⟨rfl, rfl, hopen⟩)
  · rw [if_neg hping]
    by_cases hgoAway : hdr.type = typeGoAway
    · rw [if_pos hgoAway, if_pos hgoAway]
      refine (Passes.shut rfl).bind ?_
      rintro _ mode rfl
      exact .done (Or.inl rfl)
    · rw [if_neg hgoAway, if_neg hgoAway, if_neg fun hasks => hping hasks.1]
      exact .done ⟨hopen, rfl⟩

/-- The start of every pass of a frame loop. -/
theorem passes_onHeader {α : Type} {fallback : α} {op : Operation} {queued : List UInt32}
    {frame : Header → Code α} {Post : α → Watch → Prop} (hfallback : Post fallback .clear)
    (hframe : ∀ hdr, Passes monitor (Watch.afterHeader op hdr) (frame hdr) Post) :
    Passes monitor .clear (onHeader fallback (.received op queued) frame) Post := by
  rw [onHeader]
  refine passes_readHeader.bind ?_
  rintro found _ rfl
  cases found with
  | none => exact .done hfallback
  | some hdr =>
      refine Passes.bind (.note rfl) ?_
      rintro _ _ rfl
      exact hframe hdr

/-! ### Reading -/

/-- After one pass of a read the stream reads on in an open session, or has settled. -/
def ReadSettled (turn : (Session × StreamContext) ⊕ ReadResult) (mode : Watch) : Prop :=
  Sum.elim (fun state => mode = state.1.watch)
    (fun result => Settled result.2.1 result.1.isNone mode) turn

theorem passes_takePayload {session : Session} (hopen : session.closed = false) (count : Nat)
    (ctx : StreamContext) (fin : Bool) (payload : Bytes) (length : UInt32) :
    Passes monitor .clear (takePayload count session ctx fin payload length)
      fun result mode => Settled result.2.1 result.1.isNone mode := by
  unfold takePayload
  extract_lets recvWindow increment
  split
  · refine (passes_sendOther typeWindowUpdate (by decide) (by decide)).bind ?_
    rintro sent _ rfl
    exact .done (settled_of_open hopen _)
  · exact .done (settled_of_open hopen _)

theorem passes_readFrame {session : Session} (hopen : session.closed = false) (count : Nat)
    (ctx : StreamContext) (hdr : Header) :
    Passes monitor (Watch.afterHeader (.read ctx.handle ctx.streamId) hdr)
      (readFrame count session ctx hdr) ReadSettled := by
  have hclear := watch_of_open hopen
  have hlost : ReadSettled (.inr (none, session, ctx)) .clear := settled_of_open hopen true
  have hagain : ReadSettled (.inl (session, ctx)) .clear := hclear.symm
  have hdiscard : Passes monitor .clear (do
      if ← discardPayload hdr.length then pure (.inl (session, ctx))
      else pure (.inr (none, session, ctx)) : Code _) ReadSettled := by
    refine (passes_discardPayload hdr.length).bind ?_
    rintro ok _ rfl
    cases ok with
    | true => exact .done hagain
    | false => exact .done hlost
  rw [readFrame]
  split
  · rename_i hversion
    have hignored : Watch.afterHeader (.read ctx.handle ctx.streamId) hdr = .clear := by
      rw [Watch.afterHeader, if_neg]
      simpa [Operation.dispatches] using hversion
    rw [hignored]
    exact .done hlost
  rename_i hversion
  rw [not_not] at hversion
  split
  · have hdispatches : (Operation.read ctx.handle ctx.streamId).dispatches hdr = true := by
      simp [Operation.dispatches, hversion]
    refine (passes_handleControlFrame hopen hdispatches).bind ?_
    rintro ⟨ok, session'⟩ mode hresult
    cases ok with
    | true =>
        obtain ⟨hopen', rfl⟩ := hresult
        exact .done (watch_of_open hopen').symm
    | false => exact .done hresult
  rename_i hcontrol
  rw [afterHeader_of_other hcontrol]
  split
  · split <;> exact .done hclear.symm
  split
  · exact hdiscard
  split
  · split
    · refine (passes_sendOther typeWindowUpdate (by decide) (by decide)).bind ?_
      rintro _ _ rfl
      refine (passes_readFull _).bind ?_
      rintro data _ rfl
      cases data with
      | some data => exact .done hclear.symm
      | none =>
          refine Passes.bind (.note rfl) ?_
          rintro _ _ rfl
          exact hdiscard
    · exact hdiscard
  split
  · split
    · exact .done (settled_of_open hopen _)
    · exact .done hagain
  · refine (passes_readFull _).bind ?_
    rintro payload _ rfl
    cases payload with
    | none =>
        refine Passes.bind (.note rfl) ?_
        rintro _ _ rfl
        exact .done hlost
    | some payload =>
        refine (passes_takePayload hopen count ctx _ payload hdr.length).bind ?_
        rintro result mode hresult
        exact .done hresult

theorem passes_readTurn (count : Nat) (session : Session) (ctx : StreamContext) :
    Passes monitor session.watch (readTurn count (session, ctx)) ReadSettled := by
  rw [readTurn]
  split
  · exact .done (Or.inl rfl)
  rename_i hopen
  have hopen : session.closed = false := by
    rw [Bool.or_eq_true, not_or] at hopen
    simpa using hopen.1
  split
  · exact .done (Or.inl rfl)
  rw [watch_of_open hopen]
  exact passes_onHeader (settled_of_open hopen true) (passes_readFrame hopen count ctx)

theorem passes_streamRead (fuel : Nat) (session : Session) (ctx : StreamContext) (count : Nat) :
    Passes monitor session.watch (streamRead fuel session ctx count)
      fun result mode => Settled result.2.1 result.1.isNone mode := by
  rw [streamRead]
  have hbody : ∀ (state : Session × StreamContext) (mode : Watch), mode = state.1.watch →
      Passes monitor mode (readTurn count state) ReadSettled := by
    rintro ⟨session, ctx⟩ _ rfl
    exact passes_readTurn count session ctx
  refine (Passes.iterate hbody fuel (session, ctx) rfl).bind ?_
  rintro turn mode hturn
  cases turn with
  | inl state => exact .done (Or.inl hturn)
  | inr result => exact .done hturn

/-! ### Opening, accepting, pinging -/

/-- After one pass of the other loops the session is open, or the operation has settled. -/
def OpenSettled (turn : (Session × StreamContext) ⊕ OpenResult) (mode : Watch) : Prop :=
  Sum.elim (fun state => state.1.closed = false ∧ mode = .clear)
    (fun result => Settled result.2 result.1.isNone mode) turn

theorem passes_openFrame {session : Session} (hopen : session.closed = false) (ctx : StreamContext)
    (hdr : Header) :
    Passes monitor (Watch.afterHeader (.open ctx.handle ctx.streamId) hdr) (openFrame session ctx hdr)
      OpenSettled := by
  rw [openFrame]
  split
  · refine (passes_handleControlFrame hopen rfl).bind ?_
    rintro ⟨ok, session'⟩ mode hresult
    cases ok with
    | true => exact .done hresult
    | false => exact .done hresult
  rename_i hcontrol
  rw [afterHeader_of_other hcontrol]
  split
  · dsimp only
    split
    · exact .done (settled_of_open hopen _)
    · exact .done ⟨hopen, rfl⟩
  split
  · split
    · exact .done ⟨hopen, rfl⟩
    refine (passes_sendOther typeWindowUpdate (by decide) (by decide)).bind ?_
    rintro _ _ rfl
    dsimp only
    split
    · refine (passes_readFull _).bind ?_
      rintro data _ rfl
      cases data with
      | some data => exact .done ⟨hopen, rfl⟩
      | none =>
          refine Passes.bind (.note rfl) ?_
          rintro _ _ rfl
          exact .done ⟨hopen, rfl⟩
    · exact .done ⟨hopen, rfl⟩
  split
  · split
    · refine (passes_readFull _).bind ?_
      rintro data _ rfl
      cases data with
      | some data => exact .done ⟨hopen, rfl⟩
      | none =>
          refine Passes.bind (.note rfl) ?_
          rintro _ _ rfl
          exact .done ⟨hopen, rfl⟩
    · exact .done ⟨hopen, rfl⟩
  · refine (passes_discardPayload hdr.length).bind ?_
    rintro ok _ rfl
    cases ok with
    | true => exact .done ⟨hopen, rfl⟩
    | false => exact .done (settled_of_open hopen _)

theorem passes_streamOpen (fuel : Nat) (session : Session) (handle : Nat) :
    Passes monitor session.watch (streamOpen fuel session handle)
      fun result mode => Settled result.2 result.1.isNone mode := by
  rw [streamOpen]
  split
  · exact .done (Or.inl rfl)
  rename_i hopen
  rw [Bool.not_eq_true] at hopen
  rw [watch_of_open hopen]
  dsimp only
  refine (passes_sendOther typeWindowUpdate (by decide) (by decide)).bind ?_
  rintro sent _ rfl
  cases sent with
  | false => exact .done (settled_of_open hopen _)
  | true =>
      have hbody : ∀ (state : Session × StreamContext) (mode : Watch),
          state.1.closed = false ∧ mode = .clear → Passes monitor mode (openTurn state) OpenSettled := by
        rintro ⟨session, ctx⟩ _ ⟨hopen, rfl⟩
        exact passes_onHeader (settled_of_open hopen true) (passes_openFrame hopen ctx)
      refine (Passes.iterate hbody fuel _ ⟨hopen, rfl⟩).bind ?_
      rintro turn mode hturn
      cases turn with
      | inl state =>
          obtain ⟨hopen', rfl⟩ := hturn
          exact .done (settled_of_open hopen' _)
      | inr result => exact .done hturn

/-- A wait for a SYN has found one in an open session, or the accept has settled. -/
def SynSettled (result : Option Header × Session) (mode : Watch) : Prop :=
  match result.1 with
  | some _ => result.2.closed = false ∧ mode = .clear
  | none => Settled result.2 true mode

theorem passes_synFrame {session : Session} (hopen : session.closed = false) (hdr : Header) :
    Passes monitor (Watch.afterHeader .accept hdr) (synFrame session hdr) fun turn mode =>
      Sum.elim (fun session' => session'.closed = false ∧ mode = .clear)
        (fun result => SynSettled result mode) turn := by
  rw [synFrame]
  split
  · refine (passes_handleControlFrame hopen rfl).bind ?_
    rintro ⟨ok, session'⟩ mode hresult
    cases ok with
    | true => exact .done hresult
    | false => exact .done hresult
  rename_i hcontrol
  rw [afterHeader_of_other hcontrol]
  split
  · exact .done ⟨hopen, rfl⟩
  · refine (passes_discardPayload hdr.length).bind ?_
    rintro ok _ rfl
    cases ok with
    | true => exact .done ⟨hopen, rfl⟩
    | false => exact .done (settled_of_open hopen true)

theorem passes_waitForSyn (fuel : Nat) {session : Session} (hopen : session.closed = false) :
    Passes monitor .clear (waitForSyn fuel session) SynSettled := by
  have hbody : ∀ (session : Session) (mode : Watch), session.closed = false ∧ mode = .clear →
      Passes monitor mode (synTurn session) fun turn final =>
        Sum.elim (fun session' => session'.closed = false ∧ final = .clear)
          (fun result => SynSettled result final) turn := by
    rintro session _ ⟨hopen, rfl⟩
    exact passes_onHeader (settled_of_open hopen true) (passes_synFrame hopen)
  rw [waitForSyn]
  refine (Passes.iterate hbody fuel session ⟨hopen, rfl⟩).bind ?_
  rintro turn mode hturn
  cases turn with
  | inl state =>
      obtain ⟨hopen', rfl⟩ := hturn
      exact .done (settled_of_open hopen' true)
  | inr result => exact .done hturn

theorem passes_streamClose (session : Session) (ctx : StreamContext) :
    Passes monitor session.watch (streamClose session ctx) fun _ mode => mode = session.watch := by
  rw [streamClose]
  split
  · rename_i hopen
    rw [Bool.and_eq_true] at hopen
    have hopen : session.closed = false := by simpa using hopen.2
    rw [watch_of_open hopen]
    refine (passes_sendOther typeData (by decide) (by decide)).bind ?_
    rintro sent _ rfl
    exact .done rfl
  · exact .done rfl

theorem passes_acknowledge {session : Session} (hopen : session.closed = false) (ctx : StreamContext) :
    Passes monitor .clear (acknowledge session ctx)
      fun result mode => Settled result.2 result.1.isNone mode := by
  rw [acknowledge]
  refine (passes_sendOther typeWindowUpdate (by decide) (by decide)).bind ?_
  rintro sent _ rfl
  cases sent with
  | true => exact .done (settled_of_open hopen _)
  | false =>
      have hclose := passes_streamClose session ctx
      rw [watch_of_open hopen] at hclose
      refine hclose.bind ?_
      rintro _ _ rfl
      exact .done (settled_of_open hopen _)

theorem passes_streamAccept (fuel : Nat) (session : Session) (handle : Nat) :
    Passes monitor session.watch (streamAccept fuel session handle)
      fun result mode => Settled result.2 result.1.isNone mode := by
  rw [streamAccept]
  split
  · exact .done (Or.inl rfl)
  rename_i hopen
  rw [Bool.not_eq_true] at hopen
  rw [watch_of_open hopen]
  split
  · rename_i pending rest hpending
    have hopen' : { session with pendingInbound := rest }.closed = false := hopen
    exact passes_acknowledge hopen' _
  · refine (passes_waitForSyn fuel hopen).bind ?_
    rintro ⟨found, session'⟩ mode hfound
    cases found with
    | none => exact .done hfound
    | some hdr =>
        obtain ⟨hopen', rfl⟩ := hfound
        dsimp only
        split
        · refine (passes_readFull _).bind ?_
          rintro data _ rfl
          cases data with
          | none =>
              refine Passes.bind (.note rfl) ?_
              rintro _ _ rfl
              exact .done (settled_of_open hopen' _)
          | some data => exact passes_acknowledge hopen' _
        · exact passes_acknowledge hopen' _

theorem passes_pingFrame {session : Session} (hopen : session.closed = false) (value : UInt32)
    (hdr : Header) :
    Passes monitor (Watch.afterHeader (.ping value) hdr) (pingFrame value session hdr) fun turn mode =>
      Sum.elim (fun session' => session'.closed = false ∧ mode = .clear)
        (fun result => Settled result.2 (!result.1) mode) turn := by
  rw [pingFrame]
  split
  · rename_i hpong
    have hclear : Watch.afterHeader (.ping value) hdr = .clear := by
      have hgoAway : hdr.type ≠ typeGoAway := by
        rw [hpong.1]
        decide
      simp [Watch.afterHeader, hgoAway, hpong.2.1]
    rw [hclear]
    exact .done (settled_of_open hopen _)
  · refine (passes_handleControlFrame hopen rfl).bind ?_
    rintro ⟨ok, session'⟩ mode hresult
    cases ok with
    | false => exact .done hresult
    | true =>
        obtain ⟨hopen', rfl⟩ := hresult
        refine (passes_discardPayload hdr.length).bind ?_
        rintro found _ rfl
        cases found with
        | true => exact .done ⟨hopen', rfl⟩
        | false => exact .done (settled_of_open hopen' _)

theorem passes_sessionPing (fuel : Nat) (session : Session) :
    Passes monitor session.watch (sessionPing fuel session)
      fun result mode => Settled result.2 (!result.1) mode := by
  rw [sessionPing]
  split
  · exact .done (Or.inl rfl)
  rename_i hopen
  rw [Bool.not_eq_true] at hopen
  rw [watch_of_open hopen]
  dsimp only
  have hping : Watch.afterSend ⟨version, typePing, 0, 0, session.pingSeq⟩ = some .clear := by
    simp [Watch.afterSend, Header.isPong, Header.has, typePing, typeGoAway]
  refine (passes_sendHeader hping).bind ?_
  rintro sent _ rfl
  cases sent with
  | false => exact .done (settled_of_open hopen _)
  | true =>
      have hbody : ∀ (state : Session) (mode : Watch), state.closed = false ∧ mode = .clear →
          Passes monitor mode (pingTurn session.pingSeq state) fun turn final =>
            Sum.elim (fun session' => session'.closed = false ∧ final = .clear)
              (fun result => Settled result.2 (!result.1) final) turn := by
        rintro state _ ⟨hopen, rfl⟩
        exact passes_onHeader (settled_of_open hopen _) (passes_pingFrame hopen _)
      have hopen' : { session with pingSeq := session.pingSeq + 1 }.closed = false := hopen
      refine (Passes.iterate hbody fuel _ ⟨hopen', rfl⟩).bind ?_
      rintro turn mode hturn
      cases turn with
      | inl state =>
          obtain ⟨hopen', rfl⟩ := hturn
          exact .done (settled_of_open hopen' _)
      | inr result => exact .done hturn

theorem passes_sessionGoaway (session : Session) (code : UInt32) :
    Passes monitor session.watch (sessionGoaway session code)
      fun session' mode => mode = session'.watch := by
  rw [sessionGoaway]
  split
  · exact .done rfl
  rename_i hopen
  rw [Bool.not_eq_true] at hopen
  rw [watch_of_open hopen]
  have hgoAway : Watch.afterSend ⟨version, typeGoAway, 0, 0, code⟩ = some .ended := rfl
  refine (passes_sendHeader hgoAway).bind ?_
  rintro sent _ rfl
  refine (Passes.shut rfl).bind ?_
  rintro _ _ rfl
  exact .done rfl

theorem passes_streamWrite (session : Session) (ctx : StreamContext) (buf : Bytes) :
    Passes monitor session.watch (streamWrite session ctx buf) fun _ mode => mode = session.watch := by
  rw [streamWrite]
  split
  · exact .done rfl
  rename_i hopen
  have hopen : session.closed = false := by
    rw [Bool.or_eq_true, not_or] at hopen
    simpa using hopen.1
  rw [watch_of_open hopen]
  dsimp only
  split
  · exact .done rfl
  refine (passes_sendOther typeData (by decide) (by decide)).bind ?_
  rintro sent _ rfl
  cases sent with
  | false => exact .done rfl
  | true =>
      refine Passes.bind (.note rfl) ?_
      rintro _ _ rfl
      refine (Passes.send (fun _ => .clear) fun _ => rfl).bind ?_
      rintro ret _ rfl
      refine Passes.bind (.note rfl) ?_
      rintro _ _ rfl
      split <;> exact .done rfl

/-! ### Calls and runs -/

/-- What a call does on the underlying stream. -/
def Node.trace (node : Node) : Call → List Event
  | .open => (streamOpen node.fuel node.session node.streams.length).trace node.wire
  | .accept => (streamAccept node.fuel node.session node.streams.length).trace node.wire
  | .read handle count =>
      match node.context handle with
      | none => []
      | some ctx => (streamRead node.fuel node.session ctx count).trace node.wire
  | .write handle buf =>
      match node.context handle with
      | none => []
      | some ctx => (streamWrite node.session ctx buf).trace node.wire
  | .close handle =>
      match node.context handle with
      | none => []
      | some ctx => (streamClose node.session ctx).trace node.wire
  | .ping => (sessionPing node.fuel node.session).trace node.wire
  | .goaway code => (sessionGoaway node.session code).trace node.wire

def Reply.failed : Reply → Bool
  | .opened streamId => streamId.isNone
  | .accepted streamId => streamId.isNone
  | .bytes _ ret => ret.isNone
  | .wrote _ ret => ret == -1
  | .pinged ok => !ok
  | .void => false

theorem Node.trace_passes (node : Node) (call : Call) :
    ∃ mode, (node.trace call).foldlM monitor node.session.watch = some mode ∧
      Settled (node.step call).1.session (node.step call).2.failed mode := by
  cases call with
  | «open» =>
      obtain ⟨mode, htrace, hsettled⟩ :=
        passes_streamOpen node.fuel node.session node.streams.length node.wire
      refine ⟨mode, htrace, ?_⟩
      simpa [Node.step, Reply.failed] using hsettled
  | accept =>
      obtain ⟨mode, htrace, hsettled⟩ :=
        passes_streamAccept node.fuel node.session node.streams.length node.wire
      refine ⟨mode, htrace, ?_⟩
      simpa [Node.step, Reply.failed] using hsettled
  | read handle count =>
      cases hctx : node.context handle with
      | none =>
          simp only [Node.trace, Node.step, hctx]
          exact ⟨_, rfl, Or.inl rfl⟩
      | some ctx =>
          simp only [Node.trace, Node.step, hctx]
          exact passes_streamRead node.fuel node.session ctx count node.wire
  | write handle buf =>
      cases hctx : node.context handle with
      | none =>
          simp only [Node.trace, Node.step, hctx]
          exact ⟨_, rfl, Or.inl rfl⟩
      | some ctx =>
          simp only [Node.trace, Node.step, hctx]
          obtain ⟨mode, htrace, hmode⟩ := passes_streamWrite node.session ctx buf node.wire
          exact ⟨mode, htrace, Or.inl hmode⟩
  | close handle =>
      cases hctx : node.context handle with
      | none =>
          simp only [Node.trace, Node.step, hctx]
          exact ⟨_, rfl, Or.inl rfl⟩
      | some ctx =>
          simp only [Node.trace, Node.step, hctx]
          obtain ⟨mode, htrace, hmode⟩ := passes_streamClose node.session ctx node.wire
          exact ⟨mode, htrace, Or.inl hmode⟩
  | ping => exact passes_sessionPing node.fuel node.session node.wire
  | goaway code =>
      obtain ⟨mode, htrace, hmode⟩ := passes_sessionGoaway node.session code node.wire
      exact ⟨mode, htrace, Or.inl hmode⟩

/-- An action of a run: something done on the underlying stream, or the reply of a call. -/
inductive Act where
  | did (event : Event)
  | replied (reply : Reply)
deriving Repr, DecidableEq

def Node.history (node : Node) : List Call → List Act
  | [] => []
  | call :: calls =>
      (node.trace call).map .did ++ .replied (node.step call).2 :: (node.step call).1.history calls

/-- The monitor of a history: only a call that failed may leave an answer unsent. -/
def overseer : Watch → Act → Option Watch
  | mode, .did event => monitor mode event
  | .clear, .replied _ => some .clear
  | .ended, .replied _ => some .ended
  | .lost, .replied reply => if reply.failed then some .clear else none
  | _, .replied _ => none

theorem foldlM_did (events : List Event) (mode : Watch) :
    (events.map Act.did).foldlM overseer mode = events.foldlM monitor mode := by
  rw [List.foldlM_map]
  rfl

theorem overseer_replied {session : Session} {reply : Reply} {mode : Watch}
    (hsettled : Settled session reply.failed mode) :
    overseer mode (.replied reply) = some session.watch := by
  rcases hsettled with rfl | ⟨rfl, hfailed, hopen⟩
  · rw [Session.watch]
    split <;> rfl
  · rw [overseer, if_pos hfailed, watch_of_open hopen]

theorem Node.history_passes (node : Node) (calls : List Call) :
    ∃ session : Session, (node.history calls).foldlM overseer node.session.watch = some session.watch := by
  induction calls generalizing node with
  | nil => exact ⟨node.session, rfl⟩
  | cons call calls ih =>
      obtain ⟨mode, htrace, hsettled⟩ := node.trace_passes call
      obtain ⟨session, hrest⟩ := ih (node.step call).1
      refine ⟨session, ?_⟩
      rw [Node.history, List.foldlM_append, foldlM_did, htrace]
      change List.foldlM overseer mode (_ :: _) = _
      rw [List.foldlM_cons, overseer_replied hsettled]
      exact hrest

/-! ### What the monitor says about a history -/

/-- A header was consumed. -/
def Act.isHeader : Act → Bool
  | .did (.ask (.received _ _ _)) => true
  | _ => false

/-- A PING with ACK was sent, in full or not. -/
def Act.isPong : Act → Bool
  | .did (.ask (.emitted hdr)) => hdr.isPong
  | .did (.ask (.refused hdr)) => hdr.isPong
  | _ => false

def Act.transfers : Act → Bool
  | .did (.read _ _) => true
  | .did (.write _ _) => true
  | _ => false

/-- A GO_AWAY was sent, or one of a version that its reader looks at was consumed. -/
def Act.goesAway : Act → Bool
  | .did (.ask (.received op _ hdr)) => hdr.type == typeGoAway && op.dispatches hdr
  | .did (.ask (.emitted hdr)) => hdr.type == typeGoAway
  | _ => false

/-- No PING with ACK is sent before the next header is consumed. -/
def NoPong (acts : List Act) : Prop :=
  ∀ act ∈ acts.takeWhile fun act => !act.isHeader, act.isPong = false

/-- The answer to a PING is the next thing that is done and the only one. If it does not go out in full,
the call returns a failure without doing anything else. -/
def Answers (value : UInt32) (acts : List Act) : Prop :=
  ∃ ret rest, acts = .did (.write (pongHeader value).encode ret) ::
      .did (.ask (headerNote (pongHeader value) (ret = headerSize))) :: rest ∧ NoPong rest ∧
    (ret ≠ headerSize → ∃ reply rest', rest = .replied reply :: rest' ∧ reply.failed = true)

def PingsAnswered (acts : List Act) : Prop :=
  ∀ before op queued hdr after, acts = before ++ .did (.ask (.received op queued hdr)) :: after →
    hdr.type = typePing →
      (hdr.version = version → hdr.has flagAck = false → Answers hdr.length after) ∧
        (hdr.has flagAck = true → NoPong after)

/-- After an action of the kind nothing is read from the underlying stream or written to it. -/
def SilentAfter (kind : Act → Bool) (acts : List Act) : Prop :=
  ∀ before act after, acts = before ++ act :: after → kind act = true →
    ∀ later ∈ after, later.transfers = false

theorem foldlM_split {before after : List Act} {act : Act} {mode final : Watch}
    (hfold : (before ++ act :: after).foldlM overseer mode = some final) :
    ∃ mode₁ mode₂, overseer mode₁ act = some mode₂ ∧ after.foldlM overseer mode₂ = some final := by
  rw [List.foldlM_append, Option.bind_eq_bind, Option.bind_eq_some_iff] at hfold
  obtain ⟨mode₁, -, hrest⟩ := hfold
  rw [List.foldlM_cons, Option.bind_eq_bind, Option.bind_eq_some_iff] at hrest
  obtain ⟨mode₂, hact, hafter⟩ := hrest
  exact ⟨mode₁, mode₂, hact, hafter⟩

theorem foldlM_cons_some {act : Act} {acts : List Act} {mode final : Watch}
    (hfold : (act :: acts).foldlM overseer mode = some final) :
    ∃ mode', overseer mode act = some mode' ∧ acts.foldlM overseer mode' = some final := by
  rwa [List.foldlM_cons, Option.bind_eq_bind, Option.bind_eq_some_iff] at hfold

theorem noPong_cons {act : Act} {acts : List Act} (hpong : act.isPong = false) (hacts : NoPong acts) :
    NoPong (act :: acts) := by
  intro other hother
  rw [List.takeWhile_cons] at hother
  split at hother
  · rcases List.mem_cons.mp hother with rfl | hother
    · exact hpong
    · exact hacts other hother
  · cases hother

theorem afterSend_of_some {hdr : Header} {mode : Watch} (hsend : Watch.afterSend hdr = some mode) :
    hdr.isPong = false ∧ (mode = .clear ∨ mode = .ended) := by
  rw [Watch.afterSend] at hsend
  split at hsend
  · cases hsend
  · rename_i hpong
    refine ⟨by simpa using hpong, ?_⟩
    split at hsend <;> cases hsend
    · exact Or.inr rfl
    · exact Or.inl rfl

theorem overseer_ended {act : Act} {mode : Watch} (hact : overseer .ended act = some mode) :
    mode = .ended ∧ act.transfers = false ∧ act.isPong = false := by
  cases act with
  | replied reply => exact ⟨(Option.some.inj hact).symm, rfl, rfl⟩
  | did event =>
      cases event with
      | close => exact ⟨(Option.some.inj hact).symm, rfl, rfl⟩
      | read want chunk => cases hact
      | write data ret => cases hact
      | ask mark => cases mark <;> cases hact

theorem overseer_clear {act : Act} {mode : Watch} (hact : overseer .clear act = some mode)
    (hheader : act.isHeader = false) : act.isPong = false ∧ (mode = .clear ∨ mode = .ended) := by
  cases act with
  | replied reply => exact ⟨rfl, Or.inl (Option.some.inj hact).symm⟩
  | did event =>
      cases event with
      | close => cases hact
      | read want chunk => exact ⟨rfl, Or.inl (Option.some.inj hact).symm⟩
      | write data ret => exact ⟨rfl, Or.inl (Option.some.inj hact).symm⟩
      | ask mark =>
          cases mark with
          | received op queued hdr => cases hheader
          | emitted hdr => exact afterSend_of_some hact
          | refused hdr => exact afterSend_of_some hact
          | truncated hdr => exact ⟨rfl, Or.inl (Option.some.inj hact).symm⟩
          | announced handle length => exact ⟨rfl, Or.inl (Option.some.inj hact).symm⟩
          | payload handle length ret => exact ⟨rfl, Or.inl (Option.some.inj hact).symm⟩

theorem noPong_of_passes {acts : List Act} {mode final : Watch} (hmode : mode = .clear ∨ mode = .ended)
    (hfold : acts.foldlM overseer mode = some final) : NoPong acts := by
  induction acts generalizing mode with
  | nil => intro act hact; cases hact
  | cons act acts ih =>
      obtain ⟨mode', hact, hrest⟩ := foldlM_cons_some hfold
      cases hheader : act.isHeader with
      | true =>
          intro other hother
          rw [List.takeWhile_cons, hheader] at hother
          cases hother
      | false =>
          rcases hmode with rfl | rfl
          · obtain ⟨hpong, hmode'⟩ := overseer_clear hact hheader
            exact noPong_cons hpong (ih hmode' hrest)
          · obtain ⟨hmode', -, hpong⟩ := overseer_ended hact
            exact noPong_cons hpong (ih (Or.inr hmode') hrest)

theorem silent_of_ended {acts : List Act} {final : Watch} (hfold : acts.foldlM overseer .ended = some final) :
    ∀ later ∈ acts, later.transfers = false := by
  induction acts with
  | nil => intro later hlater; cases hlater
  | cons act acts ih =>
      obtain ⟨mode', hact, hrest⟩ := foldlM_cons_some hfold
      obtain ⟨rfl, htransfers, -⟩ := overseer_ended hact
      intro later hlater
      rcases List.mem_cons.mp hlater with rfl | hlater
      · exact htransfers
      · exact ih hrest later hlater

theorem watch_cases (session : Session) : session.watch = .clear ∨ session.watch = .ended := by
  rw [Session.watch]
  split
  · exact Or.inr rfl
  · exact Or.inl rfl

theorem mode_of_nil {mode : Watch} {session : Session}
    (hfold : ([] : List Act).foldlM overseer mode = some session.watch) : mode = .clear ∨ mode = .ended := by
  have hend : mode = session.watch := Option.some.inj hfold
  rw [hend]
  exact watch_cases session

/-- In the mode `lost` a run can only go on with the failure of the call. -/
theorem failed_of_lost {acts : List Act} {session : Session}
    (hfold : acts.foldlM overseer .lost = some session.watch) :
    NoPong acts ∧ ∃ reply rest, acts = .replied reply :: rest ∧ reply.failed = true := by
  cases acts with
  | nil => rcases mode_of_nil hfold with hmode | hmode <;> cases hmode
  | cons act rest =>
      obtain ⟨mode, hact, hrest⟩ := foldlM_cons_some hfold
      cases act with
      | did event =>
          cases event with
          | ask mark => cases mark <;> cases hact
          | _ => cases hact
      | replied reply =>
          rw [overseer] at hact
          split at hact
          · rename_i hfailed
            obtain rfl := Option.some.inj hact
            exact ⟨noPong_cons rfl (noPong_of_passes (Or.inl rfl) hrest), reply, rest, rfl, hfailed⟩
          · cases hact

theorem answers_of_owing {value : UInt32} {acts : List Act} {session : Session}
    (hfold : acts.foldlM overseer (.owing value) = some session.watch) : Answers value acts := by
  cases acts with
  | nil => rcases mode_of_nil hfold with hmode | hmode <;> cases hmode
  | cons act acts =>
      obtain ⟨mode, hact, hrest⟩ := foldlM_cons_some hfold
      match act, hact with
      | .did (.write data ret), hact =>
          rw [overseer, monitor] at hact
          split at hact
          · rename_i hdata
            subst hdata
            obtain rfl := Option.some.inj hact
            cases acts with
            | nil => rcases mode_of_nil hrest with hmode | hmode <;> cases hmode
            | cons act rest =>
                obtain ⟨mode, hact, hrest⟩ := foldlM_cons_some hrest
                match act, hact with
                | .did (.ask mark), hact =>
                    rw [overseer, monitor] at hact
                    split at hact
                    · rename_i hmark
                      subst hmark
                      obtain rfl := Option.some.inj hact
                      refine ⟨ret, rest, rfl, ?_⟩
                      split at hrest
                      · rename_i hret
                        exact ⟨noPong_of_passes (Or.inl rfl) hrest, fun hne => absurd hret hne⟩
                      · obtain ⟨hnone, hfailed⟩ := failed_of_lost hrest
                        exact ⟨hnone, fun _ => hfailed⟩
                    · cases hact
          · cases hact

theorem clear_of_received {mode₁ mode₂ : Watch} {op : Operation} {queued : List UInt32} {hdr : Header}
    (hact : overseer mode₁ (.did (.ask (.received op queued hdr))) = some mode₂) :
    mode₂ = Watch.afterHeader op hdr := by
  cases mode₁ with
  | clear => exact (Option.some.inj hact).symm
  | answering value ret =>
      rw [overseer, monitor] at hact
      split at hact
      · rename_i hmark
        rw [headerNote] at hmark
        split at hmark <;> cases hmark
      · cases hact
  | owing value => cases hact
  | lost => cases hact
  | ended => cases hact

theorem ended_of_goesAway {mode₁ mode₂ : Watch} {act : Act} (hact : overseer mode₁ act = some mode₂)
    (hgoes : act.goesAway = true) : mode₂ = .ended := by
  cases act with
  | replied reply => cases hgoes
  | did event =>
      cases event with
      | read want chunk => cases hgoes
      | write data ret => cases hgoes
      | close => cases hgoes
      | ask mark =>
          cases mark with
          | received op queued hdr =>
              rw [Act.goesAway, Bool.and_eq_true, beq_iff_eq] at hgoes
              rw [clear_of_received hact, Watch.afterHeader, if_pos hgoes.2, if_pos hgoes.1]
          | emitted hdr =>
              rw [Act.goesAway, beq_iff_eq] at hgoes
              cases mode₁ with
              | clear =>
                  have hsend : Watch.afterSend hdr = some mode₂ := hact
                  rw [Watch.afterSend, if_pos hgoes] at hsend
                  split at hsend
                  · cases hsend
                  · exact (Option.some.inj hsend).symm
              | answering value ret =>
                  rw [overseer, monitor] at hact
                  split at hact
                  · rename_i hmark
                    rw [headerNote] at hmark
                    split at hmark <;> cases hmark
                    cases hgoes
                  · cases hact
              | owing value => cases hact
              | lost => cases hact
              | ended => cases hact
          | refused hdr => cases hgoes
          | truncated hdr => cases hgoes
          | announced handle length => cases hgoes
          | payload handle length ret => cases hgoes

/-- Every PING without ACK is answered at once and no other is, and after a GO_AWAY nothing is read or
written. -/
theorem history_controlled (isServer : Bool) (inbound : Bytes) (grants : List Nat)
    (outcomes : List WriteOutcome) (calls : List Call) :
    PingsAnswered ((Node.start isServer inbound grants outcomes).history calls) ∧
      SilentAfter Act.goesAway ((Node.start isServer inbound grants outcomes).history calls) := by
  obtain ⟨session, hpasses⟩ := (Node.start isServer inbound grants outcomes).history_passes calls
  constructor
  · intro before op queued hdr after hsplit hping
    rw [hsplit] at hpasses
    obtain ⟨mode₁, mode₂, hact, hafter⟩ := foldlM_split hpasses
    obtain rfl := clear_of_received hact
    have hgoAway : hdr.type ≠ typeGoAway := by
      rw [hping]
      decide
    constructor
    · intro hversion hack
      have hdispatches : op.dispatches hdr = true := by
        cases op <;> simp [Operation.dispatches, hversion]
      rw [Watch.afterHeader, if_pos hdispatches, if_neg hgoAway, if_pos ⟨hping, hack⟩] at hafter
      exact answers_of_owing hafter
    · intro hack
      have hclear : Watch.afterHeader op hdr = .clear := by
        simp [Watch.afterHeader, hgoAway, hack]
      rw [hclear] at hafter
      exact noPong_of_passes (Or.inl rfl) hafter
  · intro before act after hsplit hgoes
    rw [hsplit] at hpasses
    obtain ⟨mode₁, mode₂, hact, hafter⟩ := foldlM_split hpasses
    obtain rfl := ended_of_goesAway hact hgoes
    exact silent_of_ended hafter

/-- A GO_AWAY of any version was consumed, or one was sent. -/
def Act.namesGoAway : Act → Bool
  | .did (.ask (.received _ _ hdr)) => hdr.type == typeGoAway
  | .did (.ask (.emitted hdr)) => hdr.type == typeGoAway
  | _ => false

/-- A read that gets a GO_AWAY of version 1 fails and leaves the session open. -/
theorem not_history_controlled_version :
    ¬∀ isServer inbound grants outcomes calls,
      PingsAnswered ((Node.start isServer inbound grants outcomes).history calls) ∧
        SilentAfter Act.namesGoAway ((Node.start isServer inbound grants outcomes).history calls) := by
  intro hclaim
  let inbound : Bytes := encodeFrames [
    ⟨⟨version, typeWindowUpdate, flagSyn, 1, 0⟩, [], rfl⟩, ⟨⟨1, typeGoAway, 0, 0, 0⟩, [], rfl⟩,
    ⟨⟨version, typePing, 0, 0, 7⟩, [], rfl⟩]
  let calls : List Call := [.accept, .read 0 1, .read 0 1]
  let acts := (Node.start true inbound [] []).history calls
  have hsilent := (hclaim true inbound [] [] calls).2 (acts.take 6)
    (.did (.ask (.received (.read 0 1) [] ⟨1, typeGoAway, 0, 0, 0⟩))) (acts.drop 7) (by decide) rfl
    (.did (.write (pongHeader 7).encode 12)) (by decide)
  cases hsilent

end CLibp2p.Yamux
