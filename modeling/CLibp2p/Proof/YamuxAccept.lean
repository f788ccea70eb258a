import CLibp2p.Proof.YamuxStreams

/-!
# Inbound streams are accepted and acknowledged

A SYN that `libp2p_yamux_stream_accept` itself consumes is acknowledged once and returned once. The
other three loops do not agree with it: an open acknowledges the SYN and queues the id, and the accept
that takes it from the queue acknowledges it again; a read and a ping skip the SYN.
-/

namespace CLibp2p.Yamux

open Duplex

/-- An ACK-flagged WINDOW_UPDATE sent for the stream. -/
def ackTo (streamId : UInt32) : Note → Nat
  | .emitted hdr =>
      if hdr.type = typeWindowUpdate ∧ hdr.has flagAck = true ∧ hdr.streamId = streamId then 1 else 0
  | _ => 0

/-- A SYN for the stream that an accept consumed. -/
def acceptedSyn (streamId : UInt32) : Note → Nat
  | .received .accept _ hdr => if hdr.opensStream = true ∧ hdr.streamId = streamId then 1 else 0
  | _ => 0

/-- A SYN for the stream that an open consumed and queued. -/
def queuedSyn (streamId : UInt32) : Note → Bool
  | .received (.open _ id) queued hdr =>
      hdr.opensStream && hdr.streamId == streamId &&
        !(hdr.type == typeWindowUpdate && id == streamId) && !queued.contains streamId
  | _ => false

def ackRefused (streamId : UInt32) : Note → Bool
  | .refused hdr => hdr.type == typeWindowUpdate && hdr.has flagAck && hdr.streamId == streamId
  | _ => false

/-- The payload of a SYN for the stream did not arrive in full. -/
def synCutOff (streamId : UInt32) : Note → Bool
  | .truncated hdr => hdr.opensStream && hdr.streamId == streamId
  | _ => false

def acks (streamId : UInt32) (notes : List Note) : Nat := tally (ackTo streamId) notes

def acceptedSyns (streamId : UInt32) (notes : List Note) : Nat := tally (acceptedSyn streamId) notes

/-- How often a run returned this stream from an accept. -/
def accepts (streamId : UInt32) (replies : List Reply) : Nat :=
  replies.count (.accepted (some streamId))

@[simp] theorem acks_append (streamId : UInt32) (notes notes' : List Note) :
    acks streamId (notes ++ notes') = acks streamId notes + acks streamId notes' :=
  tally_append _ _ _

@[simp] theorem acceptedSyns_append (streamId : UInt32) (notes notes' : List Note) :
    acceptedSyns streamId (notes ++ notes') =
      acceptedSyns streamId notes + acceptedSyns streamId notes' := tally_append _ _ _

@[simp] theorem acks_nil (streamId : UInt32) : acks streamId [] = 0 := rfl

@[simp] theorem acks_cons (streamId : UInt32) (mark : Note) (notes : List Note) :
    acks streamId (mark :: notes) = ackTo streamId mark + acks streamId notes := tally_cons _ _ _

@[simp] theorem acceptedSyns_cons (streamId : UInt32) (mark : Note) (notes : List Note) :
    acceptedSyns streamId (mark :: notes) =
      acceptedSyn streamId mark + acceptedSyns streamId notes := tally_cons _ _ _

@[simp] theorem ackTo_received (streamId : UInt32) (op : Operation) (queued : List UInt32)
    (hdr : Header) : ackTo streamId (.received op queued hdr) = 0 := rfl

theorem Quiet.acceptedSyns {notes : List Note} (hquiet : Quiet notes) (streamId : UInt32) :
    acceptedSyns streamId notes = 0 := by
  apply hquiet.tally_eq_zero
  intro mark hheader
  cases mark <;> first | rfl | cases hheader

theorem ackTo_headerNote {streamId : UInt32} {hdr : Header} {ok : Bool}
    (hother : hdr.type ≠ typeWindowUpdate ∨ hdr.has flagAck = false ∨ hdr.streamId ≠ streamId) :
    ackTo streamId (headerNote hdr ok) = 0 := by
  cases ok with
  | false => rfl
  | true =>
      refine if_neg ?_
      rintro ⟨htype, hack, hid⟩
      rcases hother with hother | hother | hother
      · exact hother htype
      · rw [hother] at hack
        cases hack
      · exact hother hid

theorem Control.acks {session session' : Session} {hdr : Header} {ok : Bool} {notes : List Note}
    (hcontrol : Control session hdr ok session' notes) (streamId : UInt32) :
    acks streamId notes = 0 := by
  cases hcontrol with
  | ping htype hack ok =>
      rw [acks_cons, ackTo_headerNote (Or.inl (show typePing ≠ typeWindowUpdate by decide))]
      rfl
  | _ => rfl

theorem Control.queued {session session' : Session} {hdr : Header} {ok : Bool} {notes : List Note}
    (hcontrol : Control session hdr ok session' notes) : session'.queued = session.queued := by
  cases hcontrol <;> rfl

theorem queued_pendingBuffer (session : Session) (streamId : UInt32) (data : Bytes) :
    (pendingBuffer session streamId data).queued = session.queued := by
  simp only [Session.queued, pendingBuffer]
  induction session.pendingInbound with
  | nil => rfl
  | cons pending rest ih =>
      rw [bufferFirst]
      split
      · rfl
      · rw [List.map_cons, List.map_cons, ih]

theorem queued_pendingAdd (session : Session) (streamId : UInt32) :
    (pendingAdd session streamId).queued = streamId :: session.queued := rfl

/-! ### What leaves a stream alone -/

/-- The stream is not acknowledged, nor queued unless an open queues it, and accepts consume `syns`
SYN frames for it. -/
def Idle (streamId : UInt32) (syns : Nat) (session session' : Session) (notes : List Note) : Prop :=
  (∀ mark ∈ notes, queuedSyn streamId mark = false) →
    (streamId ∈ session'.queued → streamId ∈ session.queued) ∧ acks streamId notes = 0 ∧
      acceptedSyns streamId notes = syns

theorem Idle.trans {streamId : UInt32} {syns syns' : Nat} {session session' session'' : Session}
    {notes notes' : List Note} (hfirst : Idle streamId syns session session' notes)
    (hsecond : Idle streamId syns' session' session'' notes') :
    Idle streamId (syns + syns') session session'' (notes ++ notes') := by
  intro hqueued
  obtain ⟨hmem, hacks, hsyns⟩ := hfirst fun mark hmem => hqueued mark (List.mem_append_left _ hmem)
  obtain ⟨hmem', hacks', hsyns'⟩ :=
    hsecond fun mark hmem => hqueued mark (List.mem_append_right _ hmem)
  rw [acks_append, acceptedSyns_append, hacks, hacks', hsyns, hsyns']
  exact ⟨fun h => hmem (hmem' h), rfl, rfl⟩

theorem idle_nil {streamId : UInt32} {session session' : Session}
    (hqueued : session'.queued = session.queued) : Idle streamId 0 session session' [] :=
  fun _ => ⟨fun hmem => hqueued ▸ hmem, rfl, rfl⟩

theorem idle_received {streamId : UInt32} {syns : Nat} {session session' : Session}
    {op : Operation} {queued : List UInt32} {hdr : Header} {notes : List Note}
    (hsyns : acceptedSyn streamId (.received op queued hdr) = syns) (hquiet : Quiet notes)
    (hacks : acks streamId notes = 0) (hqueued : session'.queued = session.queued) :
    Idle streamId syns session session' (.received op queued hdr :: notes) := by
  intro _
  rw [acks_cons, ackTo_received, hacks, acceptedSyns_cons, hsyns, hquiet.acceptedSyns]
  exact ⟨fun hmem => hqueued ▸ hmem, rfl, rfl⟩

/-- The session a pass of a read leaves behind. -/
def sessionAfterRead : (Session × StreamContext) ⊕ ReadResult → Session
  | .inl (session, _) => session
  | .inr (_, session, _) => session

/-- The session a pass of an open leaves behind. -/
def sessionAfterOpen : (Session × StreamContext) ⊕ OpenResult → Session
  | .inl (session, _) => session
  | .inr (_, session) => session

theorem acks_creditHeader (streamId id length : UInt32) (ok : Bool) (notes : List Note)
    (hnone : acks streamId notes = 0) :
    acks streamId (headerNote (creditHeader id length) ok :: notes) = 0 := by
  have hflags : (creditHeader id length).has flagAck = false :=
    show ((0 : UInt16) &&& flagAck != 0) = false by decide
  rw [acks_cons, ackTo_headerNote (Or.inr (Or.inl hflags)), hnone]

theorem idle_readTurn {streamId : UInt32} {count : Nat} {session : Session} {ctx : StreamContext}
    {turn : (Session × StreamContext) ⊕ ReadResult} {notes : List Note} {flow : Flow}
    (hturn : ReadTurn count session ctx turn notes flow) :
    Idle streamId 0 session (sessionAfterRead turn) notes := by
  cases hturn with
  | frame hopen hread hdecode hlength hframe =>
      refine idle_received rfl hframe.quiet ?_ ?_
      · cases hframe with
        | control htype hcontrol => exact hcontrol.acks streamId
        | buffered htype hid hqueued hlength ok => exact acks_creditHeader _ _ _ ok _ rfl
        | delivered htype hid hfull hlength hreplenish =>
            cases hreplenish with
            | kept hsmall => rfl
            | refused hlarge => rfl
            | granted hlarge => exact acks_creditHeader _ _ _ true _ rfl
        | failedBuffer htype hid ok => exact acks_creditHeader _ _ _ ok _ rfl
        | _ => rfl
      · cases hframe with
        | control htype hcontrol => rw [← hcontrol.queued]; split <;> rfl
        | buffered htype hid hqueued hlength ok => exact queued_pendingBuffer _ _ _
        | _ => rfl
  | _ => exact idle_nil rfl

theorem idle_queued (streamId : UInt32) {session : Session} (ctx : StreamContext) {hdr : Header}
    (data : Bytes) (ok : Bool) {rest : List Note} (hrest : Quiet rest)
    (hnone : acks streamId rest = 0)
    (hown : ¬(hdr.type = typeWindowUpdate ∧ hdr.streamId = ctx.streamId))
    (hopens : hdr.opensStream = true) (hunqueued : pendingExists session hdr.streamId = false) :
    Idle streamId 0 session
      (pendingBuffer (pendingAdd session hdr.streamId) hdr.streamId data)
      (.received (.open ctx.handle ctx.streamId) session.queued hdr ::
        headerNote (ackHeader hdr.streamId) ok :: rest) := by
  intro hqueued
  have hother : hdr.streamId ≠ streamId := by
    rintro rfl
    have hnotMem : hdr.streamId ∉ session.queued := by
      intro hmem
      rw [pendingExists_of_mem_queued hmem] at hunqueued
      cases hunqueued
    have hmark := hqueued _ List.mem_cons_self
    simp only [queuedSyn, hopens, beq_self_eq_true, Bool.true_and,
      Bool.and_eq_false_imp, Bool.not_eq_true', Bool.not_eq_false', List.contains_iff_mem] at hmark
    refine hnotMem (hmark ?_)
    intro hwindow
    simpa using fun hid => hown ⟨by simpa using hwindow, hid.symm⟩
  refine ⟨fun hmem => ?_, ?_, ?_⟩
  · rw [queued_pendingBuffer, queued_pendingAdd, List.mem_cons] at hmem
    exact hmem.resolve_left fun hid => hother hid.symm
  · have hack : ackTo streamId (headerNote (ackHeader hdr.streamId) ok) = 0 :=
      ackTo_headerNote (Or.inr (Or.inr hother))
    rw [acks_cons, ackTo_received, acks_cons, hack, hnone]
  · have hquiet : Quiet (headerNote (ackHeader hdr.streamId) ok :: rest) := by simp [hrest]
    rw [acceptedSyns_cons, hquiet.acceptedSyns]
    rfl

theorem idle_openTurn {streamId : UInt32} {session : Session} {ctx : StreamContext}
    {turn : (Session × StreamContext) ⊕ OpenResult} {notes : List Note} {flow : Flow}
    (hturn : OpenTurn session ctx turn notes flow) :
    Idle streamId 0 session (sessionAfterOpen turn) notes := by
  cases hturn with
  | headerFailed => exact idle_nil rfl
  | frame hdecode hlength hframe =>
      have hquiet := hframe.quiet
      cases hframe with
      | control htype hcontrol =>
          refine idle_received rfl hquiet (hcontrol.acks streamId) ?_
          rw [← hcontrol.queued]
          split <;> rfl
      | queued hown hopens hunqueued hlength ok =>
          exact idle_queued streamId ctx _ ok quiet_nil rfl hown hopens hunqueued
      | failedQueue htype hopens hunqueued ok =>
          have hidle := idle_queued streamId ctx [] ok (quiet_cons.mp hquiet).2 rfl
            (fun hwindow => Header.ne_window_of_data htype hwindow.1) hopens hunqueued
          rwa [pendingBuffer_nil] at hidle
      | buffered htype hopens hqueued hlength =>
          exact idle_received rfl hquiet rfl (queued_pendingBuffer _ _ _)
      | _ => exact idle_received rfl hquiet rfl rfl

theorem idle_pingTurn {streamId value : UInt32} {session : Session}
    {turn : Session ⊕ (Bool × Session)} {notes : List Note} {flow : Flow}
    (hturn : PingTurn value session turn notes flow) :
    Idle streamId 0 session (turn.elim id Prod.snd) notes := by
  have hcontrol {hdr session' ok notes} (hcontrol : Control session hdr ok session' notes) :
      Idle streamId 0 session session' (.received (.ping value) session.queued hdr :: notes) :=
    idle_received rfl hcontrol.quiet (hcontrol.acks streamId) hcontrol.queued
  cases hturn with
  | headerFailed => exact idle_nil rfl
  | frame hdecode hlength hframe =>
      cases hframe with
      | pong htype hack hvalue => exact idle_received rfl quiet_nil rfl rfl
      | stopped hstopped => exact hcontrol hstopped
      | discarded hother hdiscarded hlength => exact hcontrol hdiscarded
      | failed hfailed => exact hcontrol hfailed

/-- Whether a pass of `yamux_wait_for_syn` returned a SYN for the stream. -/
def foundFor (streamId : UInt32) : Session ⊕ (Option Header × Session) → Nat
  | .inr (some hdr, _) => if hdr.streamId = streamId then 1 else 0
  | _ => 0

theorem idle_synTurn {streamId : UInt32} {session : Session}
    {turn : Session ⊕ (Option Header × Session)} {notes : List Note} {flow : Flow}
    (hturn : SynTurn session turn notes flow) :
    Idle streamId (foundFor streamId turn) session (turn.elim id Prod.snd) notes := by
  -- a header that opens no stream is none of the SYN frames counted
  have hother {hdr : Header} {session' : Session} {notes : List Note}
      (hopens : hdr.opensStream = false) (hquiet : Quiet notes) (hacks : acks streamId notes = 0)
      (hqueued : session'.queued = session.queued) :
      Idle streamId 0 session session' (.received .accept session.queued hdr :: notes) := by
    have hnone : acceptedSyn streamId (.received .accept session.queued hdr) = 0 := by
      simp [acceptedSyn, hopens]
    exact idle_received hnone hquiet hacks hqueued
  cases hturn with
  | headerFailed => exact idle_nil rfl
  | frame hdecode hlength hframe =>
      have hquiet := hframe.quiet
      cases hframe with
      | control htype hcontrol =>
          have hidle := hother (Header.opensStream_of_control htype) hquiet
            (hcontrol.acks streamId) hcontrol.queued
          split <;> exact hidle
      | opened hopens =>
          refine idle_received ?_ hquiet rfl rfl
          simp [acceptedSyn, foundFor, hopens]
      | discarded hping hgoAway hopens hlength => exact hother hopens hquiet rfl rfl
      | failed hopens => exact hother hopens hquiet rfl rfl

theorem Runs.idle {τ ρ : Type} {Turn : τ → τ ⊕ ρ → List Note → Flow → Prop} {streamId : UInt32}
    (before : τ → Session) (after : ρ → Session) (syns : ρ → Nat)
    (hnext : ∀ {state state' notes flow}, Turn state (.inl state') notes flow →
      Idle streamId 0 (before state) (before state') notes)
    (hlast : ∀ {state result notes flow}, Turn state (.inr result) notes flow →
      Idle streamId (syns result) (before state) (after result) notes)
    {state : τ} {result : ρ} {notes : List Note} {flow : Flow}
    (hruns : Runs Turn state result notes flow) :
    Idle streamId (syns result) (before state) (after result) notes := by
  induction hruns with
  | last hturn => exact hlast hturn
  | next hturn hdeaf hrest ih =>
      have hboth := (hnext hturn).trans ih
      rwa [Nat.zero_add] at hboth

/-- What `yamux_wait_for_syn` returns opens a stream. -/
theorem Runs.opens {session session' : Session} {hdr : Header} {notes : List Note} {flow : Flow}
    (hruns : SynRuns session (some hdr, session') notes flow) : hdr.opensStream = true := by
  refine hruns.invariant (fun _ _ _ => True)
    (fun result _ _ => ∀ hdr, result.1 = some hdr → hdr.opensStream = true)
    (fun _ _ _ => trivial) (fun _ hturn _ => ?_) [] (.took []) (fun hfailed => by cases hfailed) trivial
    hdr rfl
  generalize hresult : Sum.inr _ = turn at hturn
  cases hturn with
  | headerFailed => cases hresult; exact fun _ hnone => by cases hnone
  | frame hdecode hlength hframe =>
      cases hframe with
      | control htype hcontrol =>
          split at hresult
          · cases hresult
          · cases hresult
            exact fun _ hnone => by cases hnone
      | opened hopens =>
          cases hresult
          exact fun _ hsome => Option.some.inj hsome ▸ hopens
      | discarded hping hgoAway hopens hlength => cases hresult
      | failed hopens => cases hresult; exact fun _ hnone => by cases hnone

/-! ### Along a run -/

/-- While no open queues a SYN of the stream, none is cut off and none of its acknowledgements is
refused, it is not queued, and it is returned and acknowledged as often as accepts consume a SYN for
it. -/
def Answered (streamId : UInt32) (session : Session) (replies : List Reply) (log : List Note) :
    Prop :=
  (∀ mark ∈ log, queuedSyn streamId mark = false) →
    (∀ mark ∈ log, ackRefused streamId mark = false) →
    (∀ mark ∈ log, synCutOff streamId mark = false) →
    streamId ∉ session.queued ∧ accepts streamId replies = acceptedSyns streamId log ∧
      acks streamId log = acceptedSyns streamId log

theorem Answered.before {streamId : UInt32} {session : Session} {replies : List Reply}
    {log notes : List Note} (hbefore : Answered streamId session replies log)
    (hqueued : ∀ mark ∈ log ++ notes, queuedSyn streamId mark = false)
    (hrefused : ∀ mark ∈ log ++ notes, ackRefused streamId mark = false)
    (hcut : ∀ mark ∈ log ++ notes, synCutOff streamId mark = false) :
    streamId ∉ session.queued ∧ accepts streamId replies = acceptedSyns streamId log ∧
      acks streamId log = acceptedSyns streamId log :=
  hbefore (fun mark hmem => hqueued mark (List.mem_append_left _ hmem))
    (fun mark hmem => hrefused mark (List.mem_append_left _ hmem))
    (fun mark hmem => hcut mark (List.mem_append_left _ hmem))

theorem Idle.answered {streamId : UInt32} {session session' : Session} {replies : List Reply}
    {reply : Reply} {log notes : List Note} (hidle : Idle streamId 0 session session' notes)
    (hbefore : Answered streamId session replies log)
    (hreply : reply ≠ .accepted (some streamId)) :
    Answered streamId session' (replies ++ [reply]) (log ++ notes) := by
  intro hqueued hrefused hcut
  obtain ⟨hnotMem, hreplies, hacks⟩ := hbefore.before hqueued hrefused hcut
  obtain ⟨hmem, hidleAcks, hidleSyns⟩ :=
    hidle fun mark hmem => hqueued mark (List.mem_append_right _ hmem)
  have hcount : accepts streamId (replies ++ [reply]) = accepts streamId replies := by
    rw [accepts, List.count_append, List.count_singleton, if_neg (by simpa using hreply)]
    rfl
  rw [hcount, acks_append, acceptedSyns_append, hidleAcks, hidleSyns, hacks, hreplies]
  exact ⟨fun h => hnotMem (hmem h), rfl, rfl⟩

theorem Closes.acks {session : Session} {ctx : StreamContext} {notes : List Note}
    (hcloses : Closes session ctx notes) (streamId : UInt32) : acks streamId notes = 0 := by
  cases hcloses with
  | silent hclosed => rfl
  | fin ok =>
      rw [acks_cons, ackTo_headerNote (Or.inl (show typeData ≠ typeWindowUpdate by decide))]
      rfl

theorem idle_acknowledges {streamId : UInt32} {session session' session'' : Session}
    {ctx : StreamContext} {result : Option StreamContext} {notes : List Note}
    (hack : Acknowledges session ctx result notes) (hother : ctx.streamId ≠ streamId)
    (hqueued : streamId ∈ session''.queued → streamId ∈ session'.queued) :
    Idle streamId 0 session' session'' notes := by
  intro _
  refine ⟨hqueued, ?_, hack.quiet.acceptedSyns streamId⟩
  have hheader (ok : Bool) : ackTo streamId (headerNote (ackHeader ctx.streamId) ok) = 0 :=
    ackTo_headerNote (Or.inr (Or.inr hother))
  cases hack with
  | acked => exact hheader true
  | refused hcloses => rw [acks_cons, hcloses.acks]; rfl

theorem ackHeader_has (streamId : UInt32) : (ackHeader streamId).has flagAck = true :=
  show (flagAck &&& flagAck != 0) = true by decide

theorem Acknowledges.reply_ne {streamId : UInt32} {session : Session} {ctx : StreamContext}
    {result : Option StreamContext} {notes : List Note}
    (hack : Acknowledges session ctx result notes) (hother : ctx.streamId ≠ streamId) :
    Reply.accepted (result.map StreamContext.streamId) ≠ .accepted (some streamId) := by
  cases hack with
  | acked => simpa using hother
  | refused hcloses => simp

theorem Answered.accepted {streamId : UInt32} {session session' session'' : Session}
    {data : Bytes} {handle : Nat} {ctx : Option StreamContext} {replies : List Reply}
    {log notes notes' : List Note} (hbefore : Answered streamId session replies log)
    (hidle : Idle streamId 1 session session' notes)
    (hack : Acknowledges session'' (newContext handle streamId true data) ctx notes') :
    Answered streamId session' (replies ++ [.accepted (ctx.map StreamContext.streamId)])
      (log ++ (notes ++ notes')) := by
  intro hqueued hrefused hcut
  obtain ⟨hnotMem, hreplies, hacks⟩ := hbefore.before hqueued hrefused hcut
  obtain ⟨hmem, hidleAcks, hidleSyns⟩ := hidle fun mark hmem =>
    hqueued mark (List.mem_append_right _ (List.mem_append_left _ hmem))
  have hsyns := hack.quiet.acceptedSyns streamId
  cases hack with
  | acked =>
      have hone : acks streamId [.emitted (ackHeader streamId)] = 1 := by
        rw [acks_cons, acks_nil]
        exact if_pos ⟨rfl, ackHeader_has streamId, rfl⟩
      have hcount : accepts streamId (replies ++ [.accepted (some streamId)]) =
          accepts streamId replies + 1 := by
        rw [accepts, List.count_append, List.count_singleton_self]
        rfl
      refine ⟨fun h => hnotMem (hmem h), ?_, ?_⟩
      · change accepts streamId (replies ++ [.accepted (some streamId)]) = _
        rw [hcount, acceptedSyns_append, acceptedSyns_append, hidleSyns, hsyns, hreplies]
      · change acks streamId (log ++ (notes ++ [.emitted (ackHeader streamId)])) = _
        rw [acks_append, acks_append, hone, hidleAcks, acceptedSyns_append, acceptedSyns_append,
          hidleSyns, hsyns, hacks]
  | refused hcloses =>
      have hlast := hrefused (.refused (ackHeader streamId))
        (List.mem_append_right _ (List.mem_append_right _ List.mem_cons_self))
      have hself : ackRefused streamId (.refused (ackHeader streamId)) = true := by
        simp only [ackRefused, ackHeader_has]
        simp [ackHeader]
      rw [hself] at hlast
      cases hlast

theorem Answered.outcome {streamId : UInt32} {session session' : Session}
    {streams streams' : List (Option StreamContext)} {call : Call} {reply : Reply}
    {replies : List Reply} {log notes : List Note} {flow : Flow}
    (hbefore : Answered streamId session replies log)
    (houtcome : Outcome session streams call session' streams' reply notes flow) :
    Answered streamId session' (replies ++ [reply]) (log ++ notes) := by
  have hsilent {session' : Session} {notes : List Note} {reply : Reply}
      (hquiet : Quiet notes) (hacks : acks streamId notes = 0)
      (hqueued : session'.queued = session.queued) (hreply : reply ≠ .accepted (some streamId)) :
      Answered streamId session' (replies ++ [reply]) (log ++ notes) :=
    Idle.answered (fun _ => ⟨fun hmem => hqueued ▸ hmem, hacks, hquiet.acceptedSyns streamId⟩)
      hbefore hreply
  have hsyn {result : Option Header × Session} {notes : List Note} {flow : Flow}
      (hruns : SynRuns session result notes flow) :
      Idle streamId (foundFor streamId (.inr result)) session result.2 notes :=
    hruns.idle id Prod.snd (fun result => foundFor streamId (.inr result)) idle_synTurn idle_synTurn
  have hheader {hdr : Header} {ok : Bool} (hother : hdr.type ≠ typeWindowUpdate ∨
      hdr.has flagAck = false ∨ hdr.streamId ≠ streamId) :
      acks streamId [headerNote hdr ok] = 0 := by
    rw [acks_cons, ackTo_headerNote hother, acks_nil]
  have hsynFlags (id : UInt32) : (synHeader id).has flagAck = false :=
    show (flagSyn &&& flagAck != 0) = false by decide
  cases houtcome with
  | openClosed hclosed => exact hsilent quiet_nil rfl rfl (by simp)
  | openRefused => exact hsilent (by simp) rfl rfl (by simp)
  | openRan hruns =>
      have hopened : Idle streamId 0 session session.afterOpen
          [headerNote (synHeader session.nextStreamId) true] := fun _ =>
        ⟨id, hheader (Or.inr (Or.inl (hsynFlags _))), rfl⟩
      exact Idle.answered (hopened.trans (hruns.idle Prod.fst Prod.snd (fun _ => 0)
        idle_openTurn idle_openTurn)) hbefore (by simp)
  | acceptClosed hclosed => exact hsilent quiet_nil rfl rfl (by simp)
  | acceptQueued hpending hack =>
      rename_i pending rest ctx
      by_cases hid : pending.streamId = streamId
      · -- a stream that is queued was queued by an open
        intro hqueued hrefused hcut
        have hnotMem := (hbefore.before hqueued hrefused hcut).1
        rw [Session.queued, hpending, List.map_cons, hid] at hnotMem
        exact absurd List.mem_cons_self hnotMem
      · refine Idle.answered (idle_acknowledges hack hid fun hmem => ?_) hbefore ?_
        · rw [Session.queued, hpending]
          exact List.mem_cons_of_mem _ hmem
        · exact hack.reply_ne hid
  | acceptNone hruns => exact Idle.answered (hsyn hruns) hbefore (by simp)
  | acceptSyn hpending hruns hlength hack =>
      rename_i hdr data ctx notes notes' flow
      by_cases hid : hdr.streamId = streamId
      · subst hid
        have hidle := hsyn hruns
        rw [foundFor, if_pos rfl] at hidle
        exact hbefore.accepted hidle hack
      · have hidle := hsyn hruns
        rw [foundFor, if_neg hid] at hidle
        exact Idle.answered (hidle.trans (idle_acknowledges hack hid id)) hbefore (hack.reply_ne hid)
  | acceptLost hruns =>
      rename_i hdr notes flow
      by_cases hid : hdr.streamId = streamId
      · intro _ _ hcut
        have hlast := hcut (.truncated hdr)
          (List.mem_append_right _ (List.mem_append_right _ List.mem_cons_self))
        simp [synCutOff, hid, hruns.opens] at hlast
      · have hidle := hsyn hruns
        rw [foundFor, if_neg hid] at hidle
        have hrest : Idle streamId 0 session' session' [.truncated hdr] := fun _ => ⟨id, rfl, rfl⟩
        exact Idle.answered (hidle.trans hrest) hbefore (by simp)
  | absent => exact hsilent quiet_nil rfl rfl (by simp)
  | readRan hctx hruns =>
      exact Idle.answered (hruns.idle Prod.fst (fun result => result.2.1) (fun _ => 0)
        idle_readTurn idle_readTurn) hbefore (by simp)
  | wrote hctx hwrites =>
      have hdata (id length : UInt32) : ackTo streamId (.emitted (dataHeader id length)) = 0 := by
        change ackTo streamId (headerNote (dataHeader id length) true) = 0
        exact ackTo_headerNote (Or.inl (show typeData ≠ typeWindowUpdate by decide))
      refine Idle.answered (fun _ => ⟨id, ?_, ?_⟩) hbefore (by simp)
      · cases hwrites with
        | nothing => rfl
        | refused length => rfl
        | sent hwindow => rw [acks_cons, hdata]; rfl
        | short hret => rw [acks_cons, hdata]; rfl
      · cases hwrites <;> rfl
  | closed hctx hcloses => exact hsilent hcloses.quiet (hcloses.acks streamId) rfl (by simp)
  | pingClosed hclosed => exact hsilent quiet_nil rfl rfl (by simp)
  | pingRefused => exact hsilent (by simp) rfl rfl (by simp)
  | pingRan hruns =>
      have hpinged : Idle streamId 0 session session.afterPing
          [headerNote ⟨version, typePing, 0, 0, session.pingSeq⟩ true] := fun _ =>
        ⟨id, hheader (Or.inl (show typePing ≠ typeWindowUpdate by decide)), rfl⟩
      exact Idle.answered (hpinged.trans (hruns.idle id Prod.snd (fun _ => 0)
        idle_pingTurn idle_pingTurn)) hbefore (by simp)
  | goawayClosed hclosed => exact hsilent quiet_nil rfl rfl (by simp)
  | goaway ok =>
      exact hsilent (by simp) (hheader (Or.inl (show typeGoAway ≠ typeWindowUpdate by decide))) rfl
        (by simp)

/-- **Accepting.** In every run in which exactly one SYN for the stream is consumed by an accept and
none is queued by an open, its payload arrives and its acknowledgement goes out, the stream is returned by exactly one
accept and acknowledged exactly once. -/
theorem accepted_and_acked_once (isServer : Bool) (inbound : Bytes) (grants : List Nat)
    (outcomes : List WriteOutcome) (calls : List Call) (node : Node) (replies : List Reply)
    (hrun : (node, replies) = (Node.start isServer inbound grants outcomes).run calls)
    (streamId : UInt32) (haccepted : acceptedSyns streamId node.notes = 1)
    (hqueued : ∀ mark ∈ node.notes, queuedSyn streamId mark = false)
    (hrefused : ∀ mark ∈ node.notes, ackRefused streamId mark = false)
    (hcut : ∀ mark ∈ node.notes, synCutOff streamId mark = false) :
    accepts streamId replies = 1 ∧ acks streamId node.notes = 1 := by
  have hinit : Answered streamId (sessionNew isServer) [] [] :=
    fun _ _ _ => ⟨by simp [sessionNew, Session.queued], rfl, rfl⟩
  have hanswered := Node.run_outcomes
    (fun session _ replies log => Answered streamId session replies log)
    (fun hbefore houtcome => hbefore.outcome houtcome) isServer inbound grants outcomes calls hinit
  rw [← hrun] at hanswered
  obtain ⟨-, hreplies, hacks⟩ := hanswered hqueued hrefused hcut
  exact ⟨hreplies.trans haccepted, hacks.trans haccepted⟩

theorem accepted_and_acked_once_accept :
    let run := (Node.start true (synHeader 1).encode [] []).run [.accept]
    accepts 1 run.2 = 1 ∧ acks 1 run.1.notes = 1 := by
  refine accepted_and_acked_once true (synHeader 1).encode [] [] [.accept] _ _ rfl 1 ?_ ?_ ?_ ?_ <;>
    decide

/-- A SYN that arrives while a stream is being opened is acknowledged by the open, which queues the
id, and once more by the accept that returns it. -/
theorem queued_syn_acked_twice :
    let inbound := (synHeader 2).encode ++ (ackHeader 1).encode
    let run := (Node.start false inbound [] []).run [.open, .accept]
    run.2 = [.opened (some 1), .accepted (some 2)] ∧ acks 2 run.1.notes ≠ 1 := by
  decide

end CLibp2p.Yamux
