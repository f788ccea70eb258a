import CLibp2p.Proof.YamuxLog

/-!
# The inbound cursor and frame boundaries

A loop stays on frame boundaries as long as each pass takes exactly the payload that follows its
header. The four loops disagree about which headers have a payload: `misreads` lists the headers after
which one of them leaves payload bytes unread or takes bytes that belong to the next header. A run
that meets none of them is on a boundary after every operation.
-/

namespace CLibp2p.Yamux

open Duplex Duplex.Prog

def unknownType (type : UInt8) : Bool :=
  type != typeData && type != typeWindowUpdate && type != typePing && type != typeGoAway

/-- The headers an operation treats as if another number of bytes followed them. -/
def misreads : Note → Bool
  | .received (.read _ _) _ hdr =>
      hdr.length != 0 &&
        (hdr.version != version && hdr.type == typeData ||
          hdr.version == version && unknownType hdr.type)
  | .received (.open _ streamId) queued hdr =>
      hdr.length != 0 &&
        (hdr.type == typeData && hdr.has flagSyn && queued.contains hdr.streamId ||
          hdr.type == typeWindowUpdate && hdr.streamId != streamId && !hdr.has flagSyn ||
          unknownType hdr.type)
  | .received .accept _ hdr =>
      hdr.length != 0 &&
        (hdr.type == typeWindowUpdate && !hdr.has flagSyn || unknownType hdr.type)
  | .received (.ping value) _ hdr =>
      hdr.length != 0 &&
        (hdr.type == typeWindowUpdate || unknownType hdr.type ||
          hdr.type == typePing && !(hdr.has flagAck && hdr.length == value))
  | _ => false

/-- The bytes still to come are whole frames of the sequence the peer sends. -/
def Aligned (frames : List Frame) (inbound : Bytes) : Prop :=
  ∃ rest, rest <:+ frames ∧ inbound = encodeFrames rest

/-- A header has just been consumed and its payload is next. -/
def AtPayload (frames : List Frame) (hdr : Header) (inbound : Bytes) : Prop :=
  ∃ frame rest, frame :: rest <:+ frames ∧ frame.header = hdr ∧
    inbound = frame.payload ++ encodeFrames rest

theorem Aligned.header {frames : List Frame} {inbound head : Bytes} {hdr : Header}
    (haligned : Aligned frames inbound) (hdecode : Header.decode head = some hdr)
    (hlength : head.length = headerSize) (hfront : head <+: inbound) :
    AtPayload frames hdr (inbound.drop head.length) := by
  obtain ⟨rest, hsuffix, hinbound⟩ := haligned
  obtain ⟨tail, rfl⟩ := hfront
  cases rest with
  | nil =>
      have hempty : head = [] := (List.append_eq_nil_iff.mp hinbound).1
      rw [hempty] at hlength
      cases hlength
  | cons frame rest =>
      rw [encodeFrames_cons] at hinbound
      obtain ⟨hhead, htail⟩ := List.append_inj hinbound (by rw [hlength, Header.length_encode])
      rw [hhead, Header.decode_encode] at hdecode
      exact ⟨frame, rest, hsuffix, Option.some.inj hdecode, by rw [List.drop_left, htail]⟩

theorem AtPayload.payload {frames : List Frame} {inbound data : Bytes} {hdr : Header}
    (hat : AtPayload frames hdr inbound) (hlength : data.length = hdr.payloadLength)
    (hfront : data <+: inbound) : Aligned frames (inbound.drop data.length) := by
  obtain ⟨frame, rest, hsuffix, rfl, hinbound⟩ := hat
  obtain ⟨tail, rfl⟩ := hfront
  obtain ⟨-, htail⟩ := List.append_inj hinbound (by rw [hlength, frame.payload_length])
  exact ⟨rest, (List.suffix_cons frame rest).trans hsuffix, by rw [List.drop_left, htail]⟩

/-- A pass that takes a header and exactly its payload keeps the cursor on a boundary. -/
theorem Aligned.frame {frames : List Frame} {inbound head data : Bytes} {hdr : Header}
    (haligned : Aligned frames inbound) (hdecode : Header.decode head = some hdr)
    (hhead : head.length = headerSize) (hdata : data.length = hdr.payloadLength)
    (hfront : head ++ data <+: inbound) :
    Aligned frames (inbound.drop (head ++ data).length) := by
  obtain ⟨hfirst, hsecond⟩ := append_prefix_split hfront
  have hend := (haligned.header hdecode hhead hfirst).payload hdata hsecond
  rwa [List.drop_drop, ← List.length_append] at hend

/-! ### Each loop takes the payload of every header it does not misread -/

theorem payloadLength_of_length_eq_zero {hdr : Header} (hlength : hdr.length = 0) :
    hdr.payloadLength = 0 := by
  rw [Header.payloadLength, hlength]
  split <;> rfl

theorem payloadLength_of_not_data {hdr : Header} (htype : hdr.type ≠ typeData) :
    hdr.payloadLength = 0 := if_neg htype

theorem typePing_ne_typeData : typePing ≠ typeData := by decide
theorem typeGoAway_ne_typeData : typeGoAway ≠ typeData := by decide
theorem typeWindowUpdate_ne_typeData : typeWindowUpdate ≠ typeData := by decide

theorem payloadLength_of_control {hdr : Header}
    (htype : hdr.type = typePing ∨ hdr.type = typeGoAway) : hdr.payloadLength = 0 := by
  apply payloadLength_of_not_data
  rcases htype with htype | htype <;> rw [htype]
  · exact typePing_ne_typeData
  · exact typeGoAway_ne_typeData

theorem payloadLength_of_window {hdr : Header} (htype : hdr.type = typeWindowUpdate) :
    hdr.payloadLength = 0 :=
  payloadLength_of_not_data (htype ▸ typeWindowUpdate_ne_typeData)

/-- Taking `length` bytes is right when the header is DATA, or `length` is zero. -/
theorem payloadLength_eq_length {hdr : Header} (h : hdr.type = typeData ∨ hdr.length = 0) :
    hdr.payloadLength = hdr.length.toNat := by
  rcases h with htype | hlength
  · exact payloadLength_of_data htype
  · rw [payloadLength_of_length_eq_zero hlength, hlength]
    rfl

theorem readFrame_takes_payload {count : Nat} {session : Session} {ctx : StreamContext}
    {hdr : Header} {turn : (Session × StreamContext) ⊕ ReadResult} {notes : List Note}
    {data : Bytes} {queued : List UInt32}
    (hclean : misreads (.received (.read ctx.handle ctx.streamId) queued hdr) = false)
    (hframe : ReadFrame count session ctx hdr turn notes (.took data)) :
    data.length = hdr.payloadLength := by
  simp only [misreads] at hclean
  cases hframe with
  | badVersion hversion =>
      by_cases htype : hdr.type = typeData
      · rw [payloadLength_of_length_eq_zero (by simpa [hversion, htype] using hclean)]
        rfl
      · exact (payloadLength_of_not_data htype).symm
  | control htype hcontrol => exact (payloadLength_of_control htype).symm
  | credit hversion htype hid => exact (payloadLength_of_window htype).symm
  | foreignCredit htype hid => exact (payloadLength_of_window htype).symm
  | unknown hversion hping hgoAway hwindow hdata hlength =>
      rw [hlength, payloadLength_eq_length]
      exact Or.inr (by simpa [hversion, hping, hgoAway, hwindow, hdata, unknownType] using hclean)
  | buffered htype hid hqueued hlength ok => rw [hlength, payloadLength_of_data htype]
  | dropped htype hid hunqueued hlength => rw [hlength, payloadLength_of_data htype]
  | finished htype hid hempty => rw [payloadLength_of_length_eq_zero hempty]; rfl
  | empty htype hid hempty => rw [payloadLength_of_length_eq_zero hempty]; rfl
  | delivered htype hid hfull hlength hreplenish => rw [hlength, payloadLength_of_data htype]

theorem opensStream_iff {hdr : Header} : hdr.opensStream = true ↔
    (hdr.type = typeWindowUpdate ∨ hdr.type = typeData) ∧ hdr.has flagSyn = true := by
  simp [Header.opensStream]

/-- A header that is neither a control frame nor a SYN, and not misread, is DATA or has no length. -/
theorem data_or_empty_of_plain {hdr : Header} (hping : hdr.type ≠ typePing)
    (hgoAway : hdr.type ≠ typeGoAway) (hopens : hdr.opensStream = false)
    (hunknown : hdr.length ≠ 0 → unknownType hdr.type = false)
    (hwindow : hdr.length ≠ 0 → hdr.type = typeWindowUpdate → hdr.has flagSyn = true) :
    hdr.type = typeData ∨ hdr.length = 0 := by
  by_cases hlength : hdr.length = 0
  · exact Or.inr hlength
  by_cases htype : hdr.type = typeWindowUpdate
  · rw [opensStream_iff.mpr ⟨Or.inl htype, hwindow hlength htype⟩] at hopens
    cases hopens
  · exact Or.inl (by simpa [unknownType, hping, hgoAway, htype] using hunknown hlength)

theorem openFrame_takes_payload {session : Session} {ctx : StreamContext} {hdr : Header}
    {turn : (Session × StreamContext) ⊕ OpenResult} {notes : List Note} {data : Bytes}
    (hclean : misreads (.received (.open ctx.handle ctx.streamId) session.queued hdr) = false)
    (hframe : OpenFrame session ctx hdr turn notes (.took data)) :
    data.length = hdr.payloadLength := by
  simp only [misreads] at hclean
  cases hframe with
  | control htype hcontrol => exact (payloadLength_of_control htype).symm
  | acked htype hid => exact (payloadLength_of_window htype).symm
  | credit htype hid => exact (payloadLength_of_window htype).symm
  | requeued hown hopens hqueued =>
      obtain ⟨htype | htype, hsyn⟩ := opensStream_iff.mp hopens
      · exact (payloadLength_of_window htype).symm
      · have hmem := mem_queued_of_pendingExists hqueued
        rw [payloadLength_of_length_eq_zero (by simpa [htype, hsyn, hmem] using hclean)]
        rfl
  | queued hown hopens hunqueued hlength ok => exact hlength
  | buffered htype hopens hqueued hlength => rw [hlength, payloadLength_of_data htype]
  | discarded hping hgoAway hown hopens hunqueued hlength =>
      rw [hlength, payloadLength_eq_length]
      apply data_or_empty_of_plain hping hgoAway hopens
      · intro hlength
        simp only [bne_iff_ne, ne_eq, hlength, not_false_eq_true, Bool.and_eq_false_imp,
          Bool.or_eq_false_iff] at hclean
        simpa using (hclean trivial).2
      · intro hlength htype
        have hid : hdr.streamId ≠ ctx.streamId := fun hid => hown ⟨htype, hid⟩
        by_contra hsyn
        simp [hlength, htype, hid, hsyn] at hclean

theorem synFrame_takes_payload {hdr : Header} {data : Bytes} {queued : List UInt32}
    (hclean : misreads (.received .accept queued hdr) = false) (hping : hdr.type ≠ typePing)
    (hgoAway : hdr.type ≠ typeGoAway) (hopens : hdr.opensStream = false)
    (hlength : data.length = hdr.length.toNat) : data.length = hdr.payloadLength := by
  simp only [misreads] at hclean
  rw [hlength, payloadLength_eq_length]
  apply data_or_empty_of_plain hping hgoAway hopens
  · intro hlength
    by_contra hunknown
    simp [hlength, hunknown] at hclean
  · intro hlength htype
    by_contra hsyn
    simp [hlength, htype, hsyn] at hclean

theorem pingFrame_takes_payload {value : UInt32} {session : Session} {hdr : Header}
    {turn : Session ⊕ (Bool × Session)} {notes : List Note} {data : Bytes} {queued : List UInt32}
    (hclean : misreads (.received (.ping value) queued hdr) = false)
    (hframe : PingFrame value session hdr turn notes (.took data)) :
    data.length = hdr.payloadLength := by
  simp only [misreads] at hclean
  cases hframe with
  | pong htype hack hvalue => exact (payloadLength_of_control (Or.inl htype)).symm
  | stopped hcontrol =>
      cases hcontrol with
      | ping htype hack => exact (payloadLength_of_control (Or.inl htype)).symm
      | goAway htype => exact (payloadLength_of_control (Or.inr htype)).symm
  | discarded hother hcontrol hlength =>
      rw [hlength, payloadLength_eq_length]
      by_cases hzero : hdr.length = 0
      · exact Or.inr hzero
      left
      cases hcontrol with
      | pong htype hack =>
          have hvalue : hdr.length ≠ value := fun hvalue => hother ⟨htype, hack, hvalue⟩
          simp [hzero, htype, hack, hvalue] at hclean
      | ping htype hack => simp [hzero, htype, hack] at hclean
      | other hping hgoAway =>
          by_contra hdata
          by_cases hwindow : hdr.type = typeWindowUpdate
          · simp [hzero, hwindow] at hclean
          · simp [hzero, hwindow, hdata, hping, hgoAway, unknownType] at hclean

/-! ### Along a run -/

def Clean (mark : Note) : Prop := misreads mark = false

theorem Aligned.readTurn {frames : List Frame} {inbound data : Bytes} {count : Nat}
    {session : Session} {ctx : StreamContext} {turn : (Session × StreamContext) ⊕ ReadResult}
    {notes : List Note} (haligned : Aligned frames inbound)
    (hturn : ReadTurn count session ctx turn notes (.took data))
    (hclean : ∀ mark ∈ notes, Clean mark) (hfront : data <+: inbound) :
    Aligned frames (inbound.drop data.length) := by
  generalize hflow : Flow.took data = flow at hturn
  cases hturn with
  | closed hclosed => cases hflow; exact haligned
  | served hbuffered => cases hflow; exact haligned
  | headerFailed => cases hflow
  | frame hopen hread hdecode hlength hframe =>
      obtain ⟨head, payload, hhead, rfl, rfl⟩ := Flow.andThen_eq_took hflow.symm
      cases hhead
      exact haligned.frame hdecode hlength
        (readFrame_takes_payload (hclean _ List.mem_cons_self) hframe) hfront

theorem Aligned.openTurn {frames : List Frame} {inbound data : Bytes} {session : Session}
    {ctx : StreamContext} {turn : (Session × StreamContext) ⊕ OpenResult} {notes : List Note}
    (haligned : Aligned frames inbound) (hturn : OpenTurn session ctx turn notes (.took data))
    (hclean : ∀ mark ∈ notes, Clean mark) (hfront : data <+: inbound) :
    Aligned frames (inbound.drop data.length) := by
  generalize hflow : Flow.took data = flow at hturn
  cases hturn with
  | headerFailed => cases hflow
  | frame hdecode hlength hframe =>
      obtain ⟨head, payload, hhead, rfl, rfl⟩ := Flow.andThen_eq_took hflow.symm
      cases hhead
      exact haligned.frame hdecode hlength
        (openFrame_takes_payload (hclean _ List.mem_cons_self) hframe) hfront

theorem Aligned.pingTurn {frames : List Frame} {inbound data : Bytes} {value : UInt32}
    {session : Session} {turn : Session ⊕ (Bool × Session)} {notes : List Note}
    (haligned : Aligned frames inbound) (hturn : PingTurn value session turn notes (.took data))
    (hclean : ∀ mark ∈ notes, Clean mark) (hfront : data <+: inbound) :
    Aligned frames (inbound.drop data.length) := by
  generalize hflow : Flow.took data = flow at hturn
  cases hturn with
  | headerFailed => cases hflow
  | frame hdecode hlength hframe =>
      obtain ⟨head, payload, hhead, rfl, rfl⟩ := Flow.andThen_eq_took hflow.symm
      cases hhead
      exact haligned.frame hdecode hlength
        (pingFrame_takes_payload (hclean _ List.mem_cons_self) hframe) hfront

/-- Where a pass of `yamux_wait_for_syn` leaves the cursor: on a boundary, or before the payload of
the SYN it returns. -/
def AfterSyn (frames : List Frame) : Session ⊕ (Option Header × Session) → Bytes → Prop
  | .inr (some hdr, _), inbound => AtPayload frames hdr inbound
  | _, inbound => Aligned frames inbound

theorem Aligned.synTurn {frames : List Frame} {inbound data : Bytes} {session : Session}
    {turn : Session ⊕ (Option Header × Session)} {notes : List Note}
    (haligned : Aligned frames inbound) (hturn : SynTurn session turn notes (.took data))
    (hclean : ∀ mark ∈ notes, Clean mark) (hfront : data <+: inbound) :
    AfterSyn frames turn (inbound.drop data.length) := by
  generalize hflow : Flow.took data = flow at hturn
  cases hturn with
  | headerFailed => cases hflow
  | frame hdecode hlength hframe =>
      obtain ⟨head, payload, hhead, rfl, rfl⟩ := Flow.andThen_eq_took hflow.symm
      cases hhead
      have hmark := hclean _ List.mem_cons_self
      generalize hflow' : Flow.took payload = flow at hframe
      cases hframe with
      | control htype hcontrol =>
          cases hflow'
          have hempty : ([] : Bytes).length = _ := (payloadLength_of_control htype).symm
          have hnext := haligned.frame hdecode hlength hempty hfront
          rename_i ok _
          cases ok <;> exact hnext
      | opened hopens =>
          cases hflow'
          rw [List.append_nil] at hfront ⊢
          exact haligned.header hdecode hlength hfront
      | discarded hping hgoAway hopens hdata =>
          cases hflow'
          exact haligned.frame hdecode hlength
            (synFrame_takes_payload hmark hping hgoAway hopens hdata) hfront
      | failed hopens => cases hflow'

theorem Aligned.outcome {frames : List Frame} {inbound data : Bytes} {session session' : Session}
    {streams streams' : List (Option StreamContext)} {call : Call} {reply : Reply}
    {notes : List Note} (haligned : Aligned frames inbound)
    (houtcome : Outcome session streams call session' streams' reply notes (.took data))
    (hclean : ∀ mark ∈ notes, Clean mark) (hfront : data <+: inbound) :
    Aligned frames (inbound.drop data.length) := by
  have hsyn {session result notes data} (hruns : SynRuns session result notes (.took data))
      (hclean : ∀ mark ∈ notes, Clean mark) (hfront : data <+: inbound) :
      AfterSyn frames (.inr result) (inbound.drop data.length) :=
    hruns.inbound (fun result => AfterSyn frames (.inr result))
      (fun hturn hok hinv hfront => hinv.synTurn hturn hok hfront)
      (fun hturn hok hinv hfront => hinv.synTurn hturn hok hfront) rfl hclean haligned hfront
  generalize hflow : Flow.took data = flow at houtcome
  cases houtcome with
  | openRan hruns =>
      exact hruns.inbound (fun _ => Aligned frames)
        (fun hturn hok hinv hfront => hinv.openTurn hturn hok hfront)
        (fun hturn hok hinv hfront => hinv.openTurn hturn hok hfront) hflow.symm
        (fun mark hmem => hclean mark (List.mem_cons_of_mem _ hmem)) haligned hfront
  | acceptNone hruns =>
      subst hflow
      exact hsyn hruns hclean hfront
  | acceptSyn hpending hruns hlength hack =>
      obtain ⟨first, payload, rfl, hpayload, rfl⟩ := Flow.andThen_eq_took hflow.symm
      cases hpayload
      obtain ⟨hfirst, hsecond⟩ := append_prefix_split hfront
      have hat := hsyn hruns (fun mark hmem => hclean mark (List.mem_append_left _ hmem)) hfirst
      have hend := AtPayload.payload hat hlength hsecond
      rwa [List.drop_drop, ← List.length_append] at hend
  | acceptLost hruns =>
      obtain ⟨_, _, -, hbroke, -⟩ := Flow.andThen_eq_took hflow.symm
      cases hbroke
  | readRan hctx hruns =>
      exact hruns.inbound (fun _ => Aligned frames)
        (fun hturn hok hinv hfront => hinv.readTurn hturn hok hfront)
        (fun hturn hok hinv hfront => hinv.readTurn hturn hok hfront) hflow.symm hclean haligned
        hfront
  | pingRan hruns =>
      exact hruns.inbound (fun _ => Aligned frames)
        (fun hturn hok hinv hfront => hinv.pingTurn hturn hok hfront)
        (fun hturn hok hinv hfront => hinv.pingTurn hturn hok hfront) hflow.symm
        (fun mark hmem => hclean mark (List.mem_cons_of_mem _ hmem)) haligned hfront
  | _ => cases hflow; exact haligned

/-- Unless the stream failed or a header was misread, the cursor is on a boundary. -/
def OnBoundary (frames : List Frame) (node : Node) : Prop :=
  node.wire.failed = false → (∀ mark ∈ node.notes, Clean mark) → Aligned frames node.wire.inbound

theorem onBoundary_step {frames : List Frame} (node : Node) (call : Call)
    (hboundary : OnBoundary frames node) : OnBoundary frames (node.step call).1 := by
  obtain ⟨notes, flow, houtcome, hfollows, -⟩ := node.step_outcome call
  intro hfailed hclean
  rw [notes_step hfollows] at hclean
  cases flow with
  | broke data =>
      rw [hfollows.2.1] at hfailed
      cases hfailed
  | took data =>
      obtain ⟨hfront, hinbound, hsame, -⟩ := hfollows
      have haligned := hboundary (hsame ▸ hfailed)
        fun mark hmem => hclean mark (List.mem_append_left _ hmem)
      rw [hinbound]
      exact haligned.outcome houtcome (fun mark hmem => hclean mark (List.mem_append_right _ hmem))
        hfront

/-- **Frame boundaries.** In every run over whole frames in which no operation misreads a header,
the cursor is on a frame boundary after each call, unless the underlying stream failed. A raw read that
fails is taken to fail for good, so nothing is said of a stream that recovers. -/
theorem run_on_boundary (isServer : Bool) (frames : List Frame) (grants : List Nat)
    (outcomes : List WriteOutcome) (calls : List Call) (node : Node)
    (hrun : node = ((Node.start isServer (encodeFrames frames) grants outcomes).run calls).1)
    (hfailed : node.wire.failed = false) (hclean : ∀ mark ∈ node.notes, misreads mark = false) :
    ∃ rest, rest <:+ frames ∧ node.wire.inbound = encodeFrames rest := by
  have hboundary := Node.run_invariant (fun node _ => OnBoundary frames node)
    (fun node _ call => onBoundary_step node call) calls
    (Node.start isServer (encodeFrames frames) grants outcomes) []
    (fun _ _ => ⟨frames, List.suffix_rfl, rfl⟩)
  subst hrun
  exact hboundary hfailed hclean

def ackFrame1 : Frame := ⟨⟨version, typeWindowUpdate, flagAck, 1, 5⟩, [], rfl⟩
def dataFrame1 : Frame := ⟨⟨version, typeData, 0, 1, 3⟩, [7, 8, 9], rfl⟩

/-- A client opens a stream, is granted credit, and reads part of a DATA frame. -/
theorem run_on_boundary_open_read :
    let frames := [ackFrame1, dataFrame1]
    ∃ rest, rest <:+ frames ∧
      ((Node.start false (encodeFrames frames) [4] []).run [.open, .read 0 2]).1.wire.inbound =
        encodeFrames rest :=
  run_on_boundary false [ackFrame1, dataFrame1] [4] [] [.open, .read 0 2] _ rfl (by decide)
    (by decide)

def pingFrame10 : Frame := ⟨⟨version, typePing, flagSyn, 0, 10⟩, [], rfl⟩
def creditFrame9 : Frame := ⟨⟨version, typeWindowUpdate, 0, 9, 2⟩, [], rfl⟩
def pingFrame65536 : Frame := ⟨⟨version, typePing, flagSyn, 0, 65536⟩, [], rfl⟩

/-- `libp2p_yamux_session_ping` answers a ping of the peer and then skips as many bytes as the ping
value says. Here the skipped bytes end inside the third frame, where the session finds its pong. -/
theorem ping_leaves_boundary :
    let frames := [pingFrame10, creditFrame9, pingFrame65536]
    let run := (Node.start false (encodeFrames frames) [] []).run [.ping]
    run.2 = [.pinged true] ∧ run.1.wire.failed = false ∧
      ¬ ∃ rest, rest <:+ frames ∧ run.1.wire.inbound = encodeFrames rest := by
  have hinbound : ((Node.start false
      (encodeFrames [pingFrame10, creditFrame9, pingFrame65536]) [] []).run [.ping]).1.wire.inbound =
      [0, 0] := by decide
  refine ⟨by decide, by decide, ?_⟩
  rintro ⟨rest, -, hrest⟩
  rw [hinbound] at hrest
  cases rest with
  | nil => cases hrest
  | cons frame rest =>
      have hlength := congrArg List.length hrest
      rw [encodeFrames_cons, List.length_append, Header.length_encode, headerSize] at hlength
      simp at hlength
      omega

end CLibp2p.Yamux
