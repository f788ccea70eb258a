import CLibp2p.Proof.YamuxLog

/-!
# Books kept for every stream

A property of one stream and the log of the run, such as what one of its windows should be, has to
survive what the stream does itself, what the other streams do, and what the session does besides.
`Bookkeeping` asks for exactly that, block of notes by block of notes; `Bookkeeping.run` then gives
the property for every stream at the end of every run.
-/

namespace CLibp2p.Yamux

open Duplex

/-- The context a pass of a read leaves behind. -/
def contextAfterRead : (Session × StreamContext) ⊕ ReadResult → StreamContext
  | .inl (_, ctx) => ctx
  | .inr (_, _, ctx) => ctx

/-- The context a pass of an open leaves behind, if any. -/
def contextAfterOpen : (Session × StreamContext) ⊕ OpenResult → Option StreamContext
  | .inl (_, ctx) => some ctx
  | .inr (ctx, _) => ctx

@[simp] theorem contextAfterRead_control (ok : Bool) (session : Session) (ctx : StreamContext) :
    contextAfterRead (if ok then .inl (session, ctx) else .inr (none, session, ctx)) = ctx := by
  cases ok <;> rfl

@[simp] theorem contextAfterOpen_control (ok : Bool) (session : Session) (ctx : StreamContext) :
    contextAfterOpen (if ok then .inl (session, ctx) else .inr (none, session)) =
      if ok then some ctx else none := by
  cases ok <;> rfl

def Note.isPlain : Note → Bool
  | .emitted hdr => hdr.type != typeWindowUpdate || hdr.length == 0
  | .refused _ => true
  | .truncated _ => true
  | _ => false

/-- Notes that consume no header and grant no credit. -/
def Plain (notes : List Note) : Prop := ∀ mark ∈ notes, mark.isPlain = true

theorem Plain.quiet {notes : List Note} (hplain : Plain notes) : Quiet notes := by
  intro mark hmem
  have hmark := hplain mark hmem
  cases mark <;> first | rfl | cases hmark

theorem plain_nil : Plain [] := by
  intro mark hmem
  cases hmem

theorem Plain.cons {hdr : Header} {notes : List Note} (ok : Bool)
    (hnothing : hdr.type ≠ typeWindowUpdate ∨ hdr.length = 0) (hplain : Plain notes) :
    Plain (headerNote hdr ok :: notes) := by
  refine List.forall_mem_cons.mpr ⟨?_, hplain⟩
  cases ok with
  | false => rfl
  | true => simpa [headerNote, Note.isPlain] using hnothing

theorem plain_truncated (hdr : Header) : Plain [.truncated hdr] :=
  List.forall_mem_cons.mpr ⟨rfl, plain_nil⟩

theorem Control.plain {session session' : Session} {hdr : Header} {ok : Bool} {notes : List Note}
    (hcontrol : Control session hdr ok session' notes) : Plain notes := by
  cases hcontrol with
  | ping htype hack ok => exact plain_nil.cons ok (Or.inl (show typePing ≠ typeWindowUpdate by decide))
  | _ => exact plain_nil

theorem OpenFrame.plain {session : Session} {ctx : StreamContext} {hdr : Header}
    {turn : (Session × StreamContext) ⊕ OpenResult} {notes : List Note} {flow : Flow}
    (hframe : OpenFrame session ctx hdr turn notes flow) : Plain notes := by
  cases hframe with
  | control htype hcontrol => exact hcontrol.plain
  | queued hown hopens hunqueued hlength ok => exact plain_nil.cons ok (Or.inr rfl)
  | failedQueue htype hopens hunqueued ok => exact (plain_truncated hdr).cons ok (Or.inr rfl)
  | failedBuffer htype => exact plain_truncated hdr
  | _ => exact plain_nil

theorem SynFrame.plain {session : Session} {hdr : Header}
    {turn : Session ⊕ (Option Header × Session)} {notes : List Note} {flow : Flow}
    (hframe : SynFrame session hdr turn notes flow) : Plain notes := by
  cases hframe with
  | control htype hcontrol => exact hcontrol.plain
  | _ => exact plain_nil

theorem PingFrame.plain {value : UInt32} {session : Session} {hdr : Header}
    {turn : Session ⊕ (Bool × Session)} {notes : List Note} {flow : Flow}
    (hframe : PingFrame value session hdr turn notes flow) : Plain notes := by
  cases hframe with
  | pong htype hack hvalue => exact plain_nil
  | stopped hcontrol => exact hcontrol.plain
  | discarded hother hcontrol hlength => exact hcontrol.plain
  | failed hcontrol => exact hcontrol.plain

theorem Closes.plain {session : Session} {ctx : StreamContext} {notes : List Note}
    (hcloses : Closes session ctx notes) : Plain notes := by
  cases hcloses with
  | silent hclosed => exact plain_nil
  | fin ok => exact plain_nil.cons ok (Or.inl (show typeData ≠ typeWindowUpdate by decide))

theorem Acknowledges.plain {session : Session} {ctx : StreamContext}
    {result : Option StreamContext} {notes : List Note}
    (hack : Acknowledges session ctx result notes) : Plain notes := by
  cases hack with
  | acked => exact plain_nil.cons true (Or.inr rfl)
  | refused hcloses => exact hcloses.plain.cons false (Or.inr rfl)

/-! ### The blocks a log is made of -/

/-- What the stream `ctx` does: its new context, if it lives on, and the notes it leaves. -/
inductive Acts (ctx : StreamContext) : Option StreamContext → List Note → Prop where
  | read {count : Nat} {session : Session} {turn : (Session × StreamContext) ⊕ ReadResult}
      {notes : List Note} {flow : Flow} (hturn : ReadTurn count session ctx turn notes flow) :
      Acts ctx (some (contextAfterRead turn)) notes
  | open {session : Session} {turn : (Session × StreamContext) ⊕ OpenResult} {notes : List Note}
      {flow : Flow} (hturn : OpenTurn session ctx turn notes flow) :
      Acts ctx (contextAfterOpen turn) notes
  | write {ctx' : StreamContext} {notes : List Note} (hwrites : Writes ctx ctx' notes) :
      Acts ctx (some ctx') notes
  | close {notes : List Note} (hplain : Plain notes) : Acts ctx none notes

/-- What happens besides. -/
inductive Aside : List Note → Prop where
  | plain {notes : List Note} (hplain : Plain notes) : Aside notes
  | syn {session : Session} {turn : Session ⊕ (Option Header × Session)} {notes : List Note}
      {flow : Flow} (hturn : SynTurn session turn notes flow) : Aside notes
  | ping {value : UInt32} {session : Session} {turn : Session ⊕ (Bool × Session)}
      {notes : List Note} {flow : Flow} (hturn : PingTurn value session turn notes flow) :
      Aside notes

theorem Acts.identity {ctx ctx' : StreamContext} {after : Option StreamContext}
    {notes : List Note} (hacts : Acts ctx after notes) (hafter : after = some ctx') :
    ctx'.handle = ctx.handle ∧ ctx'.streamId = ctx.streamId := by
  cases hacts with
  | read hturn =>
      obtain rfl := Option.some.inj hafter
      cases hturn with
      | frame hopen hread hdecode hlength hframe =>
          cases hframe with
          | control htype hcontrol => simp
          | _ => exact ⟨rfl, rfl⟩
      | _ => exact ⟨rfl, rfl⟩
  | «open» hturn =>
      cases hturn with
      | headerFailed => cases hafter
      | frame hdecode hlength hframe =>
          cases hframe with
          | control htype hcontrol =>
              rw [contextAfterOpen_control] at hafter
              split at hafter
              · obtain rfl := Option.some.inj hafter
                exact ⟨rfl, rfl⟩
              · cases hafter
          | failedDiscard hown => cases hafter
          | _ => obtain rfl := Option.some.inj hafter; exact ⟨rfl, rfl⟩
  | write hwrites =>
      obtain rfl := Option.some.inj hafter
      cases hwrites <;> exact ⟨rfl, rfl⟩
  | close hplain => cases hafter

/-- `Held` is claimed of every stream of the session, `Free` of every handle not given out yet. -/
structure Bookkeeping (Held : StreamContext → List Note → Prop) (Free : Nat → List Note → Prop) :
    Prop where
  acts : ∀ {ctx ctx' log notes}, Held ctx log → Acts ctx (some ctx') notes →
    Held ctx' (log ++ notes)
  spares : ∀ {ctx other after log notes}, other.handle ≠ ctx.handle → Held other log →
    Acts ctx after notes → Held other (log ++ notes)
  sparesFree : ∀ {ctx handle after log notes}, handle ≠ ctx.handle → Free handle log →
    Acts ctx after notes → Free handle (log ++ notes)
  aside : ∀ {ctx log notes}, Held ctx log → Aside notes → Held ctx (log ++ notes)
  asideFree : ∀ {handle log notes}, Free handle log → Aside notes → Free handle (log ++ notes)
  start : ∀ {handle streamId synAckReceived data log}, Free handle log →
    Held (newContext handle streamId synAckReceived data) log

structure Books (Held : StreamContext → List Note → Prop) (Free : Nat → List Note → Prop)
    (streams : List (Option StreamContext)) (log : List Note) : Prop where
  handles : ∀ (handle : Nat) (ctx : StreamContext), streams[handle]? = some (some ctx) →
    ctx.handle = handle
  held : ∀ (handle : Nat) (ctx : StreamContext), streams[handle]? = some (some ctx) → Held ctx log
  free : ∀ handle : Nat, streams.length ≤ handle → Free handle log

section

variable {Held : StreamContext → List Note → Prop} {Free : Nat → List Note → Prop}
variable {streams : List (Option StreamContext)} {log notes : List Note} {flow : Flow}

theorem Books.acts (hbooks : Books Held Free streams log) (hkeeps : Bookkeeping Held Free)
    {handle : Nat} {ctx : StreamContext} {after : Option StreamContext}
    (hctx : streams[handle]? = some (some ctx)) (hacts : Acts ctx after notes) :
    Books Held Free (streams.set handle after) (log ++ notes) := by
  obtain ⟨hbound, -⟩ := List.getElem?_eq_some_iff.mp hctx
  have hhandle := hbooks.handles handle ctx hctx
  refine ⟨fun other ctx' hother => ?_, fun other ctx' hother => ?_, fun other hlength => ?_⟩
  · by_cases hsame : other = handle
    · subst hsame
      rw [List.getElem?_set_self hbound] at hother
      rw [(hacts.identity (Option.some.inj hother)).1, hhandle]
    · rw [List.getElem?_set_ne (Ne.symm hsame)] at hother
      exact hbooks.handles other ctx' hother
  · by_cases hsame : other = handle
    · subst hsame
      rw [List.getElem?_set_self hbound, Option.some.injEq] at hother
      rw [hother] at hacts
      exact hkeeps.acts (hbooks.held other ctx hctx) hacts
    · rw [List.getElem?_set_ne (Ne.symm hsame)] at hother
      refine hkeeps.spares ?_ (hbooks.held other ctx' hother) hacts
      rwa [hbooks.handles other ctx' hother, hhandle]
  · rw [List.length_set] at hlength
    exact hkeeps.sparesFree (by omega) (hbooks.free other hlength) hacts

theorem Books.aside (hbooks : Books Held Free streams log) (hkeeps : Bookkeeping Held Free)
    (haside : Aside notes) : Books Held Free streams (log ++ notes) :=
  ⟨hbooks.handles, fun handle ctx hctx => hkeeps.aside (hbooks.held handle ctx hctx) haside,
    fun handle hlength => hkeeps.asideFree (hbooks.free handle hlength) haside⟩

theorem Books.push (hbooks : Books Held Free streams log) (hkeeps : Bookkeeping Held Free)
    {after : Option StreamContext} (hnew : ∀ ctx, after = some ctx →
      ∃ streamId synAckReceived data, ctx = newContext streams.length streamId synAckReceived data) :
    Books Held Free (streams ++ [after]) log := by
  have hcases {handle : Nat} {ctx : StreamContext}
      (hctx : (streams ++ [after])[handle]? = some (some ctx)) :
      streams[handle]? = some (some ctx) ∨ handle = streams.length ∧ after = some ctx := by
    rcases Nat.lt_trichotomy handle streams.length with hless | rfl | hmore
    · rw [List.getElem?_append_left hless] at hctx
      exact Or.inl hctx
    · rw [List.getElem?_concat_length] at hctx
      exact Or.inr ⟨rfl, Option.some.inj hctx⟩
    · rw [List.getElem?_eq_none (by rw [List.length_append, List.length_singleton]; omega)] at hctx
      cases hctx
  refine ⟨fun handle ctx hctx => ?_, fun handle ctx hctx => ?_, fun handle hlength => ?_⟩
  · obtain hold | ⟨rfl, hafter⟩ := hcases hctx
    · exact hbooks.handles handle ctx hold
    · obtain ⟨streamId, synAckReceived, data, rfl⟩ := hnew ctx hafter
      rfl
  · obtain hold | ⟨rfl, hafter⟩ := hcases hctx
    · exact hbooks.held handle ctx hold
    · obtain ⟨streamId, synAckReceived, data, rfl⟩ := hnew ctx hafter
      exact hkeeps.start (hbooks.free streams.length le_rfl)
  · rw [List.length_append] at hlength
    exact hbooks.free handle (by omega)

theorem Books.pushNone (hbooks : Books Held Free streams log) (hkeeps : Bookkeeping Held Free) :
    Books Held Free (streams ++ [none]) log :=
  hbooks.push hkeeps fun _ hctx => by cases hctx

theorem Books.openTurn {session : Session} {ctx : StreamContext}
    {turn : (Session × StreamContext) ⊕ OpenResult}
    (hbooks : Books Held Free (streams ++ [some ctx]) log) (hkeeps : Bookkeeping Held Free)
    (hturn : OpenTurn session ctx turn notes flow) :
    Books Held Free (streams ++ [contextAfterOpen turn]) (log ++ notes) := by
  have hafter := hbooks.acts hkeeps List.getElem?_concat_length (Acts.open hturn)
  simpa using hafter

theorem Books.synRuns {session : Session} {result : Option Header × Session}
    (hbooks : Books Held Free streams log) (hkeeps : Bookkeeping Held Free)
    (hruns : SynRuns session result notes flow) : Books Held Free streams (log ++ notes) :=
  hruns.invariant (fun _ log _ => Books Held Free streams log)
    (fun _ log _ => Books Held Free streams log)
    (fun hbooks hturn _ => hbooks.aside hkeeps (.syn hturn))
    (fun hbooks hturn _ => hbooks.aside hkeeps (.syn hturn)) log (.took [])
    (fun hfailed => by cases hfailed) hbooks

theorem Books.pingRuns {value : UInt32} {session : Session} {result : Bool × Session}
    (hbooks : Books Held Free streams log) (hkeeps : Bookkeeping Held Free)
    (hruns : PingRuns value session result notes flow) : Books Held Free streams (log ++ notes) :=
  hruns.invariant (fun _ log _ => Books Held Free streams log)
    (fun _ log _ => Books Held Free streams log)
    (fun hbooks hturn _ => hbooks.aside hkeeps (.ping hturn))
    (fun hbooks hturn _ => hbooks.aside hkeeps (.ping hturn)) log (.took [])
    (fun hfailed => by cases hfailed) hbooks

theorem Acknowledges.context {session : Session} {ctx ctx' : StreamContext}
    {result : Option StreamContext} (hack : Acknowledges session ctx result notes)
    (hresult : result = some ctx') : ctx' = ctx := by
  cases hack with
  | acked => exact (Option.some.inj hresult).symm
  | refused hcloses => cases hresult

theorem Books.acknowledges {session : Session} {streamId : UInt32} {payload : Bytes}
    {result : Option StreamContext} (hbooks : Books Held Free streams log)
    (hkeeps : Bookkeeping Held Free)
    (hack : Acknowledges session (newContext streams.length streamId true payload) result notes) :
    Books Held Free (streams ++ [result]) (log ++ notes) :=
  (hbooks.aside hkeeps (.plain hack.plain)).push hkeeps fun _ hctx => ⟨_, _, _, hack.context hctx⟩

theorem Books.outcome {session session' : Session} {streams' : List (Option StreamContext)}
    {call : Call} {reply : Reply} (hbooks : Books Held Free streams log)
    (hkeeps : Bookkeeping Held Free)
    (houtcome : Outcome session streams call session' streams' reply notes flow) :
    Books Held Free streams' (log ++ notes) := by
  have hplain {notes : List Note} (hplain : Plain notes) : Books Held Free streams (log ++ notes) :=
    hbooks.aside hkeeps (.plain hplain)
  have hheader {hdr : Header} {ok : Bool}
      (hnothing : hdr.type ≠ typeWindowUpdate ∨ hdr.length = 0) :
      Books Held Free streams (log ++ [headerNote hdr ok]) :=
    hplain (plain_nil.cons ok hnothing)
  have hsyn (ok : Bool) :
      Books Held Free streams (log ++ [headerNote (synHeader session.nextStreamId) ok]) :=
    hheader (Or.inr rfl)
  have hping (ok : Bool) : Books Held Free streams
      (log ++ [headerNote ⟨version, typePing, 0, 0, session.pingSeq⟩ ok]) :=
    hheader (Or.inl (show typePing ≠ typeWindowUpdate by decide))
  cases houtcome with
  | openClosed hclosed => exact (hplain plain_nil).pushNone hkeeps
  | openRefused => exact (hsyn false).pushNone hkeeps
  | openRan hruns =>
      have hstart : Books Held Free
          (streams ++ [some (newContext streams.length session.nextStreamId false [])])
          (log ++ [headerNote (synHeader session.nextStreamId) true]) :=
        (hsyn true).push hkeeps fun _ hctx => ⟨_, _, _, (Option.some.inj hctx).symm⟩
      have hend := hruns.openStreams (fun _ streams log _ => Books Held Free streams log)
        (fun _ streams log _ => Books Held Free streams log)
        (fun hbooks hturn _ => hbooks.openTurn hkeeps hturn)
        (fun hbooks hturn _ => hbooks.openTurn hkeeps hturn) _ (.took [])
        (fun hfailed => by cases hfailed) hstart
      rwa [List.append_assoc] at hend
  | acceptClosed hclosed => exact (hplain plain_nil).pushNone hkeeps
  | acceptQueued hpending hack => exact hbooks.acknowledges hkeeps hack
  | acceptNone hruns => exact (hbooks.synRuns hkeeps hruns).pushNone hkeeps
  | acceptSyn hpending hruns hlength hack =>
      rw [← List.append_assoc]
      exact (hbooks.synRuns hkeeps hruns).acknowledges hkeeps hack
  | acceptLost hruns =>
      rw [← List.append_assoc]
      exact ((hbooks.synRuns hkeeps hruns).aside hkeeps (.plain (plain_truncated _))).pushNone hkeeps
  | absent => exact hplain plain_nil
  | readRan hctx hruns =>
      exact hruns.readStreams hctx (fun _ streams log _ => Books Held Free streams log)
        (fun _ _ streams log _ => Books Held Free streams log)
        (fun hbooks hctx hturn _ => hbooks.acts hkeeps hctx (.read hturn))
        (fun hbooks hctx hturn _ => hbooks.acts hkeeps hctx (.read hturn)) log (.took [])
        (fun hfailed => by cases hfailed) hbooks
  | wrote hctx hwrites => exact hbooks.acts hkeeps hctx (.write hwrites)
  | closed hctx hcloses => exact hbooks.acts hkeeps hctx (.close hcloses.plain)
  | pingClosed hclosed => exact hplain plain_nil
  | pingRefused => exact hping false
  | pingRan hruns =>
      have hend := (hping true).pingRuns hkeeps hruns
      rwa [List.append_assoc] at hend
  | goawayClosed hclosed => exact hplain plain_nil
  | goaway ok => exact hheader (Or.inl (show typeGoAway ≠ typeWindowUpdate by decide))

/-- **Books of a run.** What is claimed of every stream holds of every stream at the end of every
run. -/
theorem Bookkeeping.run (hkeeps : Bookkeeping Held Free) (hinit : ∀ handle, Free handle [])
    (isServer : Bool) (inbound : Bytes) (grants : List Nat) (outcomes : List WriteOutcome)
    (calls : List Call) (node : Node)
    (hrun : node = ((Node.start isServer inbound grants outcomes).run calls).1) (handle : Nat)
    (ctx : StreamContext) (hctx : node.context handle = some ctx) :
    ctx.handle = handle ∧ Held ctx node.notes := by
  have hempty : Books Held Free [] [] :=
    ⟨fun _ _ hctx => by simp at hctx, fun _ _ hctx => by simp at hctx, fun handle _ => hinit handle⟩
  have hbooks := Node.run_outcomes (fun _ streams _ log => Books Held Free streams log)
    (fun hbooks houtcome => hbooks.outcome hkeeps houtcome)
    isServer inbound grants outcomes calls hempty
  rw [← hrun] at hbooks
  have hstreams : node.streams[handle]? = some (some ctx) := Option.join_eq_some_iff.mp hctx
  exact ⟨hbooks.handles handle ctx hstreams, hbooks.held handle ctx hstreams⟩

end

end CLibp2p.Yamux
