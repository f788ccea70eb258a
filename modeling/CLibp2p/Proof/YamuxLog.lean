import CLibp2p.Proof.YamuxCall

/-!
# The log of a run

Most of what is said about a run is counted from its log. Apart from the header each pass consumes and
the payload of a write, a log only records headers sent and payloads cut off, and the counters of the
other modules ignore most of these. The two rules at the end carry an invariant over the state, the log and the bytes taken
through the passes of a loop and through the calls of a run.
-/

namespace CLibp2p.Yamux

open Duplex

theorem mem_queued_of_pendingExists {session : Session} {streamId : UInt32}
    (hexists : pendingExists session streamId = true) : streamId ∈ session.queued := by
  obtain ⟨pending, hmem, hid⟩ := List.any_eq_true.mp hexists
  exact List.mem_map.mpr ⟨pending, hmem, by simpa using hid⟩

theorem pendingExists_of_mem_queued {session : Session} {streamId : UInt32}
    (hmem : streamId ∈ session.queued) : pendingExists session streamId = true := by
  obtain ⟨pending, hpending, hid⟩ := List.mem_map.mp hmem
  exact List.any_eq_true.mpr ⟨pending, hpending, by simpa using hid⟩

def Note.isHeader : Note → Bool
  | .emitted _ => true
  | .refused _ => true
  | .truncated _ => true
  | _ => false

/-- Notes of headers sent or refused and of payloads cut off, and of nothing else. -/
def Quiet (notes : List Note) : Prop := ∀ mark ∈ notes, mark.isHeader = true

@[simp] theorem isHeader_headerNote (hdr : Header) (ok : Bool) :
    (headerNote hdr ok).isHeader = true := by
  cases ok <;> rfl

@[simp] theorem isHeader_emitted (hdr : Header) : (Note.emitted hdr).isHeader = true := rfl

@[simp] theorem isHeader_refused (hdr : Header) : (Note.refused hdr).isHeader = true := rfl

@[simp] theorem isHeader_truncated (hdr : Header) : (Note.truncated hdr).isHeader = true := rfl

@[simp] theorem quiet_nil : Quiet [] := by
  intro mark hmem
  cases hmem

@[simp] theorem quiet_cons {mark : Note} {notes : List Note} :
    Quiet (mark :: notes) ↔ mark.isHeader = true ∧ Quiet notes :=
  List.forall_mem_cons

theorem Control.quiet {session session' : Session} {hdr : Header} {ok : Bool} {notes : List Note}
    (hcontrol : Control session hdr ok session' notes) : Quiet notes := by
  cases hcontrol <;> simp

theorem Replenish.quiet {ctx : StreamContext} {length window : UInt32} {notes : List Note}
    (hreplenish : Replenish ctx length window notes) : Quiet notes := by
  cases hreplenish <;> simp

theorem ReadFrame.quiet {count : Nat} {session : Session} {ctx : StreamContext} {hdr : Header}
    {turn : (Session × StreamContext) ⊕ ReadResult} {notes : List Note} {flow : Flow}
    (hframe : ReadFrame count session ctx hdr turn notes flow) : Quiet notes := by
  cases hframe with
  | control htype hcontrol => exact hcontrol.quiet
  | delivered htype hid hfull hlength hreplenish => exact hreplenish.quiet
  | _ => simp

theorem OpenFrame.quiet {session : Session} {ctx : StreamContext} {hdr : Header}
    {turn : (Session × StreamContext) ⊕ OpenResult} {notes : List Note} {flow : Flow}
    (hframe : OpenFrame session ctx hdr turn notes flow) : Quiet notes := by
  cases hframe with
  | control htype hcontrol => exact hcontrol.quiet
  | _ => simp

theorem SynFrame.quiet {session : Session} {hdr : Header}
    {turn : Session ⊕ (Option Header × Session)} {notes : List Note} {flow : Flow}
    (hframe : SynFrame session hdr turn notes flow) : Quiet notes := by
  cases hframe with
  | control htype hcontrol => exact hcontrol.quiet
  | _ => simp

theorem PingFrame.quiet {value : UInt32} {session : Session} {hdr : Header}
    {turn : Session ⊕ (Bool × Session)} {notes : List Note} {flow : Flow}
    (hframe : PingFrame value session hdr turn notes flow) : Quiet notes := by
  cases hframe with
  | pong htype hack hvalue => simp
  | stopped hcontrol => exact hcontrol.quiet
  | discarded hother hcontrol hlength => exact hcontrol.quiet
  | failed hcontrol => exact hcontrol.quiet

theorem Closes.quiet {session : Session} {ctx : StreamContext} {notes : List Note}
    (hcloses : Closes session ctx notes) : Quiet notes := by
  cases hcloses <;> simp

theorem Acknowledges.quiet {session : Session} {ctx : StreamContext}
    {result : Option StreamContext} {notes : List Note}
    (hack : Acknowledges session ctx result notes) : Quiet notes := by
  cases hack with
  | acked => simp
  | refused hcloses => simp [hcloses.quiet]

/-! ### Counting -/

def tally (count : Note → Nat) (notes : List Note) : Nat := (notes.map count).sum

@[simp] theorem tally_nil (count : Note → Nat) : tally count [] = 0 := rfl

@[simp] theorem tally_cons (count : Note → Nat) (mark : Note) (notes : List Note) :
    tally count (mark :: notes) = count mark + tally count notes := by
  simp [tally]

@[simp] theorem tally_append (count : Note → Nat) (notes notes' : List Note) :
    tally count (notes ++ notes') = tally count notes + tally count notes' := by
  simp [tally]

theorem tally_eq_zero {count : Note → Nat} {notes : List Note}
    (hzero : ∀ mark ∈ notes, count mark = 0) : tally count notes = 0 := by
  induction notes with
  | nil => rfl
  | cons mark notes ih =>
      rw [tally_cons, hzero mark List.mem_cons_self,
        ih fun mark hmem => hzero mark (List.mem_cons_of_mem _ hmem)]

theorem Quiet.tally_eq_zero {count : Note → Nat} {notes : List Note} (hquiet : Quiet notes)
    (hheader : ∀ mark, mark.isHeader = true → count mark = 0) : tally count notes = 0 :=
  Yamux.tally_eq_zero fun mark hmem => hheader mark (hquiet mark hmem)

/-! ### Invariants along the passes of a loop and the calls of a run -/

theorem Flow.andThen_assoc (first second third : Flow) :
    (first.andThen second).andThen third = first.andThen (second.andThen third) := by
  cases first with
  | broke a => rfl
  | took a =>
      cases second with
      | broke b => rfl
      | took b =>
          cases third with
          | broke c => exact congrArg Flow.broke (List.append_assoc a b c)
          | took c => exact congrArg Flow.took (List.append_assoc a b c)

theorem andThen_took_nil (flow : Flow) : flow.andThen (.took []) = flow := by
  cases flow with
  | broke data => rfl
  | took data => exact congrArg Flow.took (List.append_nil data)

theorem Flow.failed_andThen (first second : Flow) :
    (first.andThen second).failed = (first.failed || second.failed) := by
  cases first <;> cases second <;> rfl

theorem Flow.data_isPrefix_andThen (first second : Flow) :
    first.data <+: (first.andThen second).data := by
  cases first with
  | broke a => exact List.prefix_rfl
  | took a => cases second <;> exact List.prefix_append _ _

/-- What each pass keeps, with the log and the bytes taken so far, and what the last pass
establishes. Once the stream failed no pass consumes a header. -/
theorem Runs.invariant {τ ρ : Type} {Turn : τ → τ ⊕ ρ → List Note → Flow → Prop}
    {state : τ} {result : ρ} {notes : List Note} {flow : Flow}
    (hruns : Runs Turn state result notes flow)
    (Inv : τ → List Note → Flow → Prop) (Post : ρ → List Note → Flow → Prop)
    (hnext : ∀ {state state' log past notes flow}, Inv state log past →
      Turn state (.inl state') notes flow → (past.failed = true → Deaf notes) →
      Inv state' (log ++ notes) (past.andThen flow))
    (hlast : ∀ {state result log past notes flow}, Inv state log past →
      Turn state (.inr result) notes flow → (past.failed = true → Deaf notes) →
      Post result (log ++ notes) (past.andThen flow)) :
    ∀ (log : List Note) (past : Flow), (past.failed = true → Deaf notes) → Inv state log past →
      Post result (log ++ notes) (past.andThen flow) := by
  induction hruns with
  | last hturn =>
      intro log past hdeaf hinv
      exact hlast hinv hturn hdeaf
  | next hturn hafter hrest ih =>
      intro log past hdeaf hinv
      have hfirst := fun hfailed => (deaf_append.mp (hdeaf hfailed)).1
      have hend := ih _ _ (fun hfailed => ?_) (hnext hinv hturn hfirst)
      · rwa [List.append_assoc, Flow.andThen_assoc] at hend
      · rw [Flow.failed_andThen, Bool.or_eq_true] at hfailed
        rcases hfailed with hfailed | hfailed
        · exact (deaf_append.mp (hdeaf hfailed)).2
        · exact hafter hfailed

theorem set_self_of_getElem? {α : Type} {l : List α} {i : Nat} {a : α} (hget : l[i]? = some a) :
    l.set i a = l := by
  obtain ⟨hbound, rfl⟩ := List.getElem?_eq_some_iff.mp hget
  exact List.set_getElem_self hbound

/-- Along a read, the streams of the session are those before it with the current context of the
stream that reads. -/
theorem Runs.readStreams {count handle : Nat} {session session' : Session}
    {streams : List (Option StreamContext)} {ctx ctx' : StreamContext} {ret : Option Bytes}
    {notes : List Note} {flow : Flow}
    (hruns : ReadRuns count (session, ctx) (ret, session', ctx') notes flow)
    (hctx : streams[handle]? = some (some ctx))
    (Inv : Session → List (Option StreamContext) → List Note → Flow → Prop)
    (Post : Option Bytes → Session → List (Option StreamContext) → List Note → Flow → Prop)
    (hnext : ∀ {session streams log past ctx session' ctx' notes flow},
      Inv session streams log past → streams[handle]? = some (some ctx) →
      ReadTurn count session ctx (.inl (session', ctx')) notes flow →
      (past.failed = true → Deaf notes) →
      Inv session' (streams.set handle (some ctx')) (log ++ notes) (past.andThen flow))
    (hlast : ∀ {session streams log past ctx ret session' ctx' notes flow},
      Inv session streams log past → streams[handle]? = some (some ctx) →
      ReadTurn count session ctx (.inr (ret, session', ctx')) notes flow →
      (past.failed = true → Deaf notes) →
      Post ret session' (streams.set handle (some ctx')) (log ++ notes) (past.andThen flow))
    (log : List Note) (past : Flow) (hdeaf : past.failed = true → Deaf notes)
    (hinv : Inv session streams log past) :
    Post ret session' (streams.set handle (some ctx')) (log ++ notes) (past.andThen flow) := by
  obtain ⟨hbound, -⟩ := List.getElem?_eq_some_iff.mp hctx
  have hself (current : StreamContext) :
      (streams.set handle (some current))[handle]? = some (some current) :=
    List.getElem?_set_self hbound
  refine hruns.invariant (fun state => Inv state.1 (streams.set handle (some state.2)))
    (fun result => Post result.1 result.2.1 (streams.set handle (some result.2.2)))
    (fun hinv hturn hdeaf => ?_) (fun hinv hturn hdeaf => ?_) log past hdeaf ?_
  · have hafter := hnext hinv (hself _) hturn hdeaf
    rwa [List.set_set] at hafter
  · have hafter := hlast hinv (hself _) hturn hdeaf
    rwa [List.set_set] at hafter
  · rwa [set_self_of_getElem? hctx]

theorem Runs.openStreams {session session' : Session} {streams : List (Option StreamContext)}
    {ctx : StreamContext} {ctx' : Option StreamContext} {notes : List Note} {flow : Flow}
    (hruns : OpenRuns (session, ctx) (ctx', session') notes flow)
    (Inv Post : Session → List (Option StreamContext) → List Note → Flow → Prop)
    (hnext : ∀ {session ctx log past session' ctx' notes flow},
      Inv session (streams ++ [some ctx]) log past →
      OpenTurn session ctx (.inl (session', ctx')) notes flow →
      (past.failed = true → Deaf notes) →
      Inv session' (streams ++ [some ctx']) (log ++ notes) (past.andThen flow))
    (hlast : ∀ {session ctx log past session' ctx' notes flow},
      Inv session (streams ++ [some ctx]) log past →
      OpenTurn session ctx (.inr (ctx', session')) notes flow →
      (past.failed = true → Deaf notes) →
      Post session' (streams ++ [ctx']) (log ++ notes) (past.andThen flow))
    (log : List Note) (past : Flow) (hdeaf : past.failed = true → Deaf notes)
    (hinv : Inv session (streams ++ [some ctx]) log past) :
    Post session' (streams ++ [ctx']) (log ++ notes) (past.andThen flow) :=
  hruns.invariant (fun state => Inv state.1 (streams ++ [some state.2]))
    (fun result => Post result.2 (streams ++ [result.1])) hnext hlast log past hdeaf hinv

theorem notes_step {node node' : Node} {notes : List Note} {flow : Flow}
    (hfollows : Follows node.wire notes flow node'.wire) : node'.notes = node.notes ++ notes := by
  rw [Node.notes, hfollows.asked, List.map_append, List.map_map]
  simp [Node.notes, Function.comp_def]

/-- **Invariants of a run.** What every call keeps holds of the state, the replies, the log and the
bytes taken at the end of every run of a new session. A condition that every state of the run meets
may be used on the way. -/
theorem Node.run_outcomes_while (Ok : Node → Prop)
    (Inv : Session → List (Option StreamContext) → List Reply → List Note → Flow → Prop)
    (isServer : Bool) (inbound : Bytes) (grants : List Nat) (outcomes : List WriteOutcome)
    (hstep : ∀ {node node' : Node} {replies past call reply notes flow}, Ok node → Ok node' →
      Inv node.session node.streams replies node.notes past →
      Outcome node.session node.streams call node'.session node'.streams reply notes flow →
      node'.notes = node.notes ++ notes → (past.andThen flow).data <+: inbound →
      (past.failed = true → Deaf notes) →
      Inv node'.session node'.streams (replies ++ [reply]) node'.notes (past.andThen flow))
    (calls : List Call)
    (hok : ∀ part ∈ calls.inits, Ok ((Node.start isServer inbound grants outcomes).run part).1)
    (hinit : Inv (sessionNew isServer) [] [] [] (.took [])) :
    ∃ past, Inv ((Node.start isServer inbound grants outcomes).run calls).1.session
        ((Node.start isServer inbound grants outcomes).run calls).1.streams
        ((Node.start isServer inbound grants outcomes).run calls).2
        ((Node.start isServer inbound grants outcomes).run calls).1.notes past := by
  have hcall : ∀ node replies call, Ok node → Ok (node.step call).1 →
      (∃ past, Inv node.session node.streams replies node.notes past ∧
        Follows (Node.start isServer inbound grants outcomes).wire node.notes past node.wire) →
      ∃ past, Inv (node.step call).1.session (node.step call).1.streams
          (replies ++ [(node.step call).2]) (node.step call).1.notes past ∧
        Follows (Node.start isServer inbound grants outcomes).wire (node.step call).1.notes past
          (node.step call).1.wire := by
    rintro node replies call hnode hnode' ⟨past, hinv, hpast⟩
    obtain ⟨notes, flow, houtcome, hfollows, hdeaf⟩ := node.step_outcome call
    have hboth : Follows (Node.start isServer inbound grants outcomes).wire (node.notes ++ notes)
        (past.andThen flow) (node.step call).1.wire := by
      refine hpast.trans hfollows fun hfailed => ?_
      rw [hfollows.failed, hfailed, Bool.true_or]
    have hnotes := notes_step hfollows
    refine ⟨past.andThen flow, hstep hnode hnode' hinv houtcome hnotes hboth.data fun hfailed => ?_,
      hnotes ▸ hboth⟩
    apply hdeaf
    rw [hpast.failed, hfailed, Bool.or_true]
  obtain ⟨past, hinv, -⟩ := Node.run_invariant_while Ok _ hcall calls _ [] hok
    ⟨.took [], hinit, Follows.refl _⟩
  exact ⟨past, hinv⟩

theorem Node.run_outcomes
    (Inv : Session → List (Option StreamContext) → List Reply → List Note → Prop)
    (hstep : ∀ {session streams replies log call session' streams' reply notes flow},
      Inv session streams replies log →
      Outcome session streams call session' streams' reply notes flow →
      Inv session' streams' (replies ++ [reply]) (log ++ notes))
    (isServer : Bool) (inbound : Bytes) (grants : List Nat) (outcomes : List WriteOutcome)
    (calls : List Call) (hinit : Inv (sessionNew isServer) [] [] []) :
    Inv ((Node.start isServer inbound grants outcomes).run calls).1.session
      ((Node.start isServer inbound grants outcomes).run calls).1.streams
      ((Node.start isServer inbound grants outcomes).run calls).2
      ((Node.start isServer inbound grants outcomes).run calls).1.notes := by
  obtain ⟨-, hinv⟩ := Node.run_outcomes_while (fun _ => True)
    (fun session streams replies log _ => Inv session streams replies log) isServer inbound grants
    outcomes (fun _ _ hinv houtcome hnotes _ _ => hnotes ▸ hstep hinv houtcome) calls
    (fun _ _ => trivial) hinit
  exact hinv

end CLibp2p.Yamux
