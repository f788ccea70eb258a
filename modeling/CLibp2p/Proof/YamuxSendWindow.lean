import CLibp2p.Proof.YamuxStreams

/-!
# The send window

`send_window` is a 32-bit counter that grows with the deltas of the peer and shrinks when a DATA
frame went out. Counted in natural numbers from the log of the run, it is the initial window plus the
deltas received minus the bytes announced, provided that the balance stays below `2^32`, that no
payload is cut short after its header was announced, and that no other stream swallows a delta.
-/

namespace CLibp2p.Yamux

open Duplex

/-- The delta a note records for the stream `streamId` with this handle: a WINDOW_UPDATE for it,
consumed by a read or an open of this stream or of a stream with another id. -/
def deltaFor (handle : Nat) (streamId : UInt32) : Note → Nat
  | .received (.read self id) _ hdr =>
      if (self = handle ∨ id ≠ streamId) ∧ hdr.version = version ∧ hdr.type = typeWindowUpdate ∧
        hdr.streamId = streamId then hdr.length.toNat else 0
  | .received (.open self id) _ hdr =>
      if (self = handle ∨ id ≠ streamId) ∧ hdr.type = typeWindowUpdate ∧ hdr.streamId = streamId
      then hdr.length.toNat else 0
  | _ => 0

/-- The length of the DATA header a note records for the stream with this handle. -/
def announcedBy (handle : Nat) : Note → Nat
  | .announced self length => if self = handle then length.toNat else 0
  | _ => 0

def granted (handle : Nat) (streamId : UInt32) (notes : List Note) : Nat :=
  tally (deltaFor handle streamId) notes

def announced (handle : Nat) (notes : List Note) : Nat := tally (announcedBy handle) notes

/-- Of this stream, a payload whose header went out was not taken in full. -/
def cutShort (handle : Nat) : Note → Bool
  | .payload self length ret => self == handle && ret != length.toNat
  | _ => false

/-- A delta for this stream that the read or open of another stream consumed. -/
def overlooked (handle : Nat) (streamId : UInt32) : Note → Bool
  | .received (.read self id) queued hdr =>
      self != handle && deltaFor handle streamId (.received (.read self id) queued hdr) != 0
  | .received (.open self id) queued hdr =>
      self != handle && deltaFor handle streamId (.received (.open self id) queued hdr) != 0
  | _ => false

structure Measured (handle : Nat) (streamId : UInt32) (notes : List Note) : Prop where
  complete : ∀ mark ∈ notes, cutShort handle mark = false
  noticed : ∀ mark ∈ notes, overlooked handle streamId mark = false
  bounded : ∀ part ∈ notes.inits,
    initialWindowSize.toNat + granted handle streamId part < 2 ^ 32 + announced handle part

theorem Measured.before {handle : Nat} {streamId : UInt32} {notes notes' : List Note}
    (hmeasured : Measured handle streamId (notes ++ notes')) : Measured handle streamId notes := by
  refine ⟨fun mark hmem => hmeasured.complete mark (List.mem_append_left _ hmem),
    fun mark hmem => hmeasured.noticed mark (List.mem_append_left _ hmem), fun part hpart => ?_⟩
  apply hmeasured.bounded
  rw [List.mem_inits] at hpart ⊢
  exact hpart.trans (List.prefix_append _ _)

@[simp] theorem granted_append (handle : Nat) (streamId : UInt32) (notes notes' : List Note) :
    granted handle streamId (notes ++ notes') =
      granted handle streamId notes + granted handle streamId notes' := tally_append _ _ _

@[simp] theorem announced_append (handle : Nat) (notes notes' : List Note) :
    announced handle (notes ++ notes') = announced handle notes + announced handle notes' :=
  tally_append _ _ _

theorem Quiet.announced {notes : List Note} (hquiet : Quiet notes) (handle : Nat) :
    announced handle notes = 0 := by
  apply hquiet.tally_eq_zero
  intro mark hheader
  cases mark <;> first | rfl | cases hheader

theorem Quiet.granted {notes : List Note} (hquiet : Quiet notes) (handle : Nat)
    (streamId : UInt32) : granted handle streamId notes = 0 := by
  apply hquiet.tally_eq_zero
  intro mark hheader
  cases mark <;> first | rfl | cases hheader

/-! ### What a call does to one window and to the others -/

/-- The notes announce nothing and grant nothing to any stream but the one with this handle. -/
def Spares (handle : Nat) (notes : List Note) : Prop :=
  ∀ other ≠ handle, announced other notes = 0 ∧ ∀ streamId,
    (∀ mark ∈ notes, overlooked other streamId mark = false) → granted other streamId notes = 0

/-- The window moves by what the notes grant and announce. -/
def Moves (ctx ctx' : StreamContext) (notes : List Note) : Prop :=
  (∀ mark ∈ notes, cutShort ctx.handle mark = false) →
    ctx.sendWindow.toNat + granted ctx.handle ctx.streamId notes <
      2 ^ 32 + announced ctx.handle notes →
    ctx'.sendWindow.toNat + announced ctx.handle notes =
      ctx.sendWindow.toNat + granted ctx.handle ctx.streamId notes

theorem granted_received {self other : Nat} {id streamId : UInt32} {op : Operation}
    {queued : List UInt32} {hdr : Header} {notes : List Note}
    (hop : op = .read self id ∨ op = .open self id) (hother : other ≠ self) (hquiet : Quiet notes)
    (hnoticed : overlooked other streamId (.received op queued hdr) = false) :
    granted other streamId (.received op queued hdr :: notes) = 0 := by
  have hself : (self != other) = true := by simpa using hother.symm
  have hdelta : deltaFor other streamId (.received op queued hdr) = 0 := by
    rcases hop with rfl | rfl <;> simpa [overlooked, hself] using hnoticed
  have hrest := hquiet.granted other streamId
  unfold granted at hrest ⊢
  rw [tally_cons, hdelta, hrest]

theorem spares_received {self : Nat} {id : UInt32} {op : Operation} {queued : List UInt32}
    {hdr : Header} {notes : List Note} (hop : op = .read self id ∨ op = .open self id)
    (hquiet : Quiet notes) : Spares self (.received op queued hdr :: notes) := by
  intro other hother
  refine ⟨?_, fun streamId hnoticed => ?_⟩
  · have hrest := hquiet.announced other
    unfold announced at hrest ⊢
    rw [tally_cons, hrest]
    rfl
  · exact granted_received hop hother hquiet (hnoticed _ List.mem_cons_self)

theorem moves_received {ctx ctx' : StreamContext} (delta : UInt32) {op : Operation}
    {queued : List UInt32} {hdr : Header} {notes : List Note} (hquiet : Quiet notes)
    (hwindow : ctx'.sendWindow = ctx.sendWindow + delta)
    (hdelta : deltaFor ctx.handle ctx.streamId (.received op queued hdr) = delta.toNat) :
    Moves ctx ctx' (.received op queued hdr :: notes) := by
  have hannounced : announced ctx.handle (.received op queued hdr :: notes) = 0 := by
    have hrest := hquiet.announced ctx.handle
    unfold announced at hrest ⊢
    rw [tally_cons, hrest]
    rfl
  have hgranted :
      granted ctx.handle ctx.streamId (.received op queued hdr :: notes) = delta.toNat := by
    have hrest := hquiet.granted ctx.handle ctx.streamId
    unfold granted at hrest ⊢
    rw [tally_cons, hdelta, hrest, Nat.add_zero]
  intro _ hbound
  rw [hannounced, hgranted] at hbound ⊢
  rw [hwindow, UInt32.toNat_add, Nat.mod_eq_of_lt (by omega), Nat.add_zero]

theorem moves_readFrame {count : Nat} {session : Session} {ctx : StreamContext} {hdr : Header}
    {turn : (Session × StreamContext) ⊕ ReadResult} {notes : List Note} {flow : Flow}
    (hframe : ReadFrame count session ctx hdr turn notes flow) :
    Moves ctx (contextAfterRead turn)
      (.received (.read ctx.handle ctx.streamId) session.queued hdr :: notes) := by
  have hquiet := hframe.quiet
  -- every pass but one leaves the window as it is
  have hsame {ctx' : StreamContext} (hwindow : ctx'.sendWindow = ctx.sendWindow)
      (hother : hdr.version ≠ version ∨ hdr.type ≠ typeWindowUpdate ∨ hdr.streamId ≠ ctx.streamId) :
      Moves ctx ctx' (.received (.read ctx.handle ctx.streamId) session.queued hdr :: notes) := by
    refine moves_received 0 hquiet (by simp [hwindow]) ?_
    rcases hother with hother | hother | hother <;> simp [deltaFor, hother]
  cases hframe with
  | badVersion hversion => exact hsame rfl (Or.inl hversion)
  | control htype hcontrol =>
      rw [contextAfterRead_control]
      exact hsame rfl (Or.inr (Or.inl (Header.ne_window_of_control htype)))
  | credit hversion htype hid =>
      refine moves_received hdr.length hquiet rfl ?_
      simp [deltaFor, hversion, htype, hid]
  | foreignCredit htype hid => exact hsame rfl (Or.inr (Or.inr hid))
  | unknown hversion hping hgoAway hwindow hnotData hlength =>
      exact hsame rfl (Or.inr (Or.inl hwindow))
  | failedDiscard htype hother => exact hsame rfl (Or.inr (Or.inl htype))
  | _ => exact hsame rfl (Or.inr (Or.inl (Header.ne_window_of_data ‹_›)))

theorem moves_openFrame {session : Session} {ctx ctx' : StreamContext} {hdr : Header}
    {turn : (Session × StreamContext) ⊕ OpenResult} {notes : List Note} {flow : Flow}
    (hframe : OpenFrame session ctx hdr turn notes flow) (hctx : contextAfterOpen turn = some ctx') :
    Moves ctx ctx' (.received (.open ctx.handle ctx.streamId) session.queued hdr :: notes) := by
  have hquiet := hframe.quiet
  have hsame (hkept : some ctx = some ctx')
      (hother : ¬(hdr.type = typeWindowUpdate ∧ hdr.streamId = ctx.streamId)) :
      Moves ctx ctx' (.received (.open ctx.handle ctx.streamId) session.queued hdr :: notes) := by
    obtain rfl := Option.some.inj hkept
    refine moves_received 0 hquiet (by simp) ?_
    simp [deltaFor, hother]
  have hdata (htype : hdr.type = typeData) :
      ¬(hdr.type = typeWindowUpdate ∧ hdr.streamId = ctx.streamId) :=
    fun hwindow => Header.ne_window_of_data htype hwindow.1
  cases hframe with
  | control htype hcontrol =>
      rw [contextAfterOpen_control] at hctx
      split at hctx
      · exact hsame hctx fun hwindow => Header.ne_window_of_control htype hwindow.1
      · cases hctx
  | acked htype hid =>
      obtain rfl := Option.some.inj hctx
      refine moves_received hdr.length hquiet rfl ?_
      simp [deltaFor, htype, hid]
  | credit htype hid =>
      obtain rfl := Option.some.inj hctx
      refine moves_received hdr.length hquiet rfl ?_
      simp [deltaFor, htype, hid]
  | requeued hown hopens hqueued => exact hsame hctx hown
  | queued hown hopens hunqueued hlength ok => exact hsame hctx hown
  | buffered htype hopens hqueued hlength => exact hsame hctx (hdata htype)
  | discarded hping hgoAway hown hopens hunqueued hlength => exact hsame hctx hown
  | failedQueue htype hopens hunqueued ok => exact hsame hctx (hdata htype)
  | failedBuffer htype => exact hsame hctx (hdata htype)
  | failedDiscard hown => cases hctx

theorem moves_writes {ctx ctx' : StreamContext} {notes : List Note}
    (hwrites : Writes ctx ctx' notes) : Moves ctx ctx' notes := by
  cases hwrites with
  | nothing => exact fun _ _ => rfl
  | refused length => exact fun _ _ => rfl
  | sent hwindow =>
      rename_i length
      intro _ _
      have hle : length.toNat ≤ ctx.sendWindow.toNat := UInt32.le_iff_toNat_le.mp hwindow
      have hsub : (ctx.sendWindow - length).toNat = ctx.sendWindow.toNat - length.toNat :=
        UInt32.toNat_sub_of_le _ _ hwindow
      simp [announced, announcedBy, granted, deltaFor, hsub]
      omega
  | short hret =>
      intro hcomplete _
      have hlast := hcomplete _ (List.mem_cons_of_mem _ (List.mem_cons_of_mem _ List.mem_cons_self))
      simp [cutShort, hret] at hlast

theorem spares_writes {ctx ctx' : StreamContext} {notes : List Note}
    (hwrites : Writes ctx ctx' notes) : Spares ctx.handle notes := by
  intro other hother
  cases hwrites with
  | nothing => exact ⟨rfl, fun _ _ => rfl⟩
  | refused length => exact ⟨rfl, fun _ _ => rfl⟩
  | sent hwindow => exact ⟨by simp [announced, announcedBy, hother.symm], fun _ _ => rfl⟩
  | short hret => exact ⟨by simp [announced, announcedBy, hother.symm], fun _ _ => rfl⟩

theorem Quiet.spares {notes : List Note} (hquiet : Quiet notes) (handle : Nat) :
    Spares handle notes :=
  fun other _ => ⟨hquiet.announced other, fun streamId _ => hquiet.granted other streamId⟩

theorem spares_elsewhere {op : Operation} {queued : List UInt32} {hdr : Header} {notes : List Note}
    (hop : op = .accept ∨ ∃ value, op = .ping value) (hquiet : Quiet notes) (handle : Nat) :
    Spares handle (.received op queued hdr :: notes) := by
  intro other _
  have hannounced := hquiet.announced other
  unfold announced at hannounced
  refine ⟨by rw [announced, tally_cons, hannounced]; rfl, fun streamId _ => ?_⟩
  have hgranted := hquiet.granted other streamId
  unfold granted at hgranted
  rw [granted, tally_cons, hgranted]
  rcases hop with rfl | ⟨value, rfl⟩ <;> rfl

theorem Acts.moves {ctx ctx' : StreamContext} {after : Option StreamContext} {notes : List Note}
    (hacts : Acts ctx after notes) (hafter : after = some ctx') :
    Moves ctx ctx' notes := by
  cases hacts with
  | read hturn =>
      obtain rfl := Option.some.inj hafter
      cases hturn with
      | frame hopen hread hdecode hlength hframe => exact moves_readFrame hframe
      | _ => exact fun _ _ => rfl
  | «open» hturn =>
      cases hturn with
      | headerFailed => cases hafter
      | frame hdecode hlength hframe => exact moves_openFrame hframe hafter
  | write hwrites =>
      obtain rfl := Option.some.inj hafter
      exact moves_writes hwrites
  | close hplain => cases hafter

theorem Acts.spares {ctx : StreamContext} {after : Option StreamContext} {notes : List Note}
    (hacts : Acts ctx after notes) : Spares ctx.handle notes := by
  cases hacts with
  | read hturn =>
      cases hturn with
      | frame hopen hread hdecode hlength hframe => exact spares_received (Or.inl rfl) hframe.quiet
      | _ => exact quiet_nil.spares _
  | «open» hturn =>
      cases hturn with
      | headerFailed => exact quiet_nil.spares _
      | frame hdecode hlength hframe => exact spares_received (Or.inr rfl) hframe.quiet
  | write hwrites => exact spares_writes hwrites
  | close hplain => exact hplain.quiet.spares _

theorem Aside.spares {notes : List Note} (haside : Aside notes) (handle : Nat) :
    Spares handle notes := by
  cases haside with
  | plain hplain => exact hplain.quiet.spares handle
  | syn hturn =>
      cases hturn with
      | headerFailed => exact quiet_nil.spares handle
      | frame hdecode hlength hframe => exact spares_elsewhere (Or.inl rfl) hframe.quiet handle
  | ping hturn =>
      cases hturn with
      | headerFailed => exact quiet_nil.spares handle
      | frame hdecode hlength hframe => exact spares_elsewhere (Or.inr ⟨_, rfl⟩) hframe.quiet handle

/-! ### The balance of every stream -/

def Balanced (ctx : StreamContext) (log : List Note) : Prop :=
  Measured ctx.handle ctx.streamId log →
    ctx.sendWindow.toNat + announced ctx.handle log =
      initialWindowSize.toNat + granted ctx.handle ctx.streamId log

def Untouched (handle : Nat) (log : List Note) : Prop :=
  announced handle log = 0 ∧
    ∀ streamId, Measured handle streamId log → granted handle streamId log = 0

theorem Spares.balanced {handle : Nat} {ctx : StreamContext} {log notes : List Note}
    (hspares : Spares handle notes) (hother : ctx.handle ≠ handle) (hbefore : Balanced ctx log) :
    Balanced ctx (log ++ notes) := by
  intro hmeasured
  obtain ⟨hannounced, hgranted⟩ := hspares ctx.handle hother
  rw [announced_append, granted_append, hannounced, hgranted ctx.streamId fun mark hmem =>
    hmeasured.noticed mark (List.mem_append_right _ hmem)]
  exact hbefore hmeasured.before

theorem Spares.untouched {handle other : Nat} {log notes : List Note}
    (hspares : Spares handle notes) (hother : other ≠ handle) (hbefore : Untouched other log) :
    Untouched other (log ++ notes) := by
  obtain ⟨hannounced, hgranted⟩ := hspares other hother
  refine ⟨by rw [announced_append, hannounced, hbefore.1], fun streamId hmeasured => ?_⟩
  rw [granted_append, hbefore.2 streamId hmeasured.before, hgranted streamId fun mark hmem =>
    hmeasured.noticed mark (List.mem_append_right _ hmem)]

theorem Moves.balanced {ctx ctx' : StreamContext} {log notes : List Note}
    (hmoves : Moves ctx ctx' notes) (hhandle : ctx'.handle = ctx.handle)
    (hid : ctx'.streamId = ctx.streamId) (hbefore : Balanced ctx log) :
    Balanced ctx' (log ++ notes) := by
  intro hmeasured
  rw [hhandle, hid] at hmeasured ⊢
  have hbalance := hbefore hmeasured.before
  have hend := hmeasured.bounded (log ++ notes) (by rw [List.mem_inits])
  rw [announced_append, granted_append] at hend ⊢
  have hwindow := hmoves
    (fun mark hmem => hmeasured.complete mark (List.mem_append_right _ hmem)) (by omega)
  omega

theorem sendWindow_bookkeeping : Bookkeeping Balanced Untouched where
  acts hbefore hacts :=
    (hacts.moves rfl).balanced (hacts.identity rfl).1 (hacts.identity rfl).2 hbefore
  spares hother hbefore hacts := hacts.spares.balanced hother hbefore
  sparesFree hother hbefore hacts := hacts.spares.untouched hother hbefore
  aside {ctx _ _} hbefore haside :=
    (haside.spares (ctx.handle + 1)).balanced (by omega) hbefore
  asideFree {handle _ _} hbefore haside :=
    (haside.spares (handle + 1)).untouched (by omega) hbefore
  start {_ streamId _ _ _} hbefore hmeasured := by
    simp only [newContext] at hmeasured ⊢
    rw [hbefore.1, hbefore.2 streamId hmeasured]

/-- **Send window.** In every run in which no payload of the stream is cut short after its header,
no other stream swallows a delta of it and its credit stays below `2^32`, `send_window` is the initial
window plus the deltas received minus the DATA announced, so no more is announced than was granted. -/
theorem send_window_eq_credit (isServer : Bool) (inbound : Bytes) (grants : List Nat)
    (outcomes : List WriteOutcome) (calls : List Call) (node : Node)
    (hrun : node = ((Node.start isServer inbound grants outcomes).run calls).1)
    (handle : Nat) (ctx : StreamContext) (hctx : node.context handle = some ctx)
    (hcomplete : ∀ mark ∈ node.notes, cutShort handle mark = false)
    (hnoticed : ∀ mark ∈ node.notes, overlooked handle ctx.streamId mark = false)
    (hbounded : ∀ part ∈ node.notes.inits,
      262144 + granted handle ctx.streamId part < 2 ^ 32 + announced handle part) :
    ctx.sendWindow.toNat + announced handle node.notes =
        262144 + granted handle ctx.streamId node.notes ∧
      announced handle node.notes ≤ 262144 + granted handle ctx.streamId node.notes := by
  obtain ⟨rfl, hbalanced⟩ := sendWindow_bookkeeping.run (fun _ => ⟨rfl, fun _ _ => rfl⟩)
    isServer inbound grants outcomes calls node hrun handle ctx hctx
  have hbalance := hbalanced ⟨hcomplete, hnoticed, hbounded⟩
  have hinitial : initialWindowSize.toNat = 262144 := rfl
  omega

/-- The ACK of stream 1 with a delta of five bytes. -/
def ackHeader5 : Header := ⟨version, typeWindowUpdate, flagAck, 1, 5⟩

theorem send_window_eq_credit_open_write :
    let node := ((Node.start false ackHeader5.encode [] []).run [.open, .write 0 [1, 2, 3]]).1
    let ctx := { newContext 0 1 true [] with sendWindow := 262146 }
    node.context 0 = some ctx ∧
      ctx.sendWindow.toNat + announced 0 node.notes = 262144 + granted 0 1 node.notes ∧
      announced 0 node.notes ≤ 262144 + granted 0 1 node.notes := by
  refine ⟨by decide, send_window_eq_credit false ackHeader5.encode [] []
    [.open, .write 0 [1, 2, 3]] _ rfl 0 { newContext 0 1 true [] with sendWindow := 262146 }
    ?_ ?_ ?_ ?_⟩ <;> decide

/-- The stream takes the header of a DATA frame and one byte of its payload: `yamux_stream_write`
returns before it charges the window, and three bytes are announced against no credit. -/
theorem short_payload_not_charged :
    let outcomes := [⟨12, false⟩, ⟨12, false⟩, ⟨1, false⟩]
    let run := (Node.start false ackHeader5.encode [] outcomes).run [.open, .write 0 [1, 2, 3]]
    ∃ ctx, run.1.context 0 = some ctx ∧ run.2 = [.opened (some 1), .wrote 1 (-1)] ∧
      ctx.sendWindow.toNat + announced 0 run.1.notes ≠ 262144 + granted 0 1 run.1.notes :=
  ⟨{ newContext 0 1 true [] with sendWindow := 262149 }, by decide, by decide,
    by decide⟩

end CLibp2p.Yamux
