import CLibp2p.Proof.YamuxStreams

/-!
# The receive window

The credit the peer of a stream still holds is the initial window, minus the DATA bytes received for
the stream by whichever operation consumed them, plus the deltas sent for it. Only two of the routes
by which DATA arrives keep `recv_window` equal to it: the stream's own read, and another stream's read
that buffers the bytes of a waiting stream and grants them again at once.
-/

namespace CLibp2p.Yamux

open Duplex

def arrivedFor (streamId : UInt32) : Note → Nat
  | .received _ _ hdr =>
      if hdr.type = typeData ∧ hdr.streamId = streamId then hdr.length.toNat else 0
  | _ => 0

def creditedTo (streamId : UInt32) : Note → Nat
  | .emitted hdr =>
      if hdr.type = typeWindowUpdate ∧ hdr.streamId = streamId then hdr.length.toNat else 0
  | _ => 0

/-- The DATA bytes received for a stream, by any operation. -/
def arrived (streamId : UInt32) (notes : List Note) : Nat := tally (arrivedFor streamId) notes

/-- The deltas of all WINDOW_UPDATE frames sent for a stream. -/
def credited (streamId : UInt32) (notes : List Note) : Nat := tally (creditedTo streamId) notes

/-- DATA of the stream that neither its own read consumed nor, while it waited to be accepted, the
read of another stream. -/
def uncharged (handle : Nat) (streamId : UInt32) : Note → Bool
  | .received op queued hdr =>
      hdr.type == typeData && hdr.streamId == streamId && hdr.length != 0 &&
        match op with
        | .read self id => hdr.version != version ||
            !(self == handle || id != streamId && queued.contains streamId)
        | _ => true
  | _ => false

/-- Two notes in a row: another stream's read consumed DATA of the stream, and could not send the
credit for it. -/
def creditLost (streamId : UInt32) : Note × Note → Bool
  | (.received (.read _ id) _ hdr, .refused _) =>
      id != streamId && hdr.type == typeData && hdr.streamId == streamId && hdr.length != 0
  | _ => false

/-- The payload of a DATA frame of the stream did not arrive in full. -/
def cutOff (streamId : UInt32) : Note → Bool
  | .truncated hdr => hdr.type == typeData && hdr.streamId == streamId
  | _ => false

structure Charged (handle : Nat) (streamId : UInt32) (notes : List Note) : Prop where
  consumed : ∀ mark ∈ notes, uncharged handle streamId mark = false
  complete : ∀ mark ∈ notes, cutOff streamId mark = false
  returned : ∀ pair ∈ notes.zip notes.tail, creditLost streamId pair = false

/-- The peer sends no more than the credit it holds. -/
def Within (credit : Nat) (streamId : UInt32) (notes : List Note) : Prop :=
  ∀ part ∈ notes.inits, arrived streamId part ≤ credit + credited streamId part

theorem mem_zip_tail_iff {α : Type} {a b : α} {l : List α} :
    (a, b) ∈ l.zip l.tail ↔ [a, b] <:+: l := by
  induction l with
  | nil => simp
  | cons c l ih =>
      cases l with
      | nil =>
          simp only [List.tail_cons, List.zip_nil_right, List.not_mem_nil, false_iff]
          intro hinfix
          simpa using hinfix.length_le
      | cons d l =>
          rw [List.tail_cons, List.zip_cons_cons, List.mem_cons, List.infix_cons_iff, ← ih,
            List.tail_cons]
          refine or_congr ?_ Iff.rfl
          simp

theorem Charged.infix {handle : Nat} {streamId : UInt32} {notes part : List Note}
    (hcharged : Charged handle streamId notes) (hpart : part <:+: notes) :
    Charged handle streamId part := by
  refine ⟨fun mark hmem => hcharged.consumed mark (hpart.subset hmem),
    fun mark hmem => hcharged.complete mark (hpart.subset hmem), ?_⟩
  rintro ⟨mark, mark'⟩ hmem
  apply hcharged.returned
  rw [mem_zip_tail_iff] at hmem ⊢
  exact hmem.trans hpart

@[simp] theorem arrived_append (streamId : UInt32) (notes notes' : List Note) :
    arrived streamId (notes ++ notes') = arrived streamId notes + arrived streamId notes' :=
  tally_append _ _ _

@[simp] theorem credited_append (streamId : UInt32) (notes notes' : List Note) :
    credited streamId (notes ++ notes') = credited streamId notes + credited streamId notes' :=
  tally_append _ _ _

theorem Quiet.arrived {notes : List Note} (hquiet : Quiet notes) (streamId : UInt32) :
    arrived streamId notes = 0 := by
  apply hquiet.tally_eq_zero
  intro mark hheader
  cases mark <;> first | rfl | cases hheader

/-! ### What a call does to the credit of the streams -/

/-- For the stream with this handle, as much credit goes out as DATA comes in. -/
def Level (handle : Nat) (notes : List Note) : Prop :=
  ∀ streamId, Charged handle streamId notes → arrived streamId notes = credited streamId notes

/-- The window moves by what the notes grant and receive. -/
def Accounts (ctx ctx' : StreamContext) (notes : List Note) : Prop :=
  Charged ctx.handle ctx.streamId notes → ctx.recvWindow.toNat ≤ 262144 →
    Within ctx.recvWindow.toNat ctx.streamId notes →
    ctx'.recvWindow.toNat + arrived ctx.streamId notes =
        ctx.recvWindow.toNat + credited ctx.streamId notes ∧
      ctx'.recvWindow.toNat ≤ 262144

@[simp] theorem credited_nil (streamId : UInt32) : credited streamId [] = 0 := rfl

@[simp] theorem arrived_cons (streamId : UInt32) (mark : Note) (notes : List Note) :
    arrived streamId (mark :: notes) = arrivedFor streamId mark + arrived streamId notes :=
  tally_cons _ _ _

@[simp] theorem credited_cons (streamId : UInt32) (mark : Note) (notes : List Note) :
    credited streamId (mark :: notes) = creditedTo streamId mark + credited streamId notes :=
  tally_cons _ _ _

@[simp] theorem creditedTo_received (streamId : UInt32) (op : Operation) (queued : List UInt32)
    (hdr : Header) : creditedTo streamId (.received op queued hdr) = 0 := rfl

@[simp] theorem creditedTo_refused (streamId : UInt32) (hdr : Header) :
    creditedTo streamId (.refused hdr) = 0 := rfl

/-- A header that is no WINDOW_UPDATE for the stream, or has no delta, grants it nothing. -/
theorem creditedTo_headerNote {streamId : UInt32} {hdr : Header} {ok : Bool}
    (hnothing : hdr.type ≠ typeWindowUpdate ∨ hdr.streamId ≠ streamId ∨ hdr.length = 0) :
    creditedTo streamId (headerNote hdr ok) = 0 := by
  cases ok with
  | false => rfl
  | true =>
      change (if hdr.type = typeWindowUpdate ∧ hdr.streamId = streamId then hdr.length.toNat else 0) = 0
      rcases hnothing with htype | hid | hlength
      · rw [if_neg fun h => htype h.1]
      · rw [if_neg fun h => hid h.2]
      · rw [hlength]
        split <;> rfl

theorem Plain.credits_nothing {notes : List Note} (hplain : Plain notes) (streamId : UInt32) :
    credited streamId notes = 0 := by
  apply tally_eq_zero
  intro mark hmem
  have hmark := hplain mark hmem
  cases mark with
  | emitted hdr =>
      have hnothing : hdr.type ≠ typeWindowUpdate ∨ hdr.length = 0 := by
        simpa [Note.isPlain] using hmark
      change creditedTo streamId (headerNote hdr true) = 0
      exact creditedTo_headerNote (hnothing.imp id Or.inr)
  | _ => rfl

theorem Replenish.credits_nothing {ctx : StreamContext} {length window : UInt32} {notes : List Note}
    (hreplenish : Replenish ctx length window notes) {streamId : UInt32}
    (hid : ctx.streamId ≠ streamId) : credited streamId notes = 0 := by
  have hheader : ∀ ok, creditedTo streamId (headerNote
      (creditHeader ctx.streamId (initialWindowSize - windowAfter ctx length)) ok) = 0 :=
    fun _ => creditedTo_headerNote (Or.inr (Or.inl hid))
  cases hreplenish with
  | kept hsmall => rfl
  | refused hlarge => rfl
  | granted hlarge => exact hheader true

theorem ReadFrame.credits_nothing {count : Nat} {session : Session} {ctx : StreamContext} {hdr : Header}
    {turn : (Session × StreamContext) ⊕ ReadResult} {notes : List Note} {flow : Flow}
    (hframe : ReadFrame count session ctx hdr turn notes flow) {streamId : UInt32}
    (hnone : ¬(hdr.type = typeData ∧ hdr.streamId = streamId ∧ hdr.length ≠ 0)) :
    credited streamId notes = 0 := by
  have hcredit (htype : hdr.type = typeData) (ok : Bool) :
      creditedTo streamId (headerNote (creditHeader hdr.streamId hdr.length) ok) = 0 := by
    apply creditedTo_headerNote
    by_cases hsame : hdr.streamId = streamId
    · exact Or.inr (Or.inr (not_not.mp fun hfull => hnone ⟨htype, hsame, hfull⟩))
    · exact Or.inr (Or.inl hsame)
  cases hframe with
  | control htype hcontrol => exact hcontrol.plain.credits_nothing streamId
  | buffered htype hid hqueued hlength ok => rw [credited_cons, hcredit htype, credited_nil]
  | failedBuffer htype hid ok => rw [credited_cons, hcredit htype]; rfl
  | delivered htype hid hfull hlength hreplenish =>
      apply hreplenish.credits_nothing
      rw [← hid]
      exact fun hsame => hnone ⟨htype, hsame, hfull⟩
  | _ => rfl

theorem arrivedFor_eq_zero {streamId : UInt32} {op : Operation} {queued : List UInt32}
    {hdr : Header} (hnone : ¬(hdr.type = typeData ∧ hdr.streamId = streamId ∧ hdr.length ≠ 0)) :
    arrivedFor streamId (.received op queued hdr) = 0 := by
  rw [arrivedFor]
  split
  · rename_i hdata
    have hempty : hdr.length = 0 := not_not.mp fun hfull => hnone ⟨hdata.1, hdata.2, hfull⟩
    rw [hempty]
    rfl
  · rfl

theorem uncharged_read_iff {handle self : Nat} {id : UInt32} {queued : List UInt32} {hdr : Header}
    (htype : hdr.type = typeData) (hfull : hdr.length ≠ 0) :
    uncharged handle hdr.streamId (.received (.read self id) queued hdr) = false ↔
      hdr.version = version ∧ (self = handle ∨ id ≠ hdr.streamId ∧ hdr.streamId ∈ queued) := by
  simp only [uncharged, htype, beq_self_eq_true, Bool.true_and, bne_iff_ne.mpr hfull]
  simp [or_iff_not_imp_left]

theorem level_readFrame {count other : Nat} {session : Session} {ctx : StreamContext}
    {hdr : Header} {turn : (Session × StreamContext) ⊕ ReadResult} {notes : List Note}
    {flow : Flow} (hframe : ReadFrame count session ctx hdr turn notes flow)
    (hother : other ≠ ctx.handle) :
    Level other (.received (.read ctx.handle ctx.streamId) session.queued hdr :: notes) := by
  intro streamId hcharged
  rw [arrived_cons, credited_cons, creditedTo_received, hframe.quiet.arrived, Nat.zero_add,
    Nat.add_zero]
  by_cases hdata : hdr.type = typeData ∧ hdr.streamId = streamId ∧ hdr.length ≠ 0
  · -- the stream waits to be accepted: the bytes are buffered and granted again
    obtain ⟨htype, rfl, hfull⟩ := hdata
    have hmark := (uncharged_read_iff htype hfull).mp (hcharged.consumed _ List.mem_cons_self)
    obtain ⟨hversion, hself | ⟨hid, hmem⟩⟩ := hmark
    · exact absurd hself.symm hother
    have hqueued := pendingExists_of_mem_queued hmem
    have hreturned (credit : Header) (hnotes : notes = [.refused credit]) : False := by
      have hpair := hcharged.returned
        (.received (.read ctx.handle ctx.streamId) session.queued hdr, .refused credit)
        (by rw [hnotes]; exact List.mem_cons_self)
      simp [creditLost, htype, hid, hfull] at hpair
    cases hframe with
    | badVersion hbad => exact absurd hversion hbad
    | buffered htype hid hqueued hlength ok =>
        cases ok with
        | false => exact absurd rfl (hreturned _)
        | true => simp [arrivedFor, creditedTo, headerNote, creditHeader, htype]
    | dropped htype hid hunqueued hlength =>
        rcases hunqueued with hunqueued | hempty
        · rw [hqueued] at hunqueued
          cases hunqueued
        · exact absurd hempty hfull
    | control hcontrol => exact absurd hcontrol (Header.not_control_of_data htype)
    | credit hversion hwindow => exact absurd hwindow (Header.ne_window_of_data htype)
    | foreignCredit hwindow => exact absurd hwindow (Header.ne_window_of_data htype)
    | unknown hversion hping hgoAway hwindow hnotData hlength => exact absurd htype hnotData
    | finished htype hsame hempty => exact absurd hempty hfull
    | empty htype hsame hempty => exact absurd hempty hfull
    | delivered htype hsame hfull hlength hreplenish => exact absurd hsame.symm hid
    | failedDiscard hwindow hunqueued =>
        obtain hnotData | ⟨-, hunqueued | hempty⟩ := hunqueued
        · exact absurd htype hnotData
        · rw [hqueued] at hunqueued
          cases hunqueued
        · exact absurd hempty hfull
    | failedBuffer htype hid ok =>
        have hcut := hcharged.complete (.truncated hdr)
          (List.mem_cons_of_mem _ (List.mem_cons_of_mem _ List.mem_cons_self))
        simp [cutOff, htype] at hcut
    | failed htype hsame => exact absurd hsame.symm hid
  · rw [arrivedFor_eq_zero hdata, hframe.credits_nothing hdata]

theorem Replenish.window {ctx : StreamContext} {length window : UInt32} {notes : List Note}
    (hreplenish : Replenish ctx length window notes) (hfits : length ≤ ctx.recvWindow)
    (hsmall : ctx.recvWindow.toNat ≤ 262144) :
    window.toNat + length.toNat = ctx.recvWindow.toNat + credited ctx.streamId notes ∧
      window.toNat ≤ 262144 := by
  have hlength : length.toNat ≤ ctx.recvWindow.toNat := UInt32.le_iff_toNat_le.mp hfits
  have hinitial : initialWindowSize.toNat = 262144 := rfl
  have hafter : (windowAfter ctx length).toNat = ctx.recvWindow.toNat - length.toNat := by
    rw [windowAfter, if_pos hfits, UInt32.toNat_sub_of_le _ _ hfits]
  have hincrement : (initialWindowSize - windowAfter ctx length).toNat =
      262144 - (windowAfter ctx length).toNat := by
    rw [UInt32.toNat_sub_of_le _ _ (UInt32.le_iff_toNat_le.mpr (by omega)), hinitial]
  cases hreplenish with
  | kept hlarge =>
      rw [credited_nil]
      omega
  | refused hlarge =>
      rw [credited_cons, creditedTo_refused, credited_nil]
      omega
  | granted hlarge =>
      have hcredit : creditedTo ctx.streamId (.emitted
          (creditHeader ctx.streamId (initialWindowSize - windowAfter ctx length))) =
          262144 - (windowAfter ctx length).toNat := by
        rw [← hincrement]
        exact if_pos ⟨rfl, rfl⟩
      rw [credited_cons, hcredit, credited_nil, UInt32.toNat_add, hincrement,
        Nat.mod_eq_of_lt (by omega)]
      omega

theorem accounts_readFrame {count : Nat} {session : Session} {ctx : StreamContext} {hdr : Header}
    {turn : (Session × StreamContext) ⊕ ReadResult} {notes : List Note} {flow : Flow}
    (hframe : ReadFrame count session ctx hdr turn notes flow) :
    Accounts ctx (contextAfterRead turn)
      (.received (.read ctx.handle ctx.streamId) session.queued hdr :: notes) := by
  have hsame {ctx' : StreamContext} (hwindow : ctx'.recvWindow = ctx.recvWindow)
      (hnone : hdr.version = version →
        ¬(hdr.type = typeData ∧ hdr.streamId = ctx.streamId ∧ hdr.length ≠ 0)) :
      Accounts ctx ctx' (.received (.read ctx.handle ctx.streamId) session.queued hdr :: notes) := by
    intro hcharged hsmall _
    have hnothing : ¬(hdr.type = typeData ∧ hdr.streamId = ctx.streamId ∧ hdr.length ≠ 0) := by
      rintro ⟨htype, hself, hfull⟩
      have hmark := hcharged.consumed _ List.mem_cons_self
      rw [← hself, uncharged_read_iff htype hfull] at hmark
      exact hnone hmark.1 ⟨htype, hself, hfull⟩
    rw [arrived_cons, credited_cons, creditedTo_received, hframe.quiet.arrived,
      arrivedFor_eq_zero hnothing, hframe.credits_nothing hnothing, hwindow]
    exact ⟨rfl, hsmall⟩
  cases hframe with
  | delivered htype hid hfull hlength hreplenish =>
      intro _ hsmall hwithin
      have hdata (op : Operation) (queued : List UInt32) :
          arrivedFor ctx.streamId (.received op queued hdr) = hdr.length.toNat :=
        if_pos ⟨htype, hid⟩
      have hfits := hwithin [.received (.read ctx.handle ctx.streamId) session.queued hdr]
        (by rw [List.mem_inits]; exact ⟨_, rfl⟩)
      rw [arrived_cons, hdata, credited_cons, creditedTo_received] at hfits
      have hend := hreplenish.window (UInt32.le_iff_toNat_le.mpr hfits) hsmall
      rw [arrived_cons, hdata, hreplenish.quiet.arrived, credited_cons, creditedTo_received,
        Nat.zero_add, Nat.add_zero]
      exact hend
  | badVersion hbad => exact hsame rfl fun hversion => absurd hversion hbad
  | control hcontrol =>
      rw [contextAfterRead_control]
      exact hsame rfl fun _ hnone => Header.not_control_of_data hnone.1 hcontrol
  | credit hversion hwindow hid =>
      exact hsame rfl fun _ hnone => Header.ne_window_of_data hnone.1 hwindow
  | foreignCredit hwindow hid => exact hsame rfl fun _ hnone => hid hnone.2.1
  | unknown hversion hping hgoAway hwindow hnotData hlength =>
      exact hsame rfl fun _ hnone => hnotData hnone.1
  | buffered htype hid hqueued hlength ok => exact hsame rfl fun _ hnone => hid hnone.2.1
  | dropped htype hid hunqueued hlength => exact hsame rfl fun _ hnone => hid hnone.2.1
  | finished htype hid hempty => exact hsame rfl fun _ hnone => hnone.2.2 hempty
  | empty htype hid hempty => exact hsame rfl fun _ hnone => hnone.2.2 hempty
  | failedDiscard hwindow hother =>
      refine hsame rfl fun _ hnone => ?_
      obtain hnotData | ⟨hid, -⟩ := hother
      · exact hnotData hnone.1
      · exact hid hnone.2.1
  | failedBuffer htype hid ok => exact hsame rfl fun _ hnone => hid hnone.2.1
  | failed htype hid =>
      intro hcharged _ _
      have hcut := hcharged.complete (.truncated hdr) (List.mem_cons_of_mem _ List.mem_cons_self)
      simp [cutOff, htype, hid] at hcut

/-- A header consumed outside a read must carry no DATA of a stream that is charged. -/
theorem level_received {handle : Nat} {op : Operation} {queued : List UInt32} {hdr : Header}
    {notes : List Note} (hop : ∀ self id, op ≠ .read self id) (hplain : Plain notes) :
    Level handle (.received op queued hdr :: notes) := by
  intro streamId hcharged
  have hnone : ¬(hdr.type = typeData ∧ hdr.streamId = streamId ∧ hdr.length ≠ 0) := by
    rintro ⟨htype, hid, hfull⟩
    have hmark := hcharged.consumed _ List.mem_cons_self
    cases op with
    | read self id => exact hop self id rfl
    | _ => simp [uncharged, htype, hid, hfull] at hmark
  rw [arrived_cons, arrivedFor_eq_zero hnone, hplain.quiet.arrived, credited_cons,
    creditedTo_received, hplain.credits_nothing]

theorem Plain.level {notes : List Note} (hplain : Plain notes) (handle : Nat) :
    Level handle notes := by
  intro streamId _
  rw [hplain.quiet.arrived, hplain.credits_nothing]

theorem level_writes {ctx ctx' : StreamContext} {notes : List Note}
    (hwrites : Writes ctx ctx' notes) (handle : Nat) : Level handle notes := by
  intro streamId _
  have hdata (length : UInt32) :
      creditedTo streamId (headerNote (dataHeader ctx.streamId length) true) = 0 :=
    creditedTo_headerNote (Or.inl (show typeData ≠ typeWindowUpdate by decide))
  cases hwrites with
  | nothing => rfl
  | refused length => rfl
  | sent hwindow => exact (congrArg (· + 0) (hdata _)).symm
  | short hret => exact (congrArg (· + 0) (hdata _)).symm

theorem Level.accounts {ctx ctx' : StreamContext} {notes : List Note}
    (hlevel : Level ctx.handle notes) (hwindow : ctx'.recvWindow = ctx.recvWindow) :
    Accounts ctx ctx' notes := by
  intro hcharged hsmall _
  rw [hwindow, hlevel ctx.streamId hcharged]
  exact ⟨rfl, hsmall⟩

theorem openTurn_level {session : Session} {ctx : StreamContext}
    {turn : (Session × StreamContext) ⊕ OpenResult} {notes : List Note} {flow : Flow}
    (hturn : OpenTurn session ctx turn notes flow) (handle : Nat) : Level handle notes := by
  cases hturn with
  | headerFailed => exact plain_nil.level handle
  | frame hdecode hlength hframe =>
      exact level_received (fun _ _ hop => by cases hop) hframe.plain

theorem openTurn_recvWindow {session : Session} {ctx ctx' : StreamContext}
    {turn : (Session × StreamContext) ⊕ OpenResult} {notes : List Note} {flow : Flow}
    (hturn : OpenTurn session ctx turn notes flow) (hafter : contextAfterOpen turn = some ctx') :
    ctx'.recvWindow = ctx.recvWindow := by
  cases hturn with
  | headerFailed => cases hafter
  | frame hdecode hlength hframe =>
      cases hframe with
      | control htype hcontrol =>
          rw [contextAfterOpen_control] at hafter
          split at hafter
          · rw [Option.some.inj hafter]
          · cases hafter
      | failedDiscard hown => cases hafter
      | _ => obtain rfl := Option.some.inj hafter; rfl

theorem Acts.accounts {ctx ctx' : StreamContext} {after : Option StreamContext}
    {notes : List Note} (hacts : Acts ctx after notes) (hafter : after = some ctx') :
    Accounts ctx ctx' notes := by
  cases hacts with
  | read hturn =>
      obtain rfl := Option.some.inj hafter
      cases hturn with
      | frame hopen hread hdecode hlength hframe => exact accounts_readFrame hframe
      | _ => exact (plain_nil.level _).accounts rfl
  | «open» hturn => exact (openTurn_level hturn _).accounts (openTurn_recvWindow hturn hafter)
  | write hwrites =>
      obtain rfl := Option.some.inj hafter
      refine (level_writes hwrites _).accounts ?_
      cases hwrites <;> rfl
  | close hplain => cases hafter

theorem Acts.level {ctx : StreamContext} {after : Option StreamContext} {notes : List Note}
    (hacts : Acts ctx after notes) {handle : Nat} (hother : handle ≠ ctx.handle) :
    Level handle notes := by
  cases hacts with
  | read hturn =>
      cases hturn with
      | frame hopen hread hdecode hlength hframe => exact level_readFrame hframe hother
      | _ => exact plain_nil.level handle
  | «open» hturn => exact openTurn_level hturn handle
  | write hwrites => exact level_writes hwrites handle
  | close hplain => exact hplain.level handle

theorem Aside.level {notes : List Note} (haside : Aside notes) (handle : Nat) :
    Level handle notes := by
  cases haside with
  | plain hplain => exact hplain.level handle
  | syn hturn =>
      cases hturn with
      | headerFailed => exact plain_nil.level handle
      | frame hdecode hlength hframe =>
          exact level_received (fun _ _ hop => by cases hop) hframe.plain
  | ping hturn =>
      cases hturn with
      | headerFailed => exact plain_nil.level handle
      | frame hdecode hlength hframe =>
          exact level_received (fun _ _ hop => by cases hop) hframe.plain

/-! ### The window of every stream -/

def Reconciled (ctx : StreamContext) (log : List Note) : Prop :=
  Charged ctx.handle ctx.streamId log → Within 262144 ctx.streamId log →
    ctx.recvWindow.toNat + arrived ctx.streamId log = 262144 + credited ctx.streamId log ∧
      ctx.recvWindow.toNat ≤ 262144

theorem Charged.before {handle : Nat} {streamId : UInt32} {log notes : List Note}
    (hcharged : Charged handle streamId (log ++ notes)) : Charged handle streamId log :=
  hcharged.infix (List.prefix_append _ _).isInfix

theorem Charged.after {handle : Nat} {streamId : UInt32} {log notes : List Note}
    (hcharged : Charged handle streamId (log ++ notes)) : Charged handle streamId notes :=
  hcharged.infix (List.suffix_append _ _).isInfix

theorem Within.before {credit : Nat} {streamId : UInt32} {log notes : List Note}
    (hwithin : Within credit streamId (log ++ notes)) : Within credit streamId log := by
  intro part hpart
  apply hwithin
  rw [List.mem_inits] at hpart ⊢
  exact hpart.trans (List.prefix_append _ _)

theorem Within.after {window : Nat} {streamId : UInt32} {log notes : List Note}
    (hwithin : Within 262144 streamId (log ++ notes))
    (hbalance : window + arrived streamId log = 262144 + credited streamId log) :
    Within window streamId notes := by
  intro part hpart
  rw [List.mem_inits] at hpart
  have hwhole := hwithin (log ++ part)
    (by rw [List.mem_inits]; exact (List.prefix_append_right_inj log).mpr hpart)
  rw [arrived_append, credited_append] at hwhole
  omega

theorem Level.append {handle : Nat} {log notes : List Note} (hlog : Level handle log)
    (hnotes : Level handle notes) : Level handle (log ++ notes) := by
  intro streamId hcharged
  rw [arrived_append, credited_append, hlog streamId hcharged.before,
    hnotes streamId hcharged.after]

theorem Accounts.reconciled {ctx ctx' : StreamContext} {log notes : List Note}
    (haccounts : Accounts ctx ctx' notes) (hhandle : ctx'.handle = ctx.handle)
    (hid : ctx'.streamId = ctx.streamId) (hbefore : Reconciled ctx log) :
    Reconciled ctx' (log ++ notes) := by
  intro hcharged hwithin
  rw [hhandle, hid] at hcharged
  rw [hid] at hwithin ⊢
  obtain ⟨hbalance, hsmall⟩ := hbefore hcharged.before hwithin.before
  obtain ⟨hwindow, hsmall'⟩ := haccounts hcharged.after hsmall (hwithin.after hbalance)
  rw [arrived_append, credited_append]
  exact ⟨by omega, hsmall'⟩

theorem recvWindow_bookkeeping : Bookkeeping Reconciled Level where
  acts hbefore hacts :=
    (hacts.accounts rfl).reconciled (hacts.identity rfl).1 (hacts.identity rfl).2 hbefore
  spares hother hbefore hacts := ((hacts.level hother).accounts rfl).reconciled rfl rfl hbefore
  sparesFree hother hbefore hacts := hbefore.append (hacts.level hother)
  aside hbefore haside := ((haside.level _).accounts rfl).reconciled rfl rfl hbefore
  asideFree hbefore haside := hbefore.append (haside.level _)
  start {_ streamId _ _ _} hbefore hcharged _ := by
    have hlevel := hbefore streamId hcharged
    exact ⟨by rw [newContext, hlevel]; rfl, le_rfl⟩

/-- **Receive window.** In every run in which the DATA of the stream arrives in full and is consumed
by its own read, or by another stream's read that returns the credit while the stream waits to be
accepted, and the peer stays within its credit, `recv_window` is the credit the peer still holds. -/
theorem recv_window_eq_credit (isServer : Bool) (inbound : Bytes) (grants : List Nat)
    (outcomes : List WriteOutcome) (calls : List Call) (node : Node)
    (hrun : node = ((Node.start isServer inbound grants outcomes).run calls).1) (handle : Nat)
    (ctx : StreamContext) (hctx : node.context handle = some ctx)
    (hconsumed : ∀ mark ∈ node.notes, uncharged handle ctx.streamId mark = false)
    (hcomplete : ∀ mark ∈ node.notes, cutOff ctx.streamId mark = false)
    (hreturned : ∀ pair ∈ node.notes.zip node.notes.tail, creditLost ctx.streamId pair = false)
    (hwithin : ∀ part ∈ node.notes.inits,
      arrived ctx.streamId part ≤ 262144 + credited ctx.streamId part) :
    ctx.recvWindow.toNat + arrived ctx.streamId node.notes =
        262144 + credited ctx.streamId node.notes ∧
      ctx.recvWindow.toNat ≤ 262144 := by
  obtain ⟨rfl, hreconciled⟩ := recvWindow_bookkeeping.run (fun _ _ _ => rfl)
    isServer inbound grants outcomes calls node hrun handle ctx hctx
  exact hreconciled ⟨hconsumed, hcomplete, hreturned⟩ hwithin

/-- A client's stream is acknowledged and receives three bytes. -/
def openedInbound : Bytes :=
  (ackHeader 1).encode ++ (dataHeader 1 3).encode ++ [7, 8, 9]

theorem recv_window_eq_credit_open_read :
    let node := ((Node.start false openedInbound [] []).run [.open, .read 0 2]).1
    let ctx := { newContext 0 1 true [7, 8, 9] with recvWindow := 262141, readBufferPos := 2 }
    node.context 0 = some ctx ∧
      ctx.recvWindow.toNat + arrived 1 node.notes = 262144 + credited 1 node.notes ∧
      ctx.recvWindow.toNat ≤ 262144 := by
  refine ⟨by decide, recv_window_eq_credit false openedInbound [] [] [.open, .read 0 2] _ rfl
    0 { newContext 0 1 true [7, 8, 9] with recvWindow := 262141, readBufferPos := 2 }
    ?_ ?_ ?_ ?_ ?_⟩ <;> decide

/-- `libp2p_yamux_stream_accept` keeps the bytes of a SYN that carries DATA and charges no window for
them. -/
theorem accept_data_syn_not_charged :
    let inbound := Header.encode ⟨version, typeData, flagSyn, 1, 3⟩ ++ [7, 8, 9]
    let run := (Node.start true inbound [] []).run [.accept]
    ∃ ctx, run.1.context 0 = some ctx ∧ run.2 = [.accepted (some 1)] ∧
      run.1.wire.failed = false ∧
      ctx.recvWindow.toNat + arrived 1 run.1.notes ≠ 262144 + credited 1 run.1.notes :=
  ⟨newContext 0 1 true [7, 8, 9], by decide, by decide, by decide,
    by decide⟩

end CLibp2p.Yamux
