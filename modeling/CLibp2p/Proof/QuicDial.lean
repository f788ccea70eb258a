import CLibp2p.Machine.Runs
import CLibp2p.Quic.Dial

/-!
# Which streams are accepted

One place and one flag stand for all streams the peer opens. The flag is never taken back, so an accept
has something of its own to return only if a stream has come since the last one and is open, and a
stream that comes before the last one was accepted pushes it out.
-/

namespace CLibp2p.Quic

open Machine

/-- The stream has come from the peer, is open and was not accepted. -/
structure DialedConn.Waits (s : DialedConn) (id : Nat) : Prop where
  peer : OpenedByPeer id
  live : id ∈ s.live
  fresh : some id ∉ s.accepted

/-- An accept that succeeds returns a stream that waits. -/
def AcceptsWaiting (s : DialedConn) : DialEvent → Prop
  | .accept granted => ∀ stream, s.dial.acceptStream granted = some stream →
      ∃ id, stream = some id ∧ s.Waits id
  | _ => True

/-- A stream that waits is accepted, if there are enough accepts. -/
def AllAccepted (s : DialedConn) : Prop :=
  ∀ id, s.Waits id →
    ∃ count, some id ∈ (run DialedConn.step s (List.replicate count (.accept true))).accepted

/-- A connection with the streams this side did not open that came since the last accept that succeeded, the last
of them first. -/
structure WatchedConn where
  conn : DialedConn
  came : List Nat

namespace WatchedConn

def start : WatchedConn := ⟨.start, []⟩

def step (w : WatchedConn) (event : DialEvent) : WatchedConn where
  conn := w.conn.step event
  came := match event with
    | .newStream id =>
        if w.conn.dial.conn = true ∧ id ∉ w.conn.opened ∧ id % 4 ≠ 0 then id :: w.came else w.came
    | .accept granted => if (w.conn.dial.acceptStream granted).isSome then [] else w.came
    | _ => w.came

/-- A stream comes while no stream of the peer that came since the last accept is open, and the stream an accept
is for is of the peer, came last since the accept before and is open. -/
def InTurn (w : WatchedConn) : DialEvent → Prop
  | .newStream id => w.conn.dial.conn = true → id ∉ w.conn.opened → id % 4 ≠ 0 →
      ∀ other ∈ w.came, OpenedByPeer other → other ∉ w.conn.live
  | .accept granted => w.conn.dial.inboundReady = true → granted = true →
      ∃ id, w.came.head? = some id ∧ OpenedByPeer id ∧ id ∈ w.conn.live
  | _ => True

end WatchedConn

/-- No stream takes the place of one that waits, and no accept finds the flag set without a stream that
waits in the place. -/
def PlaceFree (s : DialedConn) : DialEvent → Prop
  | .newStream id => s.dial.conn = true → id ∉ s.opened → id % 4 ≠ 0 →
      ∀ waiting, s.dial.inboundStream = some waiting → ¬s.Waits waiting
  | .accept granted => s.dial.inboundReady = true → granted = true →
      ∃ id, s.dial.inboundStream = some id ∧ s.Waits id
  | _ => True

/-! ### The invariant -/

structure DialedConn.Sound (s : DialedConn) : Prop where
  inbound : ∀ id, s.dial.inboundStream = some id → id ∈ s.live ∧ s.dial.inboundReady = true
  live : ∀ id ∈ s.live, id ∈ s.opened
  accepted : ∀ id, some id ∈ s.accepted → id ∈ s.opened
  waits : ∀ id, s.Waits id → s.dial.inboundStream = some id

theorem sound_start : DialedConn.start.Sound where
  inbound := by simp [DialedConn.start]
  live := by simp [DialedConn.start]
  accepted := by simp [DialedConn.start]
  waits := fun id hwaits => absurd hwaits.live (by simp [DialedConn.start])

theorem DialedConn.Sound.newStream {s : DialedConn} (hsound : s.Sound) {id : Nat}
    (hfree : PlaceFree s (.newStream id)) : (s.step (.newStream id)).Sound := by
  rw [DialedConn.step]
  split
  · rename_i hnew
    obtain ⟨hconn, hfresh⟩ := hnew
    have hold : ∀ other, some other ∈ s.accepted → other ≠ id := by
      rintro other hother rfl
      exact hfresh (hsound.accepted other hother)
    by_cases hlocal : id % 4 = 0
    · refine ⟨fun other hother => ?_, fun other hother => ?_, fun other hother => ?_, fun other hwaits => ?_⟩
      · rw [QuicDialCtx.onNewStream, if_pos hlocal] at hother ⊢
        obtain ⟨hlive, hready⟩ := hsound.inbound other hother
        exact ⟨List.mem_cons_of_mem _ hlive, hready⟩
      · rcases List.mem_cons.mp hother with rfl | hother
        · exact List.mem_cons_self
        · exact List.mem_cons_of_mem _ (hsound.live other hother)
      · exact List.mem_cons_of_mem _ (hsound.accepted other hother)
      · rw [QuicDialCtx.onNewStream, if_pos hlocal]
        rcases List.mem_cons.mp hwaits.live with rfl | hlive
        · have hpeer := hwaits.peer
          rw [OpenedByPeer] at hpeer
          omega
        · exact hsound.waits other ⟨hwaits.peer, hlive, hwaits.fresh⟩
    · refine ⟨fun other hother => ?_, fun other hother => ?_, fun other hother => ?_, fun other hwaits => ?_⟩
      · rw [QuicDialCtx.onNewStream, if_neg hlocal] at hother ⊢
        obtain rfl := Option.some.inj hother
        exact ⟨List.mem_cons_self, rfl⟩
      · rcases List.mem_cons.mp hother with rfl | hother
        · exact List.mem_cons_self
        · exact List.mem_cons_of_mem _ (hsound.live other hother)
      · exact List.mem_cons_of_mem _ (hsound.accepted other hother)
      · rw [QuicDialCtx.onNewStream, if_neg hlocal]
        rcases List.mem_cons.mp hwaits.live with rfl | hlive
        · rfl
        · have hwaits' : s.Waits other := ⟨hwaits.peer, hlive, hwaits.fresh⟩
          exact absurd hwaits' (hfree hconn hfresh hlocal other (hsound.waits other hwaits'))
  · exact hsound

theorem DialedConn.Sound.streamClosed {s : DialedConn} (hsound : s.Sound) (id : Nat) :
    (s.step (.streamClosed id)).Sound := by
  rw [DialedConn.step]
  split
  · refine ⟨fun other hother => ?_, fun other hother => ?_, hsound.accepted, fun other hwaits => ?_⟩
    · dsimp only [QuicDialCtx.onClose] at hother ⊢
      split at hother
      · cases hother
      · rename_i hne
        obtain ⟨hlive, hready⟩ := hsound.inbound other hother
        refine ⟨List.mem_filter.mpr ⟨hlive, ?_⟩, hready⟩
        have hdiffer : other ≠ id := fun heq => hne (heq ▸ hother)
        simpa using hdiffer
    · exact hsound.live other (List.mem_filter.mp hother).1
    · obtain ⟨hlive, hdiffer⟩ := List.mem_filter.mp hwaits.live
      have hplace := hsound.waits other ⟨hwaits.peer, hlive, hwaits.fresh⟩
      dsimp only [QuicDialCtx.onClose]
      rw [hplace, if_neg]
      simpa using hdiffer
  · exact hsound

theorem DialedConn.Sound.connClosed {s : DialedConn} (hsound : s.Sound) :
    (s.step .connClosed).Sound := by
  rw [DialedConn.step]
  split
  · exact ⟨by simp [QuicDialCtx.onConnClosed], by simp, hsound.accepted,
      fun other hwaits => absurd hwaits.live List.not_mem_nil⟩
  · exact hsound

theorem DialedConn.Sound.accept {s : DialedConn} (hsound : s.Sound) (granted : Bool) :
    (s.step (.accept granted)).Sound := by
  rw [DialedConn.step]
  split
  · rename_i stream hstream
    have hplace : stream = s.dial.inboundStream := by
      rw [QuicDialCtx.acceptStream] at hstream
      split at hstream
      · exact (Option.some.inj hstream).symm
      · cases hstream
    refine ⟨hsound.inbound, hsound.live, fun other hother => ?_, fun other hwaits => ?_⟩
    · rcases List.mem_cons.mp hother with heq | hother
      · exact hsound.live other (hsound.inbound other (by rw [← hplace, ← heq])).1
      · exact hsound.accepted other hother
    · have hfresh := hwaits.fresh
      rw [List.mem_cons, not_or] at hfresh
      exact hsound.waits other ⟨hwaits.peer, hwaits.live, hfresh.2⟩
  · exact hsound

/-! ### The place and the streams that came -/

namespace WatchedConn

/-- The stream in the place is the last that came, if that is open, and what came was not accepted. -/
structure Sound (w : WatchedConn) : Prop where
  conn : w.conn.Sound
  waits : ∀ id, w.conn.Waits id → w.came.head? = some id
  fresh : ∀ id ∈ w.came, id ∈ w.conn.opened ∧ some id ∉ w.conn.accepted
  place : ∀ id, w.came.head? = some id → id ∈ w.conn.live → w.conn.dial.inboundStream = some id

theorem sound_start : start.Sound where
  conn := Quic.sound_start
  waits := fun id hwaits => absurd hwaits.live List.not_mem_nil
  fresh := fun id hcame => absurd hcame List.not_mem_nil
  place := fun id hhead => by cases hhead

theorem Sound.inTurn_iff {w : WatchedConn} (h : w.Sound) (event : DialEvent) :
    w.InTurn event ↔ PlaceFree w.conn event := by
  cases event with
  | newStream id =>
      constructor
      · intro hturn hconn hnew hforeign waiting hplace hwaits
        have hcame : waiting ∈ w.came := List.mem_of_mem_head? (h.waits waiting hwaits)
        exact hturn hconn hnew hforeign waiting hcame hwaits.peer hwaits.live
      · intro hfree hconn hnew hforeign other hcame hpeer hlive
        have hwaits : w.conn.Waits other := ⟨hpeer, hlive, (h.fresh other hcame).2⟩
        exact hfree hconn hnew hforeign other (h.conn.waits other hwaits) hwaits
  | accept granted =>
      constructor
      · intro hturn hready hgranted
        obtain ⟨id, hhead, hpeer, hlive⟩ := hturn hready hgranted
        have hfresh := (h.fresh id (List.mem_of_mem_head? hhead)).2
        exact ⟨id, h.place id hhead hlive, hpeer, hlive, hfresh⟩
      · intro hfree hready hgranted
        obtain ⟨id, -, hwaits⟩ := hfree hready hgranted
        exact ⟨id, h.waits id hwaits, hwaits.peer, hwaits.live⟩
  | streamClosed id => exact Iff.rfl
  | connClosed => exact Iff.rfl

theorem conn_newStream {c : DialedConn} {id : Nat} (hopen : c.dial.conn = true) (hnew : id ∉ c.opened) :
    c.step (.newStream id) =
      { c with dial := c.dial.onNewStream id, opened := id :: c.opened, live := id :: c.live } :=
  if_pos ⟨hopen, hnew⟩

/-- A stream of this side takes no place, and is none that an accept waits for. -/
theorem Sound.newStream_local {w : WatchedConn} (h : w.Sound) {id : Nat} (hopen : w.conn.dial.conn = true)
    (hnew : id ∉ w.conn.opened) (hlocal : id % 4 = 0) (hsound : (w.conn.step (.newStream id)).Sound) :
    (w.step (.newStream id)).Sound := by
  have hconn := conn_newStream hopen hnew
  have hcame : (w.step (.newStream id)).came = w.came := if_neg fun hall => hall.2.2 hlocal
  refine ⟨hsound, fun other hwaits => ?_, fun other hother => ?_, fun other hhead hlive => ?_⟩
  · have hpeer := hwaits.peer
    have hlive : other ∈ id :: w.conn.live := by simpa only [step, hconn] using hwaits.live
    have hfresh : some other ∉ w.conn.accepted := by simpa only [step, hconn] using hwaits.fresh
    rw [hcame]
    rcases List.mem_cons.mp hlive with rfl | hold
    · rw [OpenedByPeer] at hpeer
      omega
    · exact h.waits other ⟨hpeer, hold, hfresh⟩
  · rw [hcame] at hother
    obtain ⟨hopened, hfresh⟩ := h.fresh other hother
    simpa only [step, hconn] using And.intro (List.mem_cons_of_mem id hopened) hfresh
  · rw [hcame] at hhead
    have hold : other ∈ w.conn.live := by
      have hmem : other ∈ id :: w.conn.live := by simpa only [step, hconn] using hlive
      rcases List.mem_cons.mp hmem with rfl | hold
      · exact absurd (h.fresh other (List.mem_of_mem_head? hhead)).1 hnew
      · exact hold
    have hplace := h.place other hhead hold
    simpa only [step, hconn, QuicDialCtx.onNewStream, if_pos hlocal] using hplace

/-- A stream of the peer takes the place, where no other waits for an accept. -/
theorem Sound.newStream_peer {w : WatchedConn} (h : w.Sound) {id : Nat} (hopen : w.conn.dial.conn = true)
    (hnew : id ∉ w.conn.opened) (hforeign : id % 4 ≠ 0) (hfree : PlaceFree w.conn (.newStream id))
    (hsound : (w.conn.step (.newStream id)).Sound) : (w.step (.newStream id)).Sound := by
  have hconn := conn_newStream hopen hnew
  have hunseen : some id ∉ w.conn.accepted := fun hid => hnew (h.conn.accepted id hid)
  have hcame : (w.step (.newStream id)).came = id :: w.came := if_pos ⟨hopen, hnew, hforeign⟩
  refine ⟨hsound, fun other hwaits => ?_, fun other hother => ?_, fun other hhead hlive => ?_⟩
  · have hlive : other ∈ id :: w.conn.live := by simpa only [step, hconn] using hwaits.live
    have hfresh : some other ∉ w.conn.accepted := by simpa only [step, hconn] using hwaits.fresh
    rw [hcame]
    rcases List.mem_cons.mp hlive with rfl | hold
    · rfl
    · have hwaits' : w.conn.Waits other := ⟨hwaits.peer, hold, hfresh⟩
      exact absurd hwaits' (hfree hopen hnew hforeign other (h.conn.waits other hwaits'))
  · rw [hcame] at hother
    simp only [step, hconn]
    rcases List.mem_cons.mp hother with rfl | hold
    · exact ⟨List.mem_cons_self, hunseen⟩
    · exact ⟨List.mem_cons_of_mem id (h.fresh other hold).1, (h.fresh other hold).2⟩
  · rw [hcame] at hhead
    obtain rfl := Option.some.inj hhead
    simp only [step, hconn, QuicDialCtx.onNewStream, if_neg hforeign]

theorem Sound.newStream {w : WatchedConn} (h : w.Sound) {id : Nat} (hfree : PlaceFree w.conn (.newStream id)) :
    (w.step (.newStream id)).Sound := by
  have hsound := h.conn.newStream hfree
  by_cases hnew : w.conn.dial.conn = true ∧ id ∉ w.conn.opened
  · by_cases hlocal : id % 4 = 0
    · exact h.newStream_local hnew.1 hnew.2 hlocal hsound
    · exact h.newStream_peer hnew.1 hnew.2 hlocal hfree hsound
  · have hsame : w.step (.newStream id) = w := by
      have hconn : w.conn.step (.newStream id) = w.conn := if_neg hnew
      have hcame : (w.step (.newStream id)).came = w.came := if_neg fun hall => hnew ⟨hall.1, hall.2.1⟩
      exact congrArg₂ WatchedConn.mk hconn hcame
    rwa [hsame]

theorem Sound.streamClosed {w : WatchedConn} (h : w.Sound) (id : Nat) : (w.step (.streamClosed id)).Sound := by
  have hsound := h.conn.streamClosed id
  by_cases hlive : id ∈ w.conn.live
  · have hconn : w.conn.step (.streamClosed id) = { w.conn with
        dial := w.conn.dial.onClose id, live := w.conn.live.filter (· ≠ id) } := if_pos hlive
    refine ⟨hsound, fun other hwaits => ?_, fun other hother => ?_, fun other hhead hother => ?_⟩
    · have hkept : other ∈ w.conn.live.filter (· ≠ id) := by simpa only [step, hconn] using hwaits.live
      have hfresh : some other ∉ w.conn.accepted := by simpa only [step, hconn] using hwaits.fresh
      exact h.waits other ⟨hwaits.peer, (List.mem_filter.mp hkept).1, hfresh⟩
    · simpa only [step, hconn] using h.fresh other hother
    · have hkept : other ∈ w.conn.live.filter (· ≠ id) := by simpa only [step, hconn] using hother
      obtain ⟨hold, hdiffer⟩ := List.mem_filter.mp hkept
      have hplace := h.place other hhead hold
      simp only [step, hconn, QuicDialCtx.onClose, hplace]
      rw [if_neg]
      simpa using hdiffer
  · have hsame : w.step (.streamClosed id) = w := by
      have hconn : w.conn.step (.streamClosed id) = w.conn := if_neg hlive
      exact congrArg₂ WatchedConn.mk hconn rfl
    rwa [hsame]

theorem Sound.connClosed {w : WatchedConn} (h : w.Sound) : (w.step .connClosed).Sound := by
  have hsound := h.conn.connClosed
  by_cases hopen : w.conn.dial.conn = true
  · have hconn : w.conn.step .connClosed = { w.conn with dial := w.conn.dial.onConnClosed, live := [] } :=
      if_pos hopen
    refine ⟨hsound, fun other hwaits => ?_, fun other hother => ?_, fun other hhead hother => ?_⟩
    · have hnone : other ∈ ([] : List Nat) := by simpa only [step, hconn] using hwaits.live
      exact absurd hnone List.not_mem_nil
    · simpa only [step, hconn] using h.fresh other hother
    · have hnone : other ∈ ([] : List Nat) := by simpa only [step, hconn] using hother
      exact absurd hnone List.not_mem_nil
  · have hsame : w.step .connClosed = w := by
      have hconn : w.conn.step .connClosed = w.conn := if_neg hopen
      exact congrArg₂ WatchedConn.mk hconn rfl
    rwa [hsame]

theorem Sound.accept {w : WatchedConn} (h : w.Sound) (granted : Bool) : (w.step (.accept granted)).Sound := by
  have hsound := h.conn.accept granted
  by_cases hready : (w.conn.dial.inboundReady && granted) = true
  · have hstream : w.conn.dial.acceptStream granted = some w.conn.dial.inboundStream := if_pos hready
    have hconn : w.conn.step (.accept granted) =
        { w.conn with accepted := w.conn.dial.inboundStream :: w.conn.accepted } := by
      rw [DialedConn.step, hstream]
    have hcame : (w.step (.accept granted)).came = [] := by
      rw [step, hstream]
      rfl
    refine ⟨hsound, fun other hwaits => ?_, fun other hother => ?_, fun other hhead _ => ?_⟩
    · have hlive : other ∈ w.conn.live := by simpa only [step, hconn] using hwaits.live
      have hfresh : some other ∉ w.conn.dial.inboundStream :: w.conn.accepted := by
        simpa only [step, hconn] using hwaits.fresh
      rw [List.mem_cons, not_or] at hfresh
      have hplace := h.conn.waits other ⟨hwaits.peer, hlive, hfresh.2⟩
      exact absurd hplace.symm hfresh.1
    · rw [hcame] at hother
      exact absurd hother List.not_mem_nil
    · rw [hcame] at hhead
      cases hhead
  · have hnone : w.conn.dial.acceptStream granted = none := if_neg hready
    have hsame : w.step (.accept granted) = w := by
      rw [step, DialedConn.step, hnone]
      rfl
    rwa [hsame]

theorem Sound.step {w : WatchedConn} (h : w.Sound) {event : DialEvent} (hfree : PlaceFree w.conn event) :
    (w.step event).Sound := by
  cases event with
  | newStream id => exact h.newStream hfree
  | streamClosed id => exact h.streamClosed id
  | connClosed => exact h.connClosed
  | accept granted => exact h.accept granted

end WatchedConn

/-! ### Accepts -/

theorem DialedConn.Sound.allAccepted {s : DialedConn} (hsound : s.Sound) : AllAccepted s := by
  intro id hwaits
  have hplace := hsound.waits id hwaits
  have hready := (hsound.inbound id hplace).2
  refine ⟨1, ?_⟩
  simp [run, DialedConn.step, QuicDialCtx.acceptStream, hready, hplace]

theorem acceptsWaiting_of_free {s : DialedConn} {event : DialEvent} (hfree : PlaceFree s event) :
    AcceptsWaiting s event := by
  cases event with
  | accept granted =>
      intro stream hstream
      rw [QuicDialCtx.acceptStream] at hstream
      split at hstream
      · rename_i hboth
        rw [Bool.and_eq_true] at hboth
        obtain ⟨id, hplace, hwaits⟩ := hfree hboth.1 hboth.2
        exact ⟨id, (Option.some.inj hstream).symm.trans hplace, hwaits⟩
      · cases hstream
  | newStream id => trivial
  | streamClosed id => trivial
  | connClosed => trivial

/-- Accepts alone return what is in the place. -/
theorem accepted_replicate {s : DialedConn} {id : Nat} (count : Nat)
    (hplace : s.dial.inboundStream ≠ some id) (hfresh : some id ∉ s.accepted) :
    some id ∉ (run DialedConn.step s (List.replicate count (.accept true))).accepted := by
  induction count generalizing s with
  | zero => exact hfresh
  | succ count ih =>
      rw [List.replicate_succ, run_cons]
      refine ih ?_ ?_
      · rw [DialedConn.step]
        split <;> exact hplace
      · rw [DialedConn.step, QuicDialCtx.acceptStream]
        split
        · rename_i stream hstream
          split at hstream
          · obtain rfl := Option.some.inj hstream
            rw [List.mem_cons, not_or]
            exact ⟨fun heq => hplace heq.symm, hfresh⟩
          · cases hstream
        · exact hfresh

theorem not_allAccepted_of_pushedOut {s : DialedConn} (hsound : s.Sound) {event : DialEvent}
    (hfree : ¬PlaceFree s event) (haccepts : AcceptsWaiting s event) : ¬AllAccepted (s.step event) := by
  cases event with
  | streamClosed id => exact absurd trivial hfree
  | connClosed => exact absurd trivial hfree
  | accept granted =>
      rw [PlaceFree] at hfree
      push Not at hfree
      obtain ⟨hready, rfl, hnone⟩ := hfree
      obtain ⟨id, hplace, hwaits⟩ := haccepts s.dial.inboundStream (by
        rw [QuicDialCtx.acceptStream, hready]
        rfl)
      exact absurd hwaits (hnone id hplace)
  | newStream id =>
      rw [PlaceFree] at hfree
      push Not at hfree
      obtain ⟨hconn, hnew, hforeign, waiting, hplace, hwaits⟩ := hfree
      intro hall
      have hstep : s.step (.newStream id) = { s with
          dial := s.dial.onNewStream id
          opened := id :: s.opened
          live := id :: s.live } := by
        rw [DialedConn.step, if_pos ⟨hconn, hnew⟩]
      rw [hstep] at hall
      obtain ⟨count, hcount⟩ := hall waiting
        ⟨hwaits.peer, List.mem_cons_of_mem _ hwaits.live, hwaits.fresh⟩
      have hpushed : (s.dial.onNewStream id).inboundStream ≠ some waiting := by
        rw [QuicDialCtx.onNewStream, if_neg hforeign]
        rintro hsame
        obtain rfl := Option.some.inj hsame
        exact hnew (hsound.live id hwaits.live)
      exact accepted_replicate (s := { s with
          dial := s.dial.onNewStream id
          opened := id :: s.opened
          live := id :: s.live }) count hpushed hwaits.fresh hcount

/-- Every accept that succeeds returns a stream of the peer that is open and was not accepted before, and
in every state reached a stream that waits is accepted if there are enough accepts. -/
def AcceptsStreams (events : List DialEvent) : Prop :=
  Along DialedConn.step AcceptsWaiting .start events ∧
    ∀ reached, reached <+: events → AllAccepted (run DialedConn.step .start reached)

theorem acceptsStreams_iff (events : List DialEvent) :
    AcceptsStreams events ↔ Along WatchedConn.step WatchedConn.InTurn .start events := by
  have hconn : ∀ (w : WatchedConn) event, (w.step event).conn = w.conn.step event := fun _ _ => rfl
  have hgood : (Along WatchedConn.step (fun w event => AcceptsWaiting w.conn event) .start events ∧
      ∀ reached, reached <+: events → AllAccepted (run WatchedConn.step .start reached).conn) ↔
        Along WatchedConn.step WatchedConn.InTurn .start events :=
    along_iff_good_steps WatchedConn.step (fun _ hsound => hsound.conn.allAccepted)
      (fun _ event hsound hturn =>
        have hfree := (hsound.inTurn_iff event).mp hturn
        ⟨hsound.step hfree, acceptsWaiting_of_free hfree⟩)
      (fun _ event hsound hturn haccepts => not_allAccepted_of_pushedOut hsound.conn
        (fun hfree => hturn ((hsound.inTurn_iff event).mpr hfree)) haccepts) WatchedConn.sound_start
  rw [← hgood, AcceptsStreams, along_comap hconn]
  simp only [run_comap hconn]
  rfl

/-- The stream is accepted twice, and of two streams that come before an accept the first is lost. -/
theorem not_acceptsStreams :
    ¬AcceptsStreams [.newStream 0, .newStream 1, .accept true, .accept true] ∧
      ¬AcceptsStreams [.newStream 0, .newStream 1, .newStream 5] := by
  constructor
  · intro haccepts
    obtain ⟨id, hid, hwaits⟩ := haccepts.1.2.2.2.1 (some 1) (by decide)
    obtain rfl := Option.some.inj hid
    exact hwaits.fresh (by decide)
  · intro haccepts
    obtain ⟨count, hcount⟩ := haccepts.2 _ (List.prefix_refl _) 1 ⟨by decide, by decide, by decide⟩
    exact accepted_replicate count (by decide) (by decide) hcount

end CLibp2p.Quic
