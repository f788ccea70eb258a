import CLibp2p.Machine.Runs
import CLibp2p.Quic.Listen

/-!
# The references on the connections of a listener

lsquic holds one reference, each open wrapper one, and an open that waits has one for the wrapper it is to
make. A connection in the list of pending ones has no wrapper and no open, so it is lsquic alone that
keeps it, and the close of such a connection leaves a freed node in the list. An open that returns NULL
keeps the reference it took, and an accept without memory drops a connection that lsquic still holds.
-/

namespace CLibp2p.Quic

open Machine

namespace QuicListener

def wrappersOn (s : QuicListener) (c : Nat) : Nat := s.wrappers.countP (·.conn = c)

/-- The references that something holds, an open that waits among them. -/
def refs (s : QuicListener) (c : Nat) : Int :=
  (if (s.conns c).conn then 1 else 0) + s.wrappersOn c + s.opening.count c

/-- Every count is that of the references held, and none that is linked has reached zero. -/
def Counted (s : QuicListener) : Prop :=
  (∀ c, (s.conns c).refCount = s.refs c) ∧ ∀ c ∈ s.pending, 0 < (s.conns c).refCount

/-- No connection is closed while it is pending, an open starts only on a connection that lsquic holds
and ends only with a wrapper, and an accept that finds a connection gets its memory. -/
def Balanced (s : QuicListener) : ListenEvent → Prop
  | .connClosed c => (s.conns c).conn = true → c ∉ s.pending
  | .accept granted => ∀ c, s.findReady = some c → granted = true
  | .openBegin accepted => accepted ∈ s.wrappers → (s.conns accepted.conn).conn = true
  | .openEnd c granted => c ∈ s.opening → s.Opens c granted = true
  | _ => True

/-! ### The invariant -/

structure RefsSound (s : QuicListener) : Prop where
  counted : ∀ c, (s.conns c).refCount = s.refs c
  blank : ∀ c, s.made ≤ c → s.conns c = .blank
  nodup : s.pending.Nodup
  held : ∀ c ∈ s.pending, (s.conns c).conn = true
  unwrapped : ∀ c ∈ s.pending, s.wrappersOn c = 0
  unopened : ∀ c ∈ s.pending, c ∉ s.opening

theorem refsSound_start : start.RefsSound where
  counted := fun c => rfl
  blank := fun c _ => rfl
  nodup := List.nodup_nil
  held := by simp [start]
  unwrapped := by simp [start]
  unopened := by simp [start]

namespace RefsSound

variable {s : QuicListener} (hsound : s.RefsSound)
include hsound

/-- A pending connection has the reference of lsquic. -/
theorem refCount_pending {c : Nat} (hpending : c ∈ s.pending) : (s.conns c).refCount = 1 := by
  rw [hsound.counted, refs, if_pos (hsound.held c hpending), hsound.unwrapped c hpending,
    List.count_eq_zero.mpr (hsound.unopened c hpending)]
  rfl

theorem toCounted : s.Counted := by
  refine ⟨hsound.counted, fun c hpending => ?_⟩
  rw [hsound.refCount_pending hpending]
  exact Int.one_pos

end RefsSound

/-! ### Steps -/

@[simp] theorem update_conns (s : QuicListener) (c : Nat) (lc : QuicListenConn) :
    (s.update c lc).conns = Function.update s.conns c lc := rfl

theorem wrappersOn_hand (s : QuicListener) (c other : Nat) :
    (s.hand c).wrappersOn other = s.wrappersOn other + if c = other then 1 else 0 := by
  rw [wrappersOn, hand, List.countP_cons]
  simp [wrappersOn]

theorem countP_erase_add {α : Type} [DecidableEq α] {items : List α} {item : α} (hitem : item ∈ items)
    (p : α → Bool) : (items.erase item).countP p + (if p item then 1 else 0) = items.countP p := by
  rw [(List.perm_cons_erase hitem).countP_eq p, List.countP_cons]

theorem wrappersOn_close {s : QuicListener} {wrapper : QuicListenStreamCtx}
    (hopen : wrapper ∈ s.wrappers) (other : Nat) :
    (s.close wrapper).wrappersOn other + (if wrapper.conn = other then 1 else 0) = s.wrappersOn other := by
  have hadd := countP_erase_add hopen fun w => decide (w.conn = other)
  simpa [wrappersOn, close] using hadd

theorem count_opening_erase {s : QuicListener} {c : Nat} (hopening : c ∈ s.opening) (other : Nat) :
    (s.opening.erase c).count other + (if c = other then 1 else 0) = s.opening.count other := by
  have hadd := countP_erase_add hopening (· == other)
  simpa [List.count] using hadd

theorem wrappersOn_pos {s : QuicListener} {wrapper : QuicListenStreamCtx} (hopen : wrapper ∈ s.wrappers) :
    0 < s.wrappersOn wrapper.conn :=
  List.countP_pos_iff.mpr ⟨wrapper, hopen, by simp⟩

/-- Of a step that changes one connection, the counts need to be looked at there only. -/
theorem counted_of_update {s s' : QuicListener} (hsound : s.RefsSound) {c : Nat} {lc : QuicListenConn}
    (hconns : s'.conns = Function.update s.conns c lc)
    (hself : lc.refCount = (if lc.conn then 1 else 0) + s'.wrappersOn c + s'.opening.count c)
    (hother : ∀ other, other ≠ c → s'.wrappersOn other = s.wrappersOn other ∧
      s'.opening.count other = s.opening.count other) (other : Nat) :
    (s'.conns other).refCount = s'.refs other := by
  rw [refs, hconns]
  by_cases heq : other = c
  · rw [heq, Function.update_self]
    exact hself
  · obtain ⟨hwrappers, hopening⟩ := hother other heq
    rw [Function.update_of_ne heq, hwrappers, hopening]
    exact hsound.counted other

theorem lt_made_of_refs {s : QuicListener} (hsound : s.RefsSound) {c : Nat} (hrefs : 0 < s.refs c) :
    c < s.made := by
  by_contra hlarge
  rw [← hsound.counted, hsound.blank c (Nat.le_of_not_lt hlarge)] at hrefs
  exact absurd hrefs (by decide)

theorem lt_made_of_held {s : QuicListener} (hsound : s.RefsSound) {c : Nat}
    (hheld : (s.conns c).conn = true) : c < s.made := by
  refine lt_made_of_refs hsound ?_
  rw [refs, if_pos hheld]
  omega

theorem lt_made_of_wrapper {s : QuicListener} (hsound : s.RefsSound) {wrapper : QuicListenStreamCtx}
    (hopen : wrapper ∈ s.wrappers) : wrapper.conn < s.made := by
  have hpos := wrappersOn_pos hopen
  refine lt_made_of_refs hsound ?_
  rw [refs]
  split <;> omega

theorem blank_of_update {s : QuicListener} (hsound : s.RefsSound) {c : Nat} (lc : QuicListenConn)
    (hmade : c < s.made) (other : Nat) (hlarge : s.made ≤ other) :
    Function.update s.conns c lc other = .blank := by
  rw [Function.update_of_ne (by omega)]
  exact hsound.blank other hlarge

/-- What is pending stays held, if the changed connection is not pending. -/
theorem held_of_update {s : QuicListener} (hsound : s.RefsSound) {c : Nat} (lc : QuicListenConn)
    (hc : c ∈ s.pending → lc.conn = true) (other : Nat) (hpending : other ∈ s.pending) :
    (Function.update s.conns c lc other).conn = true := by
  by_cases heq : other = c
  · subst heq
    rw [Function.update_self]
    exact hc hpending
  · rw [Function.update_of_ne heq]
    exact hsound.held other hpending

/-- A callback that leaves the count and the connection as they are. -/
theorem RefsSound.update_same {s : QuicListener} (hsound : s.RefsSound) {c : Nat} {lc : QuicListenConn}
    (hheld : (s.conns c).conn = true) (hcount : lc.refCount = (s.conns c).refCount)
    (hconn : lc.conn = true) : (s.update c lc).RefsSound where
  counted := by
    refine counted_of_update hsound rfl ?_ fun other _ => ⟨rfl, rfl⟩
    rw [hcount, hsound.counted, refs, hheld, hconn]
    rfl
  blank := blank_of_update hsound lc (lt_made_of_held hsound hheld)
  nodup := hsound.nodup
  held := held_of_update hsound lc fun _ => hconn
  unwrapped := hsound.unwrapped
  unopened := hsound.unopened

theorem RefsSound.newConn {s : QuicListener} (hsound : s.RefsSound) : s.newConn.RefsSound := by
  have hrefs : s.refs s.made = 0 := by
    rw [← hsound.counted, hsound.blank _ (Nat.le_refl _)]
    rfl
  have hnone : s.wrappersOn s.made = 0 ∧ s.opening.count s.made = 0 := by
    rw [refs] at hrefs
    split at hrefs <;> omega
  have hnew : s.made ∉ s.pending := by
    intro hpending
    exact absurd (lt_made_of_held hsound (hsound.held _ hpending)) (Nat.lt_irrefl _)
  constructor
  · refine counted_of_update hsound rfl ?_ fun other _ => ⟨rfl, rfl⟩
    have hwrappers : s.newConn.wrappersOn s.made = 0 := hnone.1
    have hopening : s.newConn.opening.count s.made = 0 := hnone.2
    rw [hwrappers, hopening]
    rfl
  · intro c hlarge
    have hlarge : s.made + 1 ≤ c := hlarge
    have hne : c ≠ s.made := by omega
    rw [QuicListener.newConn, update_conns, Function.update_of_ne hne]
    exact hsound.blank c (by omega)
  · exact List.nodup_cons.mpr ⟨hnew, hsound.nodup⟩
  · intro c hpending
    rw [QuicListener.newConn, update_conns]
    rcases List.mem_cons.mp hpending with rfl | hpending
    · rw [Function.update_self]
      rfl
    · exact held_of_update hsound .onNewConn (fun _ => rfl) c hpending
  · intro c hpending
    rcases List.mem_cons.mp hpending with rfl | hpending
    · exact hnone.1
    · exact hsound.unwrapped c hpending
  · intro c hpending
    rcases List.mem_cons.mp hpending with rfl | hpending
    · exact List.count_eq_zero.mp hnone.2
    · exact hsound.unopened c hpending

theorem RefsSound.connClosed {s : QuicListener} (hsound : s.RefsSound) {c : Nat}
    (hheld : (s.conns c).conn = true) (hpending : c ∉ s.pending) :
    (s.update c (s.conns c).onConnClosed).RefsSound where
  counted := by
    refine counted_of_update hsound rfl ?_ fun other _ => ⟨rfl, rfl⟩
    have hcount := hsound.counted c
    rw [refs, if_pos hheld] at hcount
    have hwrappers : (s.update c (s.conns c).onConnClosed).wrappersOn c = s.wrappersOn c := rfl
    have hopening : (s.update c (s.conns c).onConnClosed).opening = s.opening := rfl
    rw [hwrappers, hopening]
    simp only [QuicListenConn.onConnClosed, QuicListenConn.release, Bool.false_eq_true, if_false]
    omega
  blank := blank_of_update hsound _ (lt_made_of_held hsound hheld)
  nodup := hsound.nodup
  held := held_of_update hsound _ fun hin => absurd hin hpending
  unwrapped := hsound.unwrapped
  unopened := hsound.unopened

theorem findReady_pending {s : QuicListener} {c : Nat} (hready : s.findReady = some c) :
    c ∈ s.pending :=
  List.mem_of_find?_eq_some hready

theorem RefsSound.accept {s : QuicListener} (hsound : s.RefsSound) {c : Nat} (hpending : c ∈ s.pending) :
    (s.acceptReady c true).RefsSound := by
  have hheld := hsound.held c hpending
  have hmade := lt_made_of_held hsound hheld
  have hwrappers (other : Nat) :
      (s.acceptReady c true).wrappersOn other = s.wrappersOn other + if c = other then 1 else 0 := by
    rw [acceptReady, if_pos rfl, wrappersOn_hand]
    rfl
  constructor
  · refine counted_of_update hsound rfl ?_ fun other hne => ⟨?_, rfl⟩
    · have hopening : (s.acceptReady c true).opening = s.opening := rfl
      rw [hwrappers, hopening, if_pos rfl, hsound.counted, refs, hheld]
      push_cast
      omega
    · rw [hwrappers, if_neg (Ne.symm hne)]
      rfl
  · exact blank_of_update hsound _ hmade
  · exact hsound.nodup.erase c
  · intro other hother
    have hpending := List.mem_of_mem_erase hother
    exact held_of_update hsound { s.conns c with refCount := (s.conns c).refCount + 1 }
      (fun _ => hheld) other hpending
  · intro other hother
    obtain ⟨hne, hother⟩ := hsound.nodup.mem_erase_iff.mp hother
    rw [hwrappers, if_neg (Ne.symm hne)]
    exact hsound.unwrapped other hother
  · exact fun other hother => hsound.unopened other (List.mem_of_mem_erase hother)

theorem RefsSound.openBegin {s : QuicListener} (hsound : s.RefsSound) {accepted : QuicListenStreamCtx}
    (hopen : accepted ∈ s.wrappers) (hheld : (s.conns accepted.conn).conn = true) :
    (s.openBegin accepted.conn).RefsSound := by
  have hpending : accepted.conn ∉ s.pending := by
    intro hpending
    have hnone := hsound.unwrapped _ hpending
    have hpos := wrappersOn_pos hopen
    omega
  rw [QuicListener.openBegin, if_pos hheld]
  constructor
  · refine counted_of_update hsound rfl ?_ fun other hne => ⟨rfl, List.count_cons_of_ne (Ne.symm hne)⟩
    have hcount := hsound.counted accepted.conn
    rw [refs, if_pos hheld] at hcount
    have hconn : (s.conns accepted.conn).openBegin.conn = true := hheld
    have hrefs : (s.conns accepted.conn).openBegin.refCount = (s.conns accepted.conn).refCount + 1 := rfl
    rw [if_pos hconn, List.count_cons_self, hrefs, hcount]
    push_cast
    exact Int.add_assoc _ _ _
  · exact blank_of_update hsound _ (lt_made_of_held hsound hheld)
  · exact hsound.nodup
  · exact held_of_update hsound _ fun hin => absurd hin hpending
  · exact hsound.unwrapped
  · intro other hother
    rw [List.mem_cons, not_or]
    exact ⟨fun heq => hpending (heq ▸ hother), hsound.unopened other hother⟩

theorem RefsSound.openEnd {s : QuicListener} (hsound : s.RefsSound) {c : Nat} {granted : Bool}
    (hopening : c ∈ s.opening) (hopens : s.Opens c granted = true) : (s.openEnd c granted).RefsSound := by
  have hpending : c ∉ s.pending := fun hin => hsound.unopened c hin hopening
  have hwrappers (other : Nat) :
      (s.openEnd c granted).wrappersOn other = s.wrappersOn other + if c = other then 1 else 0 := by
    rw [QuicListener.openEnd, if_pos hopens, wrappersOn_hand]
    rfl
  have hend : (s.openEnd c granted).opening = s.opening.erase c := by
    rw [QuicListener.openEnd, if_pos hopens]
    rfl
  have hconns : (s.openEnd c granted).conns = s.conns := by
    rw [QuicListener.openEnd, if_pos hopens]
    rfl
  have hlist : (s.openEnd c granted).pending = s.pending := by
    rw [QuicListener.openEnd, if_pos hopens]
    rfl
  constructor
  · intro other
    have hless := count_opening_erase hopening other
    rw [refs, hwrappers, hend, hconns, hsound.counted, refs, ← hless]
    push_cast
    omega
  · intro other hlarge
    rw [hconns]
    refine hsound.blank other ?_
    rwa [QuicListener.openEnd, if_pos hopens] at hlarge
  · rw [hlist]
    exact hsound.nodup
  · intro other hother
    rw [hlist] at hother
    rw [hconns]
    exact hsound.held other hother
  · intro other hother
    rw [hlist] at hother
    have hne : c ≠ other := fun heq => hpending (heq ▸ hother)
    rw [hwrappers, if_neg hne]
    exact hsound.unwrapped other hother
  · intro other hother hin
    rw [hlist] at hother
    rw [hend] at hin
    exact hsound.unopened other hother (List.mem_of_mem_erase hin)

theorem RefsSound.close {s : QuicListener} (hsound : s.RefsSound) {wrapper : QuicListenStreamCtx}
    (hopen : wrapper ∈ s.wrappers) : (s.close wrapper).RefsSound := by
  have hpos := wrappersOn_pos hopen
  have hpending : wrapper.conn ∉ s.pending := by
    intro hpending
    have hnone := hsound.unwrapped _ hpending
    omega
  constructor
  · refine counted_of_update hsound rfl ?_ fun other hne => ⟨?_, rfl⟩
    · have hself := wrappersOn_close hopen wrapper.conn
      rw [if_pos rfl] at hself
      have hcount := hsound.counted wrapper.conn
      rw [refs] at hcount
      have hconn : (s.conns wrapper.conn).onClose.conn = (s.conns wrapper.conn).conn := rfl
      have hrefs : (s.conns wrapper.conn).onClose.refCount = (s.conns wrapper.conn).refCount - 1 := rfl
      have hopening : (s.close wrapper).opening = s.opening := rfl
      rw [hconn, hrefs, hopening, hcount, ← hself]
      push_cast
      omega
    · have hsame := wrappersOn_close hopen other
      rwa [if_neg (Ne.symm hne)] at hsame
  · exact blank_of_update hsound _ (lt_made_of_wrapper hsound hopen)
  · exact hsound.nodup
  · exact held_of_update hsound _ fun hin => absurd hin hpending
  · intro other hother
    have hsame := wrappersOn_close hopen other
    rw [hsound.unwrapped other hother] at hsame
    omega
  · exact hsound.unopened

theorem RefsSound.step {s : QuicListener} (hsound : s.RefsSound) {event : ListenEvent}
    (hbalanced : s.Balanced event) : (s.step event).RefsSound := by
  cases event with
  | newConn granted =>
      rw [QuicListener.step]
      split
      · exact hsound.newConn
      · exact hsound
  | connClosed c =>
      rw [QuicListener.step]
      split
      · rename_i hheld
        exact hsound.connClosed hheld (hbalanced hheld)
      · exact hsound
  | hskDone c ok =>
      rw [QuicListener.step]
      split
      · rename_i hheld
        exact hsound.update_same hheld rfl hheld
      · exact hsound
  | newStream c outbound =>
      rw [QuicListener.step]
      split
      · rename_i hcomes
        have hsame : (s.update c ((s.conns c).onNewStream s.streams)).RefsSound :=
          hsound.update_same hcomes.1 rfl hcomes.1
        exact ⟨hsame.counted, hsame.blank, hsame.nodup, hsame.held, hsame.unwrapped, hsame.unopened⟩
      · exact hsound
  | accept granted =>
      rw [QuicListener.step]
      split
      · rename_i c hready
        obtain rfl := hbalanced c hready
        exact hsound.accept (findReady_pending hready)
      · exact hsound
  | openBegin accepted =>
      rw [QuicListener.step]
      split
      · rename_i hopen
        exact hsound.openBegin hopen (hbalanced hopen)
      · exact hsound
  | openEnd c granted =>
      rw [QuicListener.step]
      split
      · rename_i hopening
        exact hsound.openEnd hopening (hbalanced hopening)
      · exact hsound
  | close wrapper =>
      rw [QuicListener.step]
      split
      · rename_i hopen
        exact hsound.close hopen
      · exact hsound

/-! ### What loses the count -/

/-- The node of a pending connection that lsquic closes has no reference and is still linked. -/
theorem not_counted_connClosed {s : QuicListener} (hsound : s.RefsSound) {c : Nat}
    (hheld : (s.conns c).conn = true) (hpending : c ∈ s.pending) :
    ¬(s.step (.connClosed c)).Counted := by
  rintro ⟨-, hlinked⟩
  rw [QuicListener.step, if_pos hheld] at hlinked
  have hpos := hlinked c hpending
  rw [update_conns, Function.update_self] at hpos
  have hzero : (s.conns c).onConnClosed.refCount = (s.conns c).refCount - 1 := rfl
  rw [hzero, hsound.refCount_pending hpending] at hpos
  exact absurd hpos (by decide)

/-- An accept that finds a connection and has no memory for it drops the one reference, which is lsquic's. -/
theorem not_counted_accept {s : QuicListener} (hsound : s.RefsSound) {c : Nat}
    (hready : s.findReady = some c) : ¬(s.step (.accept false)).Counted := by
  have hpending := findReady_pending hready
  have hfreed : s.step (.accept false) = s.acceptReady c false := by
    rw [QuicListener.step, hready]
  rintro ⟨hcounted, -⟩
  rw [hfreed] at hcounted
  have hcount := hcounted c
  have hwrappers : (s.acceptReady c false).wrappersOn c = s.wrappersOn c := rfl
  have hopening : (s.acceptReady c false).opening = s.opening := rfl
  rw [refs, hwrappers, hopening, hsound.unwrapped c hpending,
    List.count_eq_zero.mpr (hsound.unopened c hpending)] at hcount
  simp only [acceptReady, Bool.false_eq_true, if_false, update_conns, Function.update_self,
    hsound.held c hpending, if_true, hsound.refCount_pending hpending] at hcount
  exact absurd hcount (by decide)

/-- An open on a connection that is gone keeps the reference it took first. -/
theorem not_counted_openBegin {s : QuicListener} (hsound : s.RefsSound) {accepted : QuicListenStreamCtx}
    (hopen : accepted ∈ s.wrappers) (hclosed : ¬(s.conns accepted.conn).conn = true) :
    ¬(s.step (.openBegin accepted)).Counted := by
  rintro ⟨hcounted, -⟩
  rw [QuicListener.step, if_pos hopen, QuicListener.openBegin, if_neg hclosed] at hcounted
  have hcount := hcounted accepted.conn
  have hbefore := hsound.counted accepted.conn
  have hconn : ¬(s.conns accepted.conn).openBegin.conn = true := hclosed
  have hrefs : (s.conns accepted.conn).openBegin.refCount = (s.conns accepted.conn).refCount + 1 := rfl
  rw [refs, update_conns, Function.update_self, if_neg hconn, hrefs, hbefore, refs,
    if_neg hclosed] at hcount
  exact absurd hcount (Int.ne_of_gt (Int.lt_add_one_iff.mpr (Int.le_refl _)))

/-- So does an open that ends without a wrapper. -/
theorem not_counted_openEnd {s : QuicListener} (hsound : s.RefsSound) {c : Nat} {granted : Bool}
    (hopening : c ∈ s.opening) (hfails : ¬s.Opens c granted = true) :
    ¬(s.step (.openEnd c granted)).Counted := by
  rintro ⟨hcounted, -⟩
  rw [QuicListener.step, if_pos hopening, QuicListener.openEnd, if_neg hfails] at hcounted
  have hcount := hcounted c
  have hbefore := hsound.counted c
  have hless := count_opening_erase hopening c
  have hwrappers : ({ s with opening := s.opening.erase c } : QuicListener).wrappersOn c
      = s.wrappersOn c := rfl
  rw [if_pos rfl] at hless
  rw [refs, hwrappers, hbefore, refs, ← hless] at hcount
  push_cast at hcount
  omega

theorem not_counted_of_unbalanced {s : QuicListener} (hsound : s.RefsSound) {event : ListenEvent}
    (hunbalanced : ¬s.Balanced event) : ¬(s.step event).Counted := by
  cases event with
  | newConn granted => exact absurd trivial hunbalanced
  | hskDone c ok => exact absurd trivial hunbalanced
  | newStream c outbound => exact absurd trivial hunbalanced
  | close wrapper => exact absurd trivial hunbalanced
  | connClosed c =>
      rw [Balanced] at hunbalanced
      push Not at hunbalanced
      exact not_counted_connClosed hsound hunbalanced.1 hunbalanced.2
  | accept granted =>
      rw [Balanced] at hunbalanced
      push Not at hunbalanced
      obtain ⟨c, hready, hgranted⟩ := hunbalanced
      obtain rfl : granted = false := by simpa using hgranted
      exact not_counted_accept hsound hready
  | openBegin accepted =>
      rw [Balanced] at hunbalanced
      push Not at hunbalanced
      exact not_counted_openBegin hsound hunbalanced.1 hunbalanced.2
  | openEnd c granted =>
      rw [Balanced] at hunbalanced
      push Not at hunbalanced
      exact not_counted_openEnd hsound hunbalanced.1 hunbalanced.2

/-- The counts are those of the references after each step. -/
def CountsRefs (events : List ListenEvent) : Prop :=
  ∀ reached, reached <+: events → (run step start reached).Counted

theorem countsRefs_iff (events : List ListenEvent) :
    CountsRefs events ↔ Along step Balanced start events :=
  along_iff_good step (fun _ hsound => hsound.toCounted) (fun _ _ hsound hbalanced => hsound.step hbalanced)
    (fun _ _ hsound hunbalanced => not_counted_of_unbalanced hsound hunbalanced) refsSound_start

/-- A connection is closed while it is pending; an open waits until it gives up. -/
theorem not_countsRefs :
    ¬CountsRefs [.newConn true, .connClosed 0] ∧
      ¬CountsRefs [.newConn true, .hskDone 0 true, .newStream 0 false, .accept true,
        .openBegin ⟨0, some 0⟩, .openEnd 0 true] := by
  constructor
  · intro hcounts
    exact absurd ((hcounts _ (List.prefix_refl _)).2 0 (by decide)) (by decide)
  · intro hcounts
    exact absurd ((hcounts _ (List.prefix_refl _)).1 0) (by decide)

end QuicListener

end CLibp2p.Quic
