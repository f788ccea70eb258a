import CLibp2p.Machine.Runs
import CLibp2p.Quic.Listen

/-!
# Which streams an open returns

A stream goes to the one place of its connection, whoever initiated it. What comes of it depends on the
order of the events alone: the place is safe as long as each stream of the peer is handed over before the
next stream of its connection comes and before an open starts there, and none comes while one waits.
-/

namespace CLibp2p.Quic

open Machine

namespace QuicListener

/-- The stream of the peer that an event brings, with its connection. -/
def peerStream (s : QuicListener) : ListenEvent → Option (Nat × Nat)
  | .newStream c false => if (s.conns c).conn then some (c, s.streams) else none
  | _ => none

/-- An open that returns a wrapper returns a stream that this side initiated. -/
def ReturnsLocal (s : QuicListener) : ListenEvent → Prop
  | .openEnd c granted => ∀ wrapper, (s.step (.openEnd c granted)).wrappers = wrapper :: s.wrappers →
      ∃ id, wrapper.lsStream = some id ∧ id ∈ s.locals
  | _ => True

end QuicListener

/-- A listener with the streams of the peer that came so far. -/
structure Watched where
  listener : QuicListener
  came : List (Nat × Nat)

namespace Watched

def start : Watched := ⟨.start, []⟩

def step (w : Watched) (event : ListenEvent) : Watched :=
  ⟨w.listener.step event, (w.listener.peerStream event).toList ++ w.came⟩

/-- Every stream of the peer is in its place or was handed to the application. -/
def Kept (w : Watched) : Prop :=
  ∀ c id, (c, id) ∈ w.came → (w.listener.conns c).stream = some id ∨ id ∈ w.listener.handed

/-- Every stream of the peer that came on a connection was handed to the application. -/
def AllHanded (w : Watched) (c : Nat) : Prop := ∀ id, (c, id) ∈ w.came → id ∈ w.listener.handed

/-- A stream comes, and an open starts, only on a connection all of whose streams of the peer were handed
over, and a stream of the peer comes only where no open waits. -/
def InTurn (w : Watched) : ListenEvent → Prop
  | .newStream c outbound => (w.listener.conns c).conn = true → (outbound = true → c ∈ w.listener.asked) →
      w.AllHanded c ∧ (outbound = false → c ∉ w.listener.opening)
  | .openBegin accepted => accepted ∈ w.listener.wrappers → w.AllHanded accepted.conn
  | _ => True

/-- Nothing was overwritten, and an open that stops waiting now returns only a stream that this side initiated. -/
def Safe (w : Watched) : Prop := w.Kept ∧ ∀ c, w.listener.ReturnsLocal (.openEnd c true)

/-- Each open of the run returns only a stream that this side initiated, and in no state reached a stream of
the peer is overwritten that was not handed over. -/
def StreamsKept (events : List ListenEvent) : Prop :=
  Along step (fun w event => w.listener.ReturnsLocal event) start events ∧
    ∀ reached, reached <+: events → (run step start reached).Kept

/-! ### What the events keep -/

/-- Streams are numbered as they come, and those of the peer are not ours. While an open waits the place of
its connection is empty or has a stream of this side. -/
structure Ordered (w : Watched) : Prop where
  known : ∀ c, (w.listener.conns c).conn = true → c < w.listener.made
  local_lt : ∀ id ∈ w.listener.locals, id < w.listener.streams
  came_lt : ∀ c id, (c, id) ∈ w.came → c < w.listener.made ∧ id < w.listener.streams
  kept : w.Kept
  waiting : ∀ c ∈ w.listener.opening, ∀ id, (w.listener.conns c).stream = some id → id ∈ w.listener.locals

/-- A step that brings no stream and starts no open. -/
structure Calm (s s' : QuicListener) : Prop where
  conn : ∀ c, (s'.conns c).conn = true → (s.conns c).conn = true
  place : ∀ c, (s'.conns c).stream = (s.conns c).stream
  made : s'.made = s.made
  streams : s'.streams = s.streams
  locals : s'.locals = s.locals
  opening : s'.opening ⊆ s.opening
  handed : s.handed ⊆ s'.handed

variable {s s' s'' : QuicListener} {w : Watched} {event : ListenEvent} {events : List ListenEvent} {c : Nat}
  {lc : QuicListenConn}

theorem Calm.refl (s : QuicListener) : Calm s s :=
  ⟨fun _ h => h, fun _ => rfl, rfl, rfl, rfl, fun _ h => h, fun _ h => h⟩

theorem Calm.trans (h : Calm s s') (h' : Calm s' s'') : Calm s s'' where
  conn c hconn := h.conn c (h'.conn c hconn)
  place c := (h'.place c).trans (h.place c)
  made := h'.made.trans h.made
  streams := h'.streams.trans h.streams
  locals := h'.locals.trans h.locals
  opening := List.Subset.trans h'.opening h.opening
  handed := List.Subset.trans h.handed h'.handed

theorem conns_update_self : (s.update c lc).conns c = lc := Function.update_self _ _ _

theorem conns_update_of_ne {other : Nat} (hne : other ≠ c) : (s.update c lc).conns other = s.conns other :=
  Function.update_of_ne hne _ _

theorem calm_update (hconn : lc.conn = true → (s.conns c).conn = true) (hstream : lc.stream = (s.conns c).stream) :
    Calm s (s.update c lc) := by
  refine ⟨fun other h => ?_, fun other => ?_, rfl, rfl, rfl, fun _ h => h, fun _ h => h⟩
  · by_cases heq : other = c
    · rw [heq, conns_update_self] at h
      rw [heq]
      exact hconn h
    · rwa [conns_update_of_ne heq] at h
  · by_cases heq : other = c
    · rw [heq, conns_update_self, hstream]
    · rw [conns_update_of_ne heq]

theorem calm_hand (s : QuicListener) (c : Nat) : Calm s (s.hand c) :=
  ⟨fun _ h => h, fun _ => rfl, rfl, rfl, rfl, fun _ h => h, List.subset_append_right _ _⟩

theorem calm_acceptReady (s : QuicListener) (c : Nat) (granted : Bool) : Calm s (s.acceptReady c granted) := by
  have htaken : Calm s { s.update c { s.conns c with refCount := (s.conns c).refCount + 1 } with
      pending := s.pending.erase c } := by
    obtain ⟨hconn, hplace, hmade, hstreams, hlocals, hopening, hhanded⟩ :=
      @calm_update s c { s.conns c with refCount := (s.conns c).refCount + 1 } (fun h => h) rfl
    exact ⟨hconn, hplace, hmade, hstreams, hlocals, hopening, hhanded⟩
  cases granted with
  | true => exact htaken.trans (calm_hand _ c)
  | false => exact htaken.trans (calm_update (by simp [QuicListener.update]) (by simp [QuicListener.update]))

theorem calm_openEnd (s : QuicListener) (c : Nat) (granted : Bool) : Calm s (s.openEnd c granted) := by
  have hwoken : Calm s { s with opening := s.opening.erase c } :=
    ⟨fun _ h => h, fun _ => rfl, rfl, rfl, rfl, List.erase_subset, fun _ h => h⟩
  rw [QuicListener.openEnd]
  split
  · exact hwoken.trans (calm_hand _ c)
  · exact hwoken

theorem calm_close (s : QuicListener) (wrapper : QuicListenStreamCtx) : Calm s (s.close wrapper) := by
  obtain ⟨hconn, hplace, hmade, hstreams, hlocals, hopening, hhanded⟩ :=
    @calm_update s wrapper.conn (s.conns wrapper.conn).onClose (fun h => h) rfl
  exact ⟨hconn, hplace, hmade, hstreams, hlocals, hopening, hhanded⟩

theorem Ordered.calm (h : w.Ordered) (hcalm : Calm w.listener s') : Ordered ⟨s', w.came⟩ where
  known c hconn := by
    rw [hcalm.made]
    exact h.known c (hcalm.conn c hconn)
  local_lt id hid := by
    rw [hcalm.locals] at hid
    rw [hcalm.streams]
    exact h.local_lt id hid
  came_lt c id hcame := by
    rw [hcalm.made, hcalm.streams]
    exact h.came_lt c id hcame
  kept c id hcame := by
    rw [hcalm.place c]
    exact (h.kept c id hcame).imp_right fun hhanded => hcalm.handed hhanded
  waiting c hc id hplace := by
    rw [hcalm.place c] at hplace
    rw [hcalm.locals]
    exact h.waiting c (hcalm.opening hc) id hplace

theorem Ordered.newConn (h : w.Ordered) : Ordered ⟨w.listener.newConn, w.came⟩ where
  known c hconn := by
    show c < w.listener.made + 1
    by_cases heq : c = w.listener.made
    · omega
    · rw [QuicListener.newConn, QuicListener.update] at hconn
      dsimp only at hconn
      rw [Function.update_of_ne heq] at hconn
      exact Nat.lt_succ_of_lt (h.known c hconn)
  local_lt := h.local_lt
  came_lt c id hcame := ⟨Nat.lt_succ_of_lt (h.came_lt c id hcame).1, (h.came_lt c id hcame).2⟩
  kept c id hcame := by
    have hne : c ≠ w.listener.made := Nat.ne_of_lt (h.came_lt c id hcame).1
    have hsame : w.listener.newConn.conns c = w.listener.conns c := Function.update_of_ne hne _ _
    show (w.listener.newConn.conns c).stream = some id ∨ id ∈ w.listener.handed
    rw [hsame]
    exact h.kept c id hcame
  waiting c hc id hplace := by
    by_cases heq : c = w.listener.made
    · rw [QuicListener.newConn, QuicListener.update] at hplace
      dsimp only at hplace
      rw [heq, Function.update_self] at hplace
      cases hplace
    · have hsame : w.listener.newConn.conns c = w.listener.conns c := Function.update_of_ne heq _ _
      exact h.waiting c hc id (by rwa [← hsame])

theorem conns_newStream_self (s : QuicListener) (c : Nat) (outbound : Bool) :
    (s.newStream c outbound).conns c = (s.conns c).onNewStream s.streams := Function.update_self _ _ _

theorem conns_newStream_of_ne {other : Nat} (hne : other ≠ c) (outbound : Bool) :
    (s.newStream c outbound).conns other = s.conns other := Function.update_of_ne hne _ _

theorem locals_newStream (s : QuicListener) (c : Nat) (outbound : Bool) :
    s.locals ⊆ (s.newStream c outbound).locals := by
  cases outbound with
  | true => exact List.subset_cons_self _ _
  | false => exact List.Subset.refl _

/-- The only stream of the peer that is new is the one that comes. -/
theorem came_newStream (hconn : (w.listener.conns c).conn = true) {outbound : Bool} {other id : Nat}
    (hmem : (other, id) ∈ (w.step (.newStream c outbound)).came) :
    (outbound = false ∧ other = c ∧ id = w.listener.streams) ∨ (other, id) ∈ w.came := by
  rcases List.mem_append.mp hmem with hnew | hold
  · cases outbound with
    | true => cases hnew
    | false =>
        rw [QuicListener.peerStream, if_pos hconn] at hnew
        obtain ⟨rfl, rfl⟩ := Prod.mk.inj (List.mem_singleton.mp hnew)
        exact Or.inl ⟨rfl, rfl, rfl⟩
  · exact Or.inr hold

theorem Ordered.newStream (h : w.Ordered) {outbound : Bool} (hconn : (w.listener.conns c).conn = true)
    (hasked : outbound = true → c ∈ w.listener.asked) (hhanded : w.AllHanded c)
    (hcalm : outbound = false → c ∉ w.listener.opening) : (w.step (.newStream c outbound)).Ordered := by
  have hstep : (w.step (.newStream c outbound)).listener = w.listener.newStream c outbound := if_pos ⟨hconn, hasked⟩
  refine ⟨fun other hother => ?_, fun id hid => ?_, fun other id hmem => ?_, fun other id hmem => ?_,
    fun other hother id hplace => ?_⟩
  · rw [hstep] at hother ⊢
    by_cases heq : other = c
    · rw [heq]
      exact h.known c hconn
    · rw [conns_newStream_of_ne heq] at hother
      exact h.known other hother
  · rw [hstep] at hid ⊢
    show id < w.listener.streams + 1
    cases outbound with
    | true =>
        rcases List.mem_cons.mp hid with rfl | hold
        · exact Nat.lt_succ_self _
        · exact Nat.lt_succ_of_lt (h.local_lt id hold)
    | false => exact Nat.lt_succ_of_lt (h.local_lt id hid)
  · rw [hstep]
    show other < w.listener.made ∧ id < w.listener.streams + 1
    rcases came_newStream hconn hmem with ⟨-, rfl, rfl⟩ | hold
    · exact ⟨h.known other hconn, Nat.lt_succ_self _⟩
    · exact ⟨(h.came_lt other id hold).1, Nat.lt_succ_of_lt (h.came_lt other id hold).2⟩
  · rw [hstep]
    rcases came_newStream hconn hmem with ⟨-, rfl, rfl⟩ | hold
    · left
      rw [conns_newStream_self]
      rfl
    · by_cases heq : other = c
      · subst heq
        exact Or.inr (hhanded id hold)
      · rw [conns_newStream_of_ne heq]
        exact h.kept other id hold
  · rw [hstep] at hother hplace ⊢
    by_cases heq : other = c
    · subst heq
      cases outbound with
      | true =>
          rw [conns_newStream_self] at hplace
          obtain rfl := Option.some.inj hplace
          exact List.mem_cons_self
      | false => exact absurd hother (hcalm rfl)
    · rw [conns_newStream_of_ne heq] at hplace
      exact locals_newStream _ _ _ (h.waiting other hother id hplace)

theorem Ordered.openBegin (h : w.Ordered) (hhanded : w.AllHanded c) :
    Ordered ⟨w.listener.openBegin c, w.came⟩ := by
  have hconns : (w.listener.openBegin c).conns =
      Function.update w.listener.conns c (w.listener.conns c).openBegin := by
    rw [QuicListener.openBegin]
    split <;> rfl
  have hopening : ∀ other ∈ (w.listener.openBegin c).opening, other = c ∨ other ∈ w.listener.opening := by
    rw [QuicListener.openBegin]
    split
    · exact fun other hother => List.mem_cons.mp hother
    · exact fun other hother => Or.inr hother
  have hrest : (w.listener.openBegin c).made = w.listener.made ∧
      (w.listener.openBegin c).streams = w.listener.streams ∧
      (w.listener.openBegin c).locals = w.listener.locals ∧
      (w.listener.openBegin c).handed = w.listener.handed := by
    rw [QuicListener.openBegin]
    split <;> exact ⟨rfl, rfl, rfl, rfl⟩
  obtain ⟨hmade, hstreams, hlocals, hhanded'⟩ := hrest
  refine ⟨fun other hother => ?_, fun id hid => ?_, fun other id hmem => ?_, fun other id hmem => ?_,
    fun other hother id hplace => ?_⟩
  · rw [hmade]
    rw [hconns] at hother
    by_cases heq : other = c
    · subst heq
      rw [Function.update_self] at hother
      exact h.known other hother
    · rw [Function.update_of_ne heq] at hother
      exact h.known other hother
  · rw [hlocals] at hid
    rw [hstreams]
    exact h.local_lt id hid
  · rw [hmade, hstreams]
    exact h.came_lt other id hmem
  · rw [hconns, hhanded']
    by_cases heq : other = c
    · subst heq
      exact Or.inr (hhanded id hmem)
    · rw [Function.update_of_ne heq]
      exact h.kept other id hmem
  · rw [hconns] at hplace
    rw [hlocals]
    by_cases heq : other = c
    · rw [heq, Function.update_self] at hplace
      cases hplace
    · rw [Function.update_of_ne heq] at hplace
      exact h.waiting other ((hopening other hother).resolve_left heq) id hplace

theorem Ordered.step (h : w.Ordered) (hturn : w.InTurn event) : (w.step event).Ordered := by
  cases event with
  | newConn granted =>
      cases granted with
      | true => exact h.newConn
      | false => exact h
  | newStream c outbound =>
      by_cases hcomes : (w.listener.conns c).conn = true ∧ (outbound = true → c ∈ w.listener.asked)
      · obtain ⟨hhanded, hcalm⟩ := hturn hcomes.1 hcomes.2
        exact h.newStream hcomes.1 hcomes.2 hhanded hcalm
      · have hstep : w.step (.newStream c outbound) = w := by
          have hnone : w.listener.peerStream (.newStream c outbound) = none := by
            cases outbound with
            | true => rfl
            | false => exact if_neg fun hconn => hcomes ⟨hconn, fun hfalse => absurd hfalse Bool.false_ne_true⟩
          rw [Watched.step, hnone, QuicListener.step, if_neg hcomes]
          rfl
        rwa [hstep]
  | openBegin accepted =>
      by_cases hmem : accepted ∈ w.listener.wrappers
      · have hdone := h.openBegin (hturn hmem)
        rwa [← show w.listener.step (.openBegin accepted) = _ from if_pos hmem] at hdone
      · have hcalm : Calm w.listener (w.listener.step (.openBegin accepted)) := by
          rw [QuicListener.step, if_neg hmem]
          exact Calm.refl _
        exact h.calm hcalm
  | connClosed c =>
      apply h.calm
      rw [QuicListener.step]
      split
      · exact calm_update (fun h => by cases h) rfl
      · exact Calm.refl _
  | hskDone c ok =>
      apply h.calm
      rw [QuicListener.step]
      split
      · exact calm_update (fun h => h) rfl
      · exact Calm.refl _
  | accept granted =>
      apply h.calm
      rw [QuicListener.step]
      split
      · exact calm_acceptReady _ _ granted
      · exact Calm.refl _
  | openEnd c granted =>
      apply h.calm
      rw [QuicListener.step]
      split
      · exact calm_openEnd _ c granted
      · exact Calm.refl _
  | close wrapper =>
      apply h.calm
      rw [QuicListener.step]
      split
      · exact calm_close _ wrapper
      · exact Calm.refl _

theorem ordered_start : start.Ordered where
  known c hconn := by cases hconn
  local_lt id hid := absurd hid List.not_mem_nil
  came_lt c id hmem := absurd hmem List.not_mem_nil
  kept c id hmem := absurd hmem List.not_mem_nil
  waiting c hc := absurd hc List.not_mem_nil

/-! ### Opens that stop waiting -/

theorem wrappers_openEnd (hopening : c ∈ s.opening) {granted : Bool} (hopens : s.Opens c granted = true) :
    (s.step (.openEnd c granted)).wrappers = ⟨c, (s.conns c).stream⟩ :: s.wrappers := by
  rw [QuicListener.step, if_pos hopening, QuicListener.openEnd, if_pos hopens]
  rfl

theorem Ordered.returnsLocal (h : w.Ordered) (event : ListenEvent) : w.listener.ReturnsLocal event := by
  cases event with
  | openEnd c granted =>
      intro wrapper hwrapper
      have hsame : ∀ {xs : List QuicListenStreamCtx}, xs ≠ wrapper :: xs := fun heq => by
        simpa using congrArg List.length heq
      by_cases hopening : c ∈ w.listener.opening
      · by_cases hopens : w.listener.Opens c granted = true
        · rw [wrappers_openEnd hopening hopens] at hwrapper
          obtain ⟨rfl, -⟩ := List.cons.inj hwrapper
          rw [QuicListener.Opens, Bool.and_eq_true, Bool.and_eq_true] at hopens
          obtain ⟨id, hid⟩ := Option.isSome_iff_exists.mp hopens.1.2
          exact ⟨id, hid, h.waiting c hopening id hid⟩
        · rw [QuicListener.step, if_pos hopening, QuicListener.openEnd, if_neg hopens] at hwrapper
          exact absurd hwrapper hsame
      · rw [QuicListener.step, if_neg hopening] at hwrapper
        exact absurd hwrapper hsame
  | newConn granted => trivial
  | connClosed c => trivial
  | hskDone c ok => trivial
  | newStream c outbound => trivial
  | accept granted => trivial
  | openBegin accepted => trivial
  | close wrapper => trivial

/-- A step out of turn overwrites a stream, or an open that stops waiting behind it returns the peer's. -/
theorem Ordered.lost (h : w.Ordered) (hturn : ¬w.InTurn event) : ¬(w.step event).Safe := by
  rintro ⟨hkept, hlocal⟩
  cases event with
  | newStream c outbound =>
      rw [InTurn] at hturn
      push Not at hturn
      obtain ⟨hconn, hasked, hhanded⟩ := hturn
      have hstep : (w.step (.newStream c outbound)).listener = w.listener.newStream c outbound :=
        if_pos ⟨hconn, hasked⟩
      by_cases hall : w.AllHanded c
      · obtain ⟨rfl, hopening⟩ := hhanded hall
        have hreturns := hlocal c
        rw [hstep] at hreturns
        have hopens : (w.listener.newStream c false).Opens c true = true := by
          rw [QuicListener.Opens, conns_newStream_self]
          rfl
        obtain ⟨id, hid, hmem⟩ := hreturns _ (@wrappers_openEnd (w.listener.newStream c false) c hopening true hopens)
        rw [conns_newStream_self] at hid
        obtain rfl := Option.some.inj hid
        exact Nat.lt_irrefl _ (h.local_lt _ hmem)
      · rw [AllHanded] at hall
        push Not at hall
        obtain ⟨id, hcame, hout⟩ := hall
        have hplace := hkept c id (List.mem_append_right _ hcame)
        rw [hstep, conns_newStream_self] at hplace
        rcases hplace with hplace | hhanded'
        · obtain rfl := Option.some.inj hplace
          exact Nat.lt_irrefl _ (h.came_lt c _ hcame).2
        · exact hout hhanded'
  | openBegin accepted =>
      rw [InTurn, AllHanded] at hturn
      push Not at hturn
      obtain ⟨hmem, id, hcame, hout⟩ := hturn
      have hstep : (w.step (.openBegin accepted)).listener = w.listener.openBegin accepted.conn := if_pos hmem
      have hreset : ((w.listener.openBegin accepted.conn).conns accepted.conn).stream = none ∧
          (w.listener.openBegin accepted.conn).handed = w.listener.handed := by
        rw [QuicListener.openBegin]
        split <;> simp [QuicListener.update, QuicListenConn.openBegin]
      have hplace := hkept accepted.conn id (List.mem_append_right _ hcame)
      rw [hstep, hreset.1, hreset.2] at hplace
      rcases hplace with hplace | hhanded
      · cases hplace
      · exact hout hhanded
  | newConn granted => exact hturn trivial
  | connClosed c => exact hturn trivial
  | hskDone c ok => exact hturn trivial
  | accept granted => exact hturn trivial
  | openEnd c granted => exact hturn trivial
  | close wrapper => exact hturn trivial

/-- **Streams are kept in every run whose events take turns**, and in no other: where they do not, a stream
of the peer is overwritten or an open that stops waiting returns one. -/
theorem streamsKept_of_inTurn (events : List ListenEvent) :
    (Along step InTurn start events → StreamsKept events) ∧
      ((∀ reached, reached <+: events → ∀ c, StreamsKept (reached ++ [.openEnd c true])) →
        Along step InTurn start events) := by
  constructor
  · intro hturn
    have hall := hturn.and_invariant (fun w event h hturn => Ordered.step h hturn) ordered_start
    refine ⟨hall.mono fun w event h => h.1.returnsLocal event, ?_⟩
    rintro reached ⟨rest, rfl⟩
    exact ((along_append.mp hturn).1.invariant (fun w event h hturn => Ordered.step h hturn) ordered_start).kept
  · intro hkept
    have hsafe : (∀ reached, reached <+: events → (run step start reached).Safe) ↔ Along step InTurn start events :=
      along_iff_good step (fun w h => ⟨Ordered.kept h, fun c => Ordered.returnsLocal h _⟩)
        (fun w event h hturn => Ordered.step h hturn) (fun w event h hturn => Ordered.lost h hturn) ordered_start
    apply hsafe.mp
    intro reached hreached
    refine ⟨(hkept reached hreached 0).2 reached (List.prefix_append _ _), fun c => ?_⟩
    exact (along_append.mp (hkept reached hreached c).1).2.1

/-- The peer's stream comes while an open waits; two streams of the peer come after the accept. -/
theorem not_streamsKept :
    ¬StreamsKept [.newConn true, .hskDone 0 true, .newStream 0 false, .accept true,
        .openBegin ⟨0, some 0⟩, .newStream 0 false, .openEnd 0 true] ∧
      ¬StreamsKept [.newConn true, .hskDone 0 true, .newStream 0 false, .accept true,
        .newStream 0 false, .newStream 0 false] := by
  constructor
  · intro hkept
    obtain ⟨id, -, hlocal⟩ := hkept.1.2.2.2.2.2.2.1 ⟨0, some 1⟩ (by decide)
    exact absurd hlocal List.not_mem_nil
  · intro hkept
    have hplace := hkept.2 _ (List.prefix_refl _) 0 1 (by decide)
    exact absurd hplace (by decide)

end Watched

end CLibp2p.Quic
