import CLibp2p.Machine.Runs
import CLibp2p.Net.WsDial

/-!
# Writes that time out

While a write services the event loop, what `lws_write` takes is a prefix of its buffer, and the write
reports it. A write that gives up leaves its buffer behind, and a read that services the loop later sends
more of it, which nobody reports.
-/

namespace CLibp2p.Ws

open Duplex Machine

namespace WsStream

/-- What `lws_write` accepted is what the writes reported, and the reads returned a prefix of what came in,
as long as the connection has not failed. -/
def Orderly (s : WsStream) : Prop :=
  s.failed = false → s.accepted = s.reported ∧ s.returned <+: s.received

/-- The callbacks that a loop over `lws_service` comes to. -/
def serviced (busy : WsStream → Bool) : Nat → List (List WsCallback) → WsStream → List WsCallback
  | 0, _, _ => []
  | fuel + 1, services, s =>
      if busy s then
        services.headD [] ++ serviced busy fuel services.tail (s.service (services.headD []))
      else []

/-- The callbacks that a read comes to. -/
def waited (s : WsStream) (services : List (List WsCallback)) : List WsCallback :=
  if s.rxBuf = [] ∧ s.connected = true ∧ s.failed = false then serviced readBusy 100 services s else []

/-- An earlier write gave up with bytes left. -/
def LeftOver (s : WsStream) : Prop := ∃ buf, s.txBuf = some buf ∧ s.txSent < buf.length

end WsStream

/-- `lws_write` takes some of the chunk. -/
def WsCallback.Takes : WsCallback → Prop
  | .writeable granted taken => granted = true ∧ ∃ n, taken = some n ∧ 0 < n
  | _ => False

instance : DecidablePred WsCallback.Takes
  | .writeable granted taken =>
      decidable_of_iff (granted = true ∧ 0 < taken.getD 0) (by cases taken <;> simp [WsCallback.Takes])
  | .established | .connectionError | .receive _ | .closed | .other => isFalse id

/-- In a read that waits, `lws_write` takes nothing of what an earlier write has left, unless the connection
fails. -/
def Undisturbed (s : WsStream) : WsOp → Prop
  | .write _ _ => True
  | .read _ memory services =>
      let s := s.remember memory
      s.LeftOver → (s.service (s.waited services)).failed = false →
        ∀ callback ∈ s.waited services, ¬callback.Takes

namespace WsStream

theorem serviceWhile_eq (busy : WsStream → Bool) (fuel : Nat) (services : List (List WsCallback))
    (s : WsStream) : serviceWhile busy fuel services s = s.service (serviced busy fuel services s) := by
  induction fuel generalizing services s with
  | zero => rfl
  | succ fuel ih =>
      rw [serviceWhile, serviced]
      split
      · rw [ih, service, service, service, List.foldl_append]
      · rfl

/-! ### What callbacks change -/

/-- The bytes at `tx_buf`, if it is set. -/
def txBytes (s : WsStream) : Bytes := s.txBuf.getD []

/-- `s'` comes from `s` through callbacks. -/
structure Comes (s s' : WsStream) : Prop where
  txBuf : s'.txBuf = s.txBuf
  reported : s'.reported = s.reported
  returned : s'.returned = s.returned
  failed : s.failed = true → s'.failed = true
  sent : s.txSent ≤ s'.txSent
  accepted : s'.accepted = s.accepted ++ (s.txBytes.drop s.txSent).take (s'.txSent - s.txSent)
  arrived : s'.failed = false → ∃ data, s'.rxBuf = s.rxBuf ++ data ∧ s'.received = s.received ++ data

theorem Comes.refl (s : WsStream) : s.Comes s :=
  ⟨rfl, rfl, rfl, id, Nat.le_refl _, by rw [Nat.sub_self, List.take_zero, List.append_nil],
    fun _ => ⟨[], (List.append_nil _).symm, (List.append_nil _).symm⟩⟩

theorem Comes.trans {s s' s'' : WsStream} (hfirst : s.Comes s') (hsecond : s'.Comes s'') :
    s.Comes s'' := by
  have hsent := hfirst.sent
  have hsent' := hsecond.sent
  refine ⟨hsecond.txBuf.trans hfirst.txBuf, hsecond.reported.trans hfirst.reported,
    hsecond.returned.trans hfirst.returned, fun hfailed => hsecond.failed (hfirst.failed hfailed),
    Nat.le_trans hsent hsent', ?_, ?_⟩
  · have hbytes : s'.txBytes = s.txBytes := congrArg (Option.getD · []) hfirst.txBuf
    have hsplit : s''.txSent - s.txSent = (s'.txSent - s.txSent) + (s''.txSent - s'.txSent) := by omega
    have hdrop : s.txSent + (s'.txSent - s.txSent) = s'.txSent := by omega
    rw [hsecond.accepted, hfirst.accepted, hbytes, hsplit, List.take_add, List.drop_drop, hdrop,
      List.append_assoc]
  · intro hlive
    have hlive' : s'.failed = false := by
      by_contra hfailed
      rw [hsecond.failed (Bool.eq_true_of_not_eq_false hfailed)] at hlive
      cases hlive
    obtain ⟨data, hbuf, hreceived⟩ := hfirst.arrived hlive'
    obtain ⟨data', hbuf', hreceived'⟩ := hsecond.arrived hlive
    exact ⟨data ++ data', by rw [hbuf', hbuf, List.append_assoc],
      by rw [hreceived', hreceived, List.append_assoc]⟩

/-- Callbacks that leave the buffers alone. -/
theorem Comes.of_flags {s : WsStream} (connected failed writeDone : Bool)
    (hfailed : s.failed = true → failed = true) :
    s.Comes { s with connected, failed, writeDone } :=
  ⟨rfl, rfl, rfl, hfailed, Nat.le_refl _, by rw [Nat.sub_self, List.take_zero, List.append_nil],
    fun _ => ⟨[], (List.append_nil _).symm, (List.append_nil _).symm⟩⟩

theorem comes_receive (s : WsStream) (bytes : Bytes) : s.Comes (s.receive bytes) := by
  rw [receive]
  dsimp only
  split
  · exact ⟨rfl, rfl, rfl, fun _ => rfl, Nat.le_refl _,
      by rw [Nat.sub_self, List.take_zero, List.append_nil], fun hlive => nomatch hlive⟩
  · exact ⟨rfl, rfl, rfl, id, Nat.le_refl _, by rw [Nat.sub_self, List.take_zero, List.append_nil],
      fun _ => ⟨bytes, rfl, rfl⟩⟩

/-- What `lws_write` takes of a chunk is the next piece of the buffer. -/
theorem take_chunk (buf : Bytes) (sent n : Nat) :
    ((buf.drop sent).take 4096).take n =
      (buf.drop sent).take (sent + (((buf.drop sent).take 4096).take n).length - sent) := by
  rw [Nat.add_sub_cancel_left, List.take_take]
  exact List.prefix_iff_eq_take.mp (List.take_prefix _ _)

theorem comes_writeable (s : WsStream) (granted : Bool) (taken : Option Nat) :
    s.Comes (s.writeable granted taken) := by
  rw [writeable]
  split
  · exact .of_flags _ _ _ id
  · rename_i buf hbuf
    have hbytes : s.txBytes = buf := by rw [txBytes, hbuf, Option.getD_some]
    split
    · dsimp only
      split
      · exact .of_flags _ _ _ fun _ => rfl
      · split
        · exact .of_flags _ _ _ fun _ => rfl
        · rename_i n
          have hsent : s.Comes { s with
              txSent := s.txSent + (((buf.drop s.txSent).take 4096).take n).length
              accepted := s.accepted ++ ((buf.drop s.txSent).take 4096).take n } := by
            refine ⟨rfl, rfl, rfl, id, Nat.le_add_right _ _, ?_,
              fun _ => ⟨[], (List.append_nil _).symm, (List.append_nil _).symm⟩⟩
            rw [hbytes, ← take_chunk]
          split
          · exact hsent
          · exact hsent.trans (.of_flags _ _ _ id)
    · exact .of_flags _ _ _ id

theorem comes_callback (s : WsStream) (callback : WsCallback) : s.Comes (s.callback callback) := by
  cases callback with
  | established => exact .of_flags _ _ _ id
  | connectionError => exact .of_flags _ _ _ fun _ => rfl
  | receive bytes => exact comes_receive s bytes
  | writeable granted taken => exact comes_writeable s granted taken
  | closed => exact .of_flags _ _ _ fun _ => rfl
  | other => exact .refl s

theorem comes_service (s : WsStream) (callbacks : List WsCallback) : s.Comes (s.service callbacks) := by
  induction callbacks generalizing s with
  | nil => exact .refl s
  | cons callback callbacks ih => exact (comes_callback s callback).trans (ih (s.callback callback))

theorem comes_serviceWhile (busy : WsStream → Bool) (fuel : Nat) (services : List (List WsCallback))
    (s : WsStream) : s.Comes (serviceWhile busy fuel services s) := by
  rw [serviceWhile_eq]
  exact comes_service s _

/-! ### What is left of an earlier write -/

/-- A callback that takes nothing. -/
theorem txSent_callback {s : WsStream} {callback : WsCallback} (hnot : ¬callback.Takes) :
    (s.callback callback).txSent = s.txSent := by
  cases callback with
  | writeable granted taken =>
      rw [WsStream.callback, writeable]
      split
      · rfl
      · split
        · dsimp only
          split
          · rfl
          · rename_i hgranted
            split
            · rfl
            · rename_i n
              have hzero : n = 0 := by
                by_contra hne
                exact hnot ⟨Bool.eq_true_of_not_eq_false hgranted, n, rfl, Nat.pos_of_ne_zero hne⟩
              subst hzero
              split <;> rfl
        · rfl
  | receive bytes =>
      rw [WsStream.callback, receive]
      dsimp only
      split <;> rfl
  | established => rfl
  | connectionError => rfl
  | closed => rfl
  | other => rfl

theorem txSent_service {s : WsStream} {callbacks : List WsCallback}
    (hnot : ∀ callback ∈ callbacks, ¬callback.Takes) : (s.service callbacks).txSent = s.txSent := by
  induction callbacks generalizing s with
  | nil => rfl
  | cons callback callbacks ih =>
      obtain ⟨hfirst, hrest⟩ := List.forall_mem_cons.mp hnot
      exact (ih hrest).trans (txSent_callback hfirst)

/-- A callback that takes some of what is left. -/
theorem txSent_lt_callback {s : WsStream} {callback : WsCallback} (hleft : s.LeftOver)
    (htakes : callback.Takes) : s.txSent < (s.callback callback).txSent := by
  cases callback with
  | writeable granted taken =>
      obtain ⟨hgranted, n, rfl, hpos⟩ := htakes
      obtain ⟨buf, hbuf, hlt⟩ := hleft
      have hchunk : 0 < (((buf.drop s.txSent).take 4096).take n).length := by
        rw [List.length_take, List.length_take, List.length_drop]
        omega
      have hgrown : s.txSent < s.txSent + (((buf.drop s.txSent).take 4096).take n).length := by omega
      rw [WsStream.callback, writeable, hbuf]
      dsimp only
      rw [if_pos hlt, if_neg (by rw [hgranted]; decide)]
      split
      · exact hgrown
      · exact hgrown
  | established => exact absurd htakes id
  | connectionError => exact absurd htakes id
  | receive bytes => exact absurd htakes id
  | closed => exact absurd htakes id
  | other => exact absurd htakes id

theorem txSent_lt_service {s : WsStream} {callbacks : List WsCallback} (hleft : s.LeftOver)
    (htakes : ∃ callback ∈ callbacks, callback.Takes) : s.txSent < (s.service callbacks).txSent := by
  induction callbacks generalizing s with
  | nil => exact absurd htakes (by simp)
  | cons callback callbacks ih =>
      have hlater : (s.callback callback).txSent ≤ (s.service (callback :: callbacks)).txSent :=
        (comes_service (s.callback callback) callbacks).sent
      by_cases hfirst : callback.Takes
      · exact Nat.lt_of_lt_of_le (txSent_lt_callback hleft hfirst) hlater
      · have hsame := txSent_callback (s := s) hfirst
        obtain ⟨buf, hbuf, hlt⟩ := hleft
        have hleft' : (s.callback callback).LeftOver :=
          ⟨buf, (comes_callback s callback).txBuf.trans hbuf, by rwa [hsame]⟩
        obtain ⟨taker, hmem, htaker⟩ := htakes
        rcases List.mem_cons.mp hmem with rfl | hmem
        · exact absurd htaker hfirst
        · have hrest := ih hleft' ⟨taker, hmem, htaker⟩
          rwa [hsame] at hrest

/-! ### What calls keep -/

/-- While the connection has not failed, what came in was returned or is in the buffer, and what went out
was reported. -/
def Kept (s : WsStream) : Prop :=
  s.failed = false → s.accepted = s.reported ∧ s.returned ++ s.rxBuf = s.received

theorem Kept.orderly {s : WsStream} (hkept : s.Kept) : s.Orderly := by
  intro hlive
  obtain ⟨hsent, hreceived⟩ := hkept hlive
  exact ⟨hsent, hreceived ▸ List.prefix_append _ _⟩

theorem kept_of_failed {s : WsStream} (hfailed : s.failed = true) : s.Kept := by
  intro hlive
  rw [hfailed] at hlive
  cases hlive

theorem Comes.failed_eq_false {s s' : WsStream} (hcomes : s.Comes s') (hlive : s'.failed = false) :
    s.failed = false := by
  by_contra hfailed
  rw [hcomes.failed (Bool.eq_true_of_not_eq_false hfailed)] at hlive
  cases hlive

/-- Callbacks lose nothing that comes in. -/
theorem Comes.received_eq {s s' : WsStream} (hcomes : s.Comes s') (hlive : s'.failed = false)
    (hreceived : s.returned ++ s.rxBuf = s.received) : s'.returned ++ s'.rxBuf = s'.received := by
  obtain ⟨data, hbuf, hdata⟩ := hcomes.arrived hlive
  rw [hcomes.returned, hbuf, hdata, ← hreceived, List.append_assoc]

theorem kept_dial {services : List (List WsCallback)} {s : WsStream} (hdial : dial services = some s) :
    s.Kept := by
  rw [dial] at hdial
  split at hdial
  · cases hdial
    have hcomes := comes_serviceWhile (fun s => !s.connected && !s.failed) 500 services zeroed
    intro hlive
    refine ⟨?_, hcomes.received_eq hlive rfl⟩
    have hnothing : zeroed.txBytes = [] := rfl
    rw [hcomes.accepted, hcomes.reported, hnothing, List.drop_nil, List.take_nil]
    rfl
  · cases hdial

theorem Kept.step_write {s : WsStream} (hkept : s.Kept) (buf : Bytes)
    (services : List (List WsCallback)) : (s.step (.write buf services)).Kept := by
  by_cases hrefused : (!s.connected || s.failed) = true
  · have hwrite : s.streamWrite buf services = (none, s) := if_pos hrefused
    rw [step, hwrite]
    intro hlive
    obtain ⟨hsent, hreceived⟩ := hkept hlive
    exact ⟨hsent.trans (List.append_nil _).symm, hreceived⟩
  · have hcomes := comes_serviceWhile writeBusy 1000 services
      { s with txBuf := some buf, txSent := 0, writeDone := false }
    generalize hs' : serviceWhile writeBusy 1000 services
      { s with txBuf := some buf, txSent := 0, writeDone := false } = s' at hcomes
    by_cases hfailed : s'.failed = true
    · have hwrite : s.streamWrite buf services = (none, s') := by
        rw [streamWrite, if_neg hrefused, hs']
        exact if_pos hfailed
      rw [step, hwrite]
      exact kept_of_failed hfailed
    · have hwrite : s.streamWrite buf services = (some s'.txSent, s') := by
        rw [streamWrite, if_neg hrefused, hs']
        exact if_neg hfailed
      rw [step, hwrite]
      intro hlive
      obtain ⟨hsent, hreceived⟩ := hkept (hcomes.failed_eq_false hlive)
      refine ⟨?_, hcomes.received_eq hlive hreceived⟩
      calc s'.accepted = s.accepted ++ buf.take s'.txSent := hcomes.accepted
        _ = s'.reported ++ buf.take s'.txSent := by rw [hsent, hcomes.reported]

/-- The stream after a read that copies out of its buffer. -/
def served (s : WsStream) (count : Nat) : WsStream :=
  { s with returned := s.returned ++ s.rxBuf.take count, rxBuf := s.rxBuf.drop count }

theorem served_bytes (s : WsStream) (count : Nat) :
    (s.served count).returned ++ (s.served count).rxBuf = s.returned ++ s.rxBuf := by
  rw [served, List.append_assoc, List.take_append_drop]

theorem returned_nothing_eq_served {s : WsStream} (hnone : s.rxBuf = []) (count : Nat) :
    { s with returned := s.returned ++ [] } = s.served count := by
  rw [served, hnone, List.take_nil, List.drop_nil, ← hnone]

/-- A read copies out what is in the buffer after its callbacks. -/
theorem step_read_eq (s : WsStream) (count : Nat) (memory : Nat → UInt8)
    (services : List (List WsCallback)) {s' : WsStream}
    (hs' : (s.remember memory).service ((s.remember memory).waited services) = s') :
    s.step (.read count memory services) = s'.served count := by
  rw [step]
  generalize s.remember memory = s at hs' ⊢
  rw [waited] at hs'
  by_cases hbuffered : 0 < s.rxBuf.length
  · rw [if_neg fun h => absurd h.1 (List.ne_nil_of_length_pos hbuffered)] at hs'
    obtain rfl : s = s' := hs'
    rw [streamRead, if_pos hbuffered]
    rfl
  · have hnone : s.rxBuf = [] := List.eq_nil_of_length_eq_zero (Nat.eq_zero_of_not_pos hbuffered)
    by_cases hrefused : (!s.connected || s.failed) = true
    · rw [if_neg (by rintro ⟨-, hconnected, hlive⟩; simp [hconnected, hlive] at hrefused)] at hs'
      obtain rfl : s = s' := hs'
      rw [streamRead, if_neg hbuffered, if_pos hrefused]
      exact returned_nothing_eq_served hnone count
    · have hwaits : s.rxBuf = [] ∧ s.connected = true ∧ s.failed = false := by
        simpa [hnone] using hrefused
      rw [if_pos hwaits, ← serviceWhile_eq] at hs'
      rw [streamRead, if_neg hbuffered, if_neg hrefused, hs']
      dsimp only
      by_cases hcame : 0 < s'.rxBuf.length
      · rw [if_pos hcame]
        rfl
      · have hnone' : s'.rxBuf = [] := List.eq_nil_of_length_eq_zero (Nat.eq_zero_of_not_pos hcame)
        rw [if_neg hcame]
        split
        · exact returned_nothing_eq_served hnone' count
        · exact returned_nothing_eq_served hnone' count

/-- Without bytes left, or without a callback that takes some, nothing is sent. -/
theorem accepted_service_of_undisturbed {s : WsStream} {callbacks : List WsCallback}
    (hquiet : s.LeftOver → ∀ callback ∈ callbacks, ¬callback.Takes) :
    (s.service callbacks).accepted = s.accepted := by
  have haccepted := (comes_service s callbacks).accepted
  by_cases hleft : s.LeftOver
  · rw [txSent_service (hquiet hleft), Nat.sub_self, List.take_zero, List.append_nil] at haccepted
    exact haccepted
  · have hnothing : s.txBytes.drop s.txSent = [] := by
      cases hbuf : s.txBuf with
      | none => rw [txBytes, hbuf, Option.getD_none, List.drop_nil]
      | some buf =>
          rw [txBytes, hbuf, Option.getD_some]
          exact List.drop_eq_nil_of_le (Nat.not_lt.mp fun hlt => hleft ⟨buf, hbuf, hlt⟩)
    rw [hnothing, List.take_nil, List.append_nil] at haccepted
    exact haccepted

/-- What is sent of bytes that are left comes on top. -/
theorem accepted_service_ne {s : WsStream} {callbacks : List WsCallback} (hleft : s.LeftOver)
    (htakes : ∃ callback ∈ callbacks, callback.Takes) :
    (s.service callbacks).accepted ≠ s.accepted := by
  have hmore := txSent_lt_service hleft htakes
  obtain ⟨buf, hbuf, hlt⟩ := hleft
  have hbytes : s.txBytes = buf := by rw [txBytes, hbuf, Option.getD_some]
  rw [(comes_service s callbacks).accepted, hbytes]
  intro hsame
  have hlength := congrArg List.length hsame
  rw [List.length_append, List.length_take, List.length_drop] at hlength
  omega

theorem Kept.step_read {s : WsStream} (hkept : s.Kept) {count : Nat} {memory : Nat → UInt8}
    {services : List (List WsCallback)} (hquiet : Undisturbed s (.read count memory services)) :
    (s.step (.read count memory services)).Kept := by
  have hkept' : (s.remember memory).Kept := hkept
  rw [step_read_eq s count memory services rfl]
  rw [Undisturbed] at hquiet
  generalize s.remember memory = before at hquiet hkept' ⊢
  intro hlive
  have hcomes := comes_service before (before.waited services)
  obtain ⟨hsent, hreceived⟩ := hkept' (hcomes.failed_eq_false hlive)
  have hnothing := accepted_service_of_undisturbed fun hleft => hquiet hleft hlive
  refine ⟨hnothing.trans (hsent.trans hcomes.reported.symm), ?_⟩
  exact (served_bytes _ count).trans (hcomes.received_eq hlive hreceived)

theorem Kept.not_orderly_step_read {s : WsStream} (hkept : s.Kept) {count : Nat} {memory : Nat → UInt8}
    {services : List (List WsCallback)} (hdisturbed : ¬Undisturbed s (.read count memory services)) :
    ¬(s.step (.read count memory services)).Orderly := by
  have hkept' : (s.remember memory).Kept := hkept
  rw [step_read_eq s count memory services rfl]
  rw [Undisturbed] at hdisturbed
  generalize s.remember memory = before at hdisturbed hkept' ⊢
  push Not at hdisturbed
  obtain ⟨hleft, hlive, htakes⟩ := hdisturbed
  have hcomes := comes_service before (before.waited services)
  intro horderly
  have hsent := (hkept' (hcomes.failed_eq_false hlive)).1
  refine accepted_service_ne hleft htakes ?_
  exact (horderly hlive).1.trans (hcomes.reported.trans hsent.symm)

end WsStream

/-- **WebSocket streams.** On a stream that was dialled, in every state reached by writes and reads what went
out is what was reported and what was returned is a prefix of what came in, if and only if no read sends
bytes that an earlier write has left. -/
theorem orderly_iff_undisturbed {dialled : List (List WsCallback)} {s : WsStream}
    (hdial : WsStream.dial dialled = some s) (ops : List WsOp) :
    (∀ reached, reached <+: ops → (run WsStream.step s reached).Orderly) ↔
      Along WsStream.step Undisturbed s ops := by
  refine along_iff_good WsStream.step (fun s hkept => hkept.orderly) ?_ ?_ (WsStream.kept_dial hdial)
  · intro s op hkept hquiet
    cases op with
    | write buf services => exact hkept.step_write buf services
    | read count memory services => exact hkept.step_read hquiet
  · intro s op hkept hdisturbed
    cases op with
    | write buf services => exact absurd trivial hdisturbed
    | read count memory services => exact hkept.not_orderly_step_read hdisturbed

/-- What `dial` gives once the connection is established. -/
def established : WsStream := { WsStream.zeroed with connected := true }

theorem dial_established : WsStream.dial [[.established]] = some established := by decide

/-- The second write gives up with a byte left. The first read then has something to return, and the
second gets it before the connection is writeable. -/
theorem orderly_iff_undisturbed_waiting :
    (run WsStream.step established
      [.write [1, 2, 3] [[.writeable true (some 2)], [.receive [7], .writeable true (some 1)]],
        .write [4, 5] [[.writeable true (some 1)]], .read 2 (fun _ => 5) [],
        .read 2 (fun _ => 5) [[.receive [8]]]]).Orderly := by
  have hquiet : Along WsStream.step Undisturbed established
      [.write [1, 2, 3] [[.writeable true (some 2)], [.receive [7], .writeable true (some 1)]],
        .write [4, 5] [[.writeable true (some 1)]], .read 2 (fun _ => 5) [],
        .read 2 (fun _ => 5) [[.receive [8]]]] := by
    refine ⟨trivial, trivial, fun _ _ => ?_, fun _ _ => ?_, trivial⟩
    · decide +kernel
    · decide +kernel
  exact (orderly_iff_undisturbed dial_established _).mpr hquiet _ List.prefix_rfl

/-- A loop to which nothing is delivered leaves the stream as it is, however long it runs. -/
theorem WsStream.serviceWhile_nil (busy : WsStream → Bool) (fuel : Nat) (s : WsStream) :
    WsStream.serviceWhile busy fuel [] s = s := by
  induction fuel with
  | zero => rfl
  | succ fuel ih =>
      rw [WsStream.serviceWhile, List.tail_nil, List.headD_nil]
      split
      · exact ih
      · rfl

theorem WsStream.serviceWhile_singleton (busy : WsStream → Bool) (fuel : Nat) (callbacks : List WsCallback)
    (s : WsStream) : WsStream.serviceWhile busy (fuel + 1) [callbacks] s =
      if busy s then s.service callbacks else s := by
  rw [WsStream.serviceWhile, List.tail_cons, List.headD_cons, WsStream.serviceWhile_nil]

/-- The write has given up, and its byte is left in `tx_buf`. -/
def timedOut : WsStream := { established with txBuf := some [1] }

theorem step_write_established : established.step (.write [1] []) = timedOut := by
  simp [WsStream.step, WsStream.streamWrite, WsStream.serviceWhile_nil, timedOut, established,
    WsStream.zeroed]

theorem step_read_timedOut :
    timedOut.step (.read 1 (fun _ => 1) [[.writeable true (some 1)]]) =
      { timedOut with txSent := 1, writeDone := true, accepted := [1] } := by
  have hwaits : WsStream.serviceWhile WsStream.readBusy 100 [[.writeable true (some 1)]] timedOut =
      { timedOut with txSent := 1, writeDone := true, accepted := [1] } :=
    WsStream.serviceWhile_singleton WsStream.readBusy 99 [.writeable true (some 1)] timedOut
  have hremember : timedOut.remember (fun _ => 1) = timedOut := rfl
  rw [WsStream.step, hremember, WsStream.streamRead, hwaits]
  rfl

/-- A write that times out, and a read during which its byte is sent. -/
theorem not_orderly_late :
    WsStream.dial [[.established]] = some established ∧
      ¬(run WsStream.step established
        [.write [1] [], .read 1 (fun _ => 1) [[.writeable true (some 1)]]]).Orderly := by
  refine ⟨dial_established, fun horderly => ?_⟩
  have hrun : run WsStream.step established
      [.write [1] [], .read 1 (fun _ => 1) [[.writeable true (some 1)]]] =
        { timedOut with txSent := 1, writeDone := true, accepted := [1] } := by
    rw [run_cons, run_cons, step_write_established, step_read_timedOut, run_nil]
  rw [hrun] at horderly
  exact absurd (horderly rfl).1 (by decide)

end CLibp2p.Ws
