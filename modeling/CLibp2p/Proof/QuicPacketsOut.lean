import CLibp2p.Quic.PacketsOut

/-!
# Packets of several pieces

The inner loop sends every piece of a packet as a datagram of its own and counts it, so the two functions
do what lsquic expects of them as long as each packet has one piece.
-/

namespace CLibp2p.Quic

open Duplex

/-- The datagrams that the specs from the index `i` on stand for. -/
def wholeDatagrams : (i : Nat) → (specs : List OutSpec) → List Datagram
  | _, [] => []
  | i, spec :: specs => ⟨i, spec.destSa, spec.iov.flatten⟩ :: wholeDatagrams (i + 1) specs

/-- Of the specs from the index `i` on the first ones were sent, each as one datagram, and they were
counted; the others were not, because `sendto` failed. -/
def SendsLeading (i : Nat) (specs : List OutSpec) (out : PacketsOut) : Prop :=
  ∃ k ≤ specs.length, out.ret = (i + k : Nat) ∧ out.datagrams = wholeDatagrams i (specs.take k) ∧
    (k < specs.length → out.stop ≠ none)

/-- Every spec from the index `i` on that is sent has one piece. `sendto` fails for want of space in the
socket only, and before it has sent anything of the spec, or else what it has sent is all that the spec
holds. -/
def OnePiece (sends : Nat → SendtoResult) : (i : Nat) → (specs : List OutSpec) → Prop
  | i, [] => i < intBound
  | i, spec :: specs =>
      match sends i with
      | .failed => False
      | .wouldBlock => i < intBound ∧ ∃ other ∈ spec :: specs, other.iov ≠ []
      | .sent =>
          match spec.iov with
          | [] => False
          | [_] => OnePiece sends (i + 1) specs
          | _ :: more => i + 1 < intBound ∧ sends (i + 1) = .wouldBlock ∧ more.flatten = []

variable {sends : Nat → SendtoResult}

/-! ### The loops -/

theorem sendIovecs_of_refused {i total : Nat} {destSa : Bytes} (hrefused : sends total ≠ .sent)
    (iov : List Bytes) :
    sendIovecs sends i destSa total iov =
      ⟨[], total, if iov = [] then none else some (sends total)⟩ := by
  cases iov with
  | nil => rfl
  | cons iovec iov =>
      rw [sendIovecs, if_neg (List.cons_ne_nil _ _)]
      cases hresult : sends total with
      | sent => exact absurd hresult hrefused
      | wouldBlock => rfl
      | failed => rfl

theorem sendSpecs_of_refused {total : Nat} (hrefused : sends total ≠ .sent) (i : Nat)
    (specs : List OutSpec) :
    sendSpecs sends i total specs =
      ⟨[], total, if ∃ spec ∈ specs, spec.iov ≠ [] then some (sends total) else none⟩ := by
  induction specs generalizing i with
  | nil => simp [sendSpecs]
  | cons spec specs ih =>
      rw [sendSpecs, sendIovecs_of_refused hrefused]
      by_cases hempty : spec.iov = []
      · simp [hempty, ih]
      · simp [hempty]

/-- A piece that is sent, and what becomes of the rest. -/
theorem sendSpecs_of_sent {total : Nat} (hsent : sends total = .sent) (i : Nat) (iovec : Bytes)
    (iov : List Bytes) (destSa : Bytes) (specs : List OutSpec) :
    sendSpecs sends i total (⟨iovec :: iov, destSa⟩ :: specs) =
      { sendSpecs sends i (total + 1) (⟨iov, destSa⟩ :: specs) with
        datagrams := ⟨i, destSa, iovec⟩ ::
          (sendSpecs sends i (total + 1) (⟨iov, destSa⟩ :: specs)).datagrams } := by
  have hfirst : sendIovecs sends i destSa total (iovec :: iov) =
      { sendIovecs sends i destSa (total + 1) iov with
        datagrams := ⟨i, destSa, iovec⟩ :: (sendIovecs sends i destSa (total + 1) iov).datagrams } := by
    rw [sendIovecs, hsent]
  rw [sendSpecs, sendSpecs, hfirst]
  dsimp only
  split_ifs <;> rfl

theorem sendSpecs_of_empty (i total : Nat) (destSa : Bytes) (specs : List OutSpec) :
    sendSpecs sends i total (⟨[], destSa⟩ :: specs) = sendSpecs sends (i + 1) total specs := by
  rw [sendSpecs, sendIovecs, if_pos rfl]
  rfl

/-- While `sendto` takes the next datagram, either there is one or everything has been sent. -/
theorem sendSpecs_nonempty {total : Nat} (hsent : sends total = .sent) {i : Nat} {specs : List OutSpec} :
    (∃ datagram, (sendSpecs sends i total specs).datagrams.head? = some datagram ∧ i ≤ datagram.spec) ∨
      ((sendSpecs sends i total specs).datagrams = [] ∧ (sendSpecs sends i total specs).stop = none) := by
  induction specs generalizing i with
  | nil => exact Or.inr ⟨rfl, rfl⟩
  | cons spec specs ih =>
      obtain ⟨iov, destSa⟩ := spec
      cases iov with
      | nil =>
          rw [sendSpecs_of_empty]
          exact (ih (i := i + 1)).imp_left fun ⟨datagram, hhead, hle⟩ =>
            ⟨datagram, hhead, Nat.le_of_succ_le hle⟩
      | cons iovec iov =>
          rw [sendSpecs_of_sent hsent]
          exact Or.inl ⟨_, rfl, Nat.le_refl i⟩

/-! ### The leading specs -/

theorem intOfSize_eq_iff (size : Nat) : intOfSize size = size ↔ size < intBound := by
  constructor
  · intro heq
    have hlt := intOfSize_lt size
    omega
  · exact intOfSize_of_lt

theorem sendsLeading_nil_iff {i : Nat} {specs : List OutSpec} {stop : Option SendtoResult} :
    SendsLeading i specs ⟨[], i, stop⟩ ↔
      stop ≠ some .failed ∧ i < intBound ∧ (specs ≠ [] → stop ≠ none) := by
  constructor
  · rintro ⟨k, hk, hret, hdatagrams, hstop⟩
    have hzero : k = 0 := by
      cases specs with
      | nil => exact Nat.le_zero.mp hk
      | cons spec specs =>
          cases k with
          | zero => rfl
          | succ k => cases hdatagrams
    subst hzero
    rw [Nat.add_zero, PacketsOut.ret] at hret
    by_cases hfailed : stop = some .failed
    · rw [if_pos hfailed] at hret
      exact absurd hret (by omega)
    · rw [if_neg hfailed] at hret
      exact ⟨hfailed, (intOfSize_eq_iff i).mp hret, fun hne => hstop (List.length_pos_iff.mpr hne)⟩
  · rintro ⟨hfailed, hsmall, hstop⟩
    refine ⟨0, Nat.zero_le _, ?_, rfl, fun hpos => hstop (List.length_pos_iff.mp hpos)⟩
    rw [PacketsOut.ret, if_neg hfailed]
    exact (intOfSize_eq_iff i).mpr hsmall

theorem sendsLeading_cons_iff {i : Nat} {spec : OutSpec} {specs : List OutSpec} {bytes : Bytes}
    {out : PacketsOut} :
    SendsLeading i (spec :: specs)
        { out with datagrams := ⟨i, spec.destSa, bytes⟩ :: out.datagrams } ↔
      bytes = spec.iov.flatten ∧ SendsLeading (i + 1) specs out := by
  constructor
  · rintro ⟨k, hk, hret, hdatagrams, hstop⟩
    cases k with
    | zero => cases hdatagrams
    | succ k =>
        rw [List.take_succ_cons, wholeDatagrams] at hdatagrams
        obtain ⟨hhead, htail⟩ := List.cons.inj hdatagrams
        refine ⟨congrArg Datagram.bytes hhead, k, Nat.le_of_succ_le_succ hk, ?_, htail,
          fun hless => hstop (Nat.succ_lt_succ hless)⟩
        rw [Nat.add_assoc, Nat.add_comm 1 k]
        exact hret
  · rintro ⟨rfl, k, hk, hret, hdatagrams, hstop⟩
    refine ⟨k + 1, Nat.succ_le_succ hk, ?_, ?_, fun hless => hstop (Nat.lt_of_succ_lt_succ hless)⟩
    · rw [Nat.add_assoc, Nat.add_comm 1 k] at hret
      exact hret
    · rw [List.take_succ_cons, wholeDatagrams, hdatagrams]

/-- The first datagram is that of the first spec. -/
theorem SendsLeading.head {i : Nat} {specs : List OutSpec} {out : PacketsOut}
    (hleading : SendsLeading i specs out) {datagram : Datagram}
    (hhead : out.datagrams.head? = some datagram) : datagram.spec = i := by
  obtain ⟨k, -, -, hdatagrams, -⟩ := hleading
  rw [hdatagrams] at hhead
  cases specs with
  | nil =>
      rw [List.take_nil] at hhead
      cases hhead
  | cons spec specs =>
      cases k with
      | zero => cases hhead
      | succ k =>
          cases hhead
          rfl

theorem SendsLeading.stop_ne_none {i : Nat} {spec : OutSpec} {specs : List OutSpec} {out : PacketsOut}
    (hleading : SendsLeading i (spec :: specs) out) (hnil : out.datagrams = []) : out.stop ≠ none := by
  obtain ⟨k, -, -, hdatagrams, hstop⟩ := hleading
  cases k with
  | zero => exact hstop (Nat.succ_pos _)
  | succ k =>
      rw [hnil] at hdatagrams
      cases hdatagrams

theorem sendsLeading_iff (sends : Nat → SendtoResult) (i : Nat) (specs : List OutSpec) :
    SendsLeading i specs (sendSpecs sends i i specs) ↔ OnePiece sends i specs := by
  induction specs generalizing i with
  | nil =>
      rw [sendSpecs, sendsLeading_nil_iff, OnePiece]
      simp
  | cons spec specs ih =>
      obtain ⟨iov, destSa⟩ := spec
      rw [OnePiece]
      cases hresult : sends i with
      | failed =>
          rw [sendSpecs_of_refused (by simp [hresult]), sendsLeading_nil_iff, hresult]
          dsimp only
          split_ifs with hany <;> simp
      | wouldBlock =>
          rw [sendSpecs_of_refused (by simp [hresult]), sendsLeading_nil_iff, hresult]
          dsimp only
          constructor
          · rintro ⟨-, hsmall, hstop⟩
            refine ⟨hsmall, ?_⟩
            by_contra hany
            exact hstop (List.cons_ne_nil _ _) (if_neg hany)
          · rintro ⟨hsmall, hany⟩
            rw [if_pos hany]
            exact ⟨by simp, hsmall, by simp⟩
      | sent =>
          dsimp only
          cases iov with
          | nil =>
              rw [sendSpecs_of_empty, iff_false]
              intro hleading
              rcases sendSpecs_nonempty hresult with ⟨datagram, hhead, hle⟩ | ⟨hnil, hnone⟩
              · have hspec := hleading.head hhead
                omega
              · exact hleading.stop_ne_none hnil hnone
          | cons iovec iov =>
              rw [sendSpecs_of_sent hresult, sendsLeading_cons_iff]
              cases iov with
              | nil =>
                  rw [sendSpecs_of_empty, ih]
                  simp
              | cons next iov =>
                  have hflatten : iovec = (iovec :: next :: iov).flatten ↔ (next :: iov).flatten = [] := by
                    rw [List.flatten_cons, List.self_eq_append_right]
                  dsimp only
                  rw [hflatten]
                  cases hnext : sends (i + 1) with
                  | sent =>
                      rw [sendSpecs_of_sent hnext]
                      constructor
                      · rintro ⟨-, hleading⟩
                        have hspec := hleading.head rfl
                        dsimp only at hspec
                        omega
                      · rintro ⟨-, hblocked, -⟩
                        cases hblocked
                  | failed =>
                      rw [sendSpecs_of_refused (by simp [hnext]), sendsLeading_nil_iff, hnext]
                      simp
                  | wouldBlock =>
                      rw [sendSpecs_of_refused (by simp [hnext]), sendsLeading_nil_iff, hnext]
                      simp
                      tauto

/-- **Packets of one piece.** Both functions send the leading specs as a datagram each and return their
number, whatever the array holds and `sendto` does, if and only if each spec they send has one piece. -/
theorem packetsOut_sendsLeading_iff (sends : Nat → SendtoResult) (specs : List OutSpec) :
    (SendsLeading 0 specs (quicPacketsOut sends specs) ↔ OnePiece sends 0 specs) ∧
      (SendsLeading 0 specs (quicListenPacketsOut sends specs) ↔ OnePiece sends 0 specs) :=
  ⟨sendsLeading_iff sends 0 specs, sendsLeading_iff sends 0 specs⟩

/-- A packet of two pieces goes out as two datagrams, and both are counted. -/
theorem packetsOut_two_pieces :
    (quicPacketsOut (fun _ => .sent) [⟨[[1], [2]], []⟩]).ret = 2 ∧
      ¬SendsLeading 0 [⟨[[1], [2]], []⟩] (quicPacketsOut (fun _ => .sent) [⟨[[1], [2]], []⟩]) := by
  refine ⟨by decide, fun hleading => ?_⟩
  have hpiece : OnePiece (fun _ => .sent) 0 [⟨[[1], [2]], []⟩] := (sendsLeading_iff _ 0 _).mp hleading
  obtain ⟨-, hblocked, -⟩ := hpiece
  cases hblocked

end CLibp2p.Quic
