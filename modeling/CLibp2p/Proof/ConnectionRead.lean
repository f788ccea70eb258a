import CLibp2p.Machine.Runs
import CLibp2p.Net.ConnectionRead

/-!
# Bytes that a read drops

A read forgets its first two bytes when nothing comes behind them, and all that it has when a `socket_read`
fails after one that filled the buffer. What comes behind a full buffer is written into a freed block as
soon as `realloc` moves it.
-/

namespace CLibp2p.Net

open Duplex Machine

/-- Every byte of the stream was returned, in order and in memory that is still there, or is to come. -/
def Connection.Kept (stream : Bytes) (s : Connection) : Prop :=
  s.freed = false ∧ s.returned ++ s.inbound = stream

instance (stream : Bytes) (s : Connection) : Decidable (s.Kept stream) :=
  inferInstanceAs (Decidable (_ ∧ _))

/-- With `held` bytes of the message and `left` bytes of the stream, reads that fill the buffer are followed
by one that neither fails nor fills it, the size of the message is an `int`, and its block is never moved. -/
inductive MessageEnds (moves : Nat → Bool) : (schedule : List SocketRead) → (held left : Nat) → Prop where
  | done {count held left : Nat} {schedule : List SocketRead} (hnone : min count left = 0) :
      MessageEnds moves (.came count :: schedule) held left
  | short {count held left : Nat} {schedule : List SocketRead} (hshort : count < 4096 ∨ left < 4096)
      (hsize : held + min count left < intBound) (hstays : moves (held + min count left) = false) :
      MessageEnds moves (.came count :: schedule) held left
  | full {count held left : Nat} {schedule : List SocketRead} (hcount : 4096 ≤ count)
      (hleft : 4096 ≤ left) (hsize : held + 4096 < intBound) (hstays : moves (held + 4096) = false)
      (hends : MessageEnds moves schedule (held + 4096) (left - 4096)) :
      MessageEnds moves (.came count :: schedule) held left

/-- Where two bytes come first, some come behind them, and where these fill the buffer, the message ends. -/
def Lossless (moves : Nat → Bool) : (inbound : Bytes) → (schedule : List SocketRead) → Prop
  | b0 :: b1 :: inbound, .came (_ + 2) :: schedule =>
      ∃ count later, schedule = .came count :: later ∧
        0 < min (min count (lenBehind b0 b1)) inbound.length ∧
        (min (min count (lenBehind b0 b1)) inbound.length = 4094 →
          MessageEnds moves later 4096 (inbound.length - 4094))
  | _, _ => True

section

variable {moves : Nat → Bool}

/-! ### After a full buffer -/

theorem mallocBound_le_sizeOfInt_iff {size : Nat} (hlt : size < 2 * intBound) :
    mallocBound ≤ sizeOfInt (intOfSize size) ↔ intBound ≤ size := by
  constructor
  · intro hbound
    by_contra hsize
    rw [sizeOfInt_intOfSize (Nat.not_le.mp hsize)] at hbound
    rw [mallocBound] at hbound
    rw [intBound] at hlt
    omega
  · intro hsize
    exact sizeOfInt_intOfSize_ge hsize hlt

theorem buildMessage_of_pos {resultBuffer : Bytes} (hpos : 0 < resultBuffer.length) (inbound : Bytes) :
    buildMessage resultBuffer inbound =
      ⟨intOfSize resultBuffer.length, .message resultBuffer, inbound⟩ := if_pos hpos

/-- The bytes that a `socket_read` gets. -/
theorem take_take_spec {count len : Nat} {inbound buffer : Bytes}
    (hbuffer : (inbound.take len).take count = buffer) :
    buffer.length = min (min count len) inbound.length ∧ buffer ++ inbound.drop buffer.length = inbound := by
  subst hbuffer
  constructor
  · rw [List.length_take, List.length_take, Nat.min_assoc]
  · exact List.prefix_iff_eq_append.mp ((List.take_prefix _ _).trans (List.take_prefix _ _))

theorem readMore_came {count : Nat} {schedule : List SocketRead} {resultBuffer inbound buffer : Bytes}
    (hbuffer : (inbound.take 4096).take count = buffer) (hheld : resultBuffer.length < intBound) :
    readMore moves (.came count :: schedule) resultBuffer inbound =
      if buffer.length < 1 then buildMessage resultBuffer inbound
      else if intBound ≤ resultBuffer.length + buffer.length then noMessage (inbound.drop buffer.length)
      else if moves (resultBuffer.length + buffer.length) then
        ⟨intOfSize (resultBuffer.length + buffer.length), .freed, inbound.drop buffer.length⟩
      else if buffer.length ≠ 4096 then
        buildMessage (resultBuffer ++ buffer) (inbound.drop buffer.length)
      else readMore moves schedule (resultBuffer ++ buffer) (inbound.drop buffer.length) := by
  have hlength := (take_take_spec hbuffer).1
  have hsize : resultBuffer.length + buffer.length < 2 * intBound := by
    rw [intBound] at hheld ⊢
    omega
  rw [readMore, socketRead, hbuffer]
  dsimp only
  rw [if_congr (mallocBound_le_sizeOfInt_iff hsize) rfl rfl]

theorem readMore_of_ends {schedule : List SocketRead} {resultBuffer inbound : Bytes}
    (hheld : 0 < resultBuffer.length) (hint : resultBuffer.length < intBound)
    (hends : MessageEnds moves schedule resultBuffer.length inbound.length) :
    ∃ msg, (readMore moves schedule resultBuffer inbound).msg = .message msg ∧
      msg ++ (readMore moves schedule resultBuffer inbound).inbound = resultBuffer ++ inbound := by
  generalize hheldIs : resultBuffer.length = held at hends
  generalize hleftIs : inbound.length = left at hends
  induction hends generalizing resultBuffer inbound with
  | @done count _ _ schedule hnone =>
      subst hheldIs hleftIs
      generalize hbuffer : (inbound.take 4096).take count = buffer
      obtain ⟨hlength, -⟩ := take_take_spec hbuffer
      rw [readMore_came hbuffer hint, if_pos (by omega), buildMessage_of_pos hheld]
      exact ⟨resultBuffer, rfl, rfl⟩
  | @short count _ _ schedule hshort hsize hstays =>
      subst hheldIs hleftIs
      generalize hbuffer : (inbound.take 4096).take count = buffer
      obtain ⟨hlength, hwhole⟩ := take_take_spec hbuffer
      have hcount : buffer.length = min count inbound.length := by omega
      rw [readMore_came hbuffer hint]
      split
      · rw [buildMessage_of_pos hheld]
        exact ⟨resultBuffer, rfl, rfl⟩
      · rw [if_neg (by omega), hcount, hstays, if_neg Bool.false_ne_true, if_pos (by omega),
          buildMessage_of_pos (by simp; omega)]
        refine ⟨resultBuffer ++ buffer, rfl, ?_⟩
        rw [List.append_assoc, ← hcount, hwhole]
  | @full count _ _ schedule hcount hleft hsize hstays hends ih =>
      subst hheldIs hleftIs
      generalize hbuffer : (inbound.take 4096).take count = buffer
      obtain ⟨hsome, hwhole⟩ := take_take_spec hbuffer
      have hlength : buffer.length = 4096 := by omega
      rw [readMore_came hbuffer hint, if_neg (by omega), if_neg (by omega), hlength, hstays,
        if_neg Bool.false_ne_true, if_neg (not_not.mpr rfl), ← hlength]
      have hheld' : (resultBuffer ++ buffer).length = resultBuffer.length + 4096 := by
        rw [List.length_append, hlength]
      have hleft' : (inbound.drop buffer.length).length = inbound.length - 4096 := by
        rw [List.length_drop, hlength]
      obtain ⟨msg, hmsg, hkept⟩ := ih (by omega) (by omega) hheld' hleft'
      refine ⟨msg, hmsg, ?_⟩
      rw [hkept, List.append_assoc, hwhole]

theorem readMore_of_not_ends {schedule : List SocketRead} {resultBuffer inbound : Bytes}
    (hsize : resultBuffer.length < intBound)
    (hends : ¬MessageEnds moves schedule resultBuffer.length inbound.length) :
    (readMore moves schedule resultBuffer inbound).msg = .freed ∨
      (readMore moves schedule resultBuffer inbound).msg = .none ∧
        (readMore moves schedule resultBuffer inbound).inbound.length ≤ inbound.length := by
  induction schedule generalizing resultBuffer inbound with
  | nil => exact Or.inr ⟨rfl, Nat.le_refl _⟩
  | cons result schedule ih =>
      cases result with
      | failed => exact Or.inr ⟨rfl, Nat.le_refl _⟩
      | came count =>
          generalize hbuffer : (inbound.take 4096).take count = buffer
          have hlength := (take_take_spec hbuffer).1
          have hsome : ¬buffer.length < 1 := fun hnone => hends (.done (by omega))
          rw [readMore_came hbuffer hsize, if_neg hsome]
          split
          · exact Or.inr ⟨rfl, by rw [noMessage, List.length_drop]; omega⟩
          · rename_i hfits
            split
            · exact Or.inl rfl
            · rename_i hstays
              rw [Bool.not_eq_true] at hstays
              have hfull : buffer.length = 4096 := by
                by_contra hshort
                have hcount : buffer.length = min count inbound.length := by omega
                rw [hcount] at hstays
                exact hends (.short (by omega) (by omega) hstays)
              rw [if_neg (not_not.mpr hfull)]
              have hnext : ¬MessageEnds moves schedule (resultBuffer ++ buffer).length
                  (inbound.drop buffer.length).length := by
                rw [List.length_append, List.length_drop, hfull]
                rw [hfull] at hstays
                intro hlater
                exact hends (.full (by omega) (by omega) (by omega) hstays hlater)
              rcases ih (by rw [List.length_append]; omega) hnext with hfreed | ⟨hmsg, hless⟩
              · exact Or.inl hfreed
              · rw [List.length_drop] at hless
                exact Or.inr ⟨hmsg, by omega⟩

/-! ### One call -/

theorem data_buildMessage (resultBuffer inbound : Bytes) :
    (buildMessage resultBuffer inbound).msg ≠ .freed ∧
      (buildMessage resultBuffer inbound).msg.data ++ (buildMessage resultBuffer inbound).inbound =
        resultBuffer ++ inbound := by
  rw [buildMessage]
  split
  · exact ⟨Returned.noConfusion, rfl⟩
  · rename_i hempty
    rw [List.eq_nil_of_length_eq_zero (Nat.eq_zero_of_not_pos hempty)]
    exact ⟨Returned.noConfusion, rfl⟩

theorem readFirst_two (first : Nat) (b0 b1 : UInt8) (schedule : List SocketRead) (inbound : Bytes) :
    readFirst (.came (first + 2) :: schedule) (b0 :: b1 :: inbound) =
      match schedule with
      | .came count :: later =>
          let more := (inbound.take (lenBehind b0 b1)).take count
          ⟨some (if 0 < more.length then b0 :: b1 :: more else []), later, inbound.drop more.length⟩
      | schedule => ⟨none, schedule.tail, inbound⟩ := by
  have htwo : socketRead (.came (first + 2)) 2 (b0 :: b1 :: inbound) = some [b0, b1] := by
    simp [socketRead]
  rw [readFirst, htwo]
  rcases schedule with _ | ⟨_ | _, _⟩ <;> rfl

theorem connectionRead_two (first : Nat) (b0 b1 : UInt8) {count : Nat} {later : List SocketRead}
    {inbound more : Bytes} (hmore : (inbound.take (lenBehind b0 b1)).take count = more) :
    connectionRead moves (.came (first + 2) :: .came count :: later) (b0 :: b1 :: inbound) =
      if more.length = 0 then noMessage inbound
      else if more.length ≠ 4094 then buildMessage (b0 :: b1 :: more) (inbound.drop more.length)
      else readMore moves later (b0 :: b1 :: more) (inbound.drop more.length) := by
  rw [connectionRead, readFirst_two]
  dsimp only
  rw [hmore]
  by_cases hnone : more.length = 0
  · rw [if_neg (Nat.not_lt.mpr (Nat.le_of_eq hnone)), if_pos hnone, hnone]
    rfl
  · rw [if_pos (Nat.pos_of_ne_zero hnone), if_neg hnone]
    exact if_congr (by simp) rfl rfl

theorem connectionRead_of_lossless {schedule : List SocketRead} {inbound : Bytes}
    (hlossless : Lossless moves inbound schedule) :
    (connectionRead moves schedule inbound).msg ≠ .freed ∧
      (connectionRead moves schedule inbound).msg.data ++ (connectionRead moves schedule inbound).inbound =
        inbound := by
  match schedule, inbound with
  | .came (first + 2) :: schedule, b0 :: b1 :: inbound =>
      obtain ⟨count, later, rfl, hpos, hends⟩ := hlossless
      generalize hmore : (inbound.take (lenBehind b0 b1)).take count = more
      obtain ⟨hlength, hwhole⟩ := take_take_spec hmore
      rw [connectionRead_two first b0 b1 hmore, if_neg (by omega)]
      split
      · obtain ⟨hlive, hdata⟩ := data_buildMessage (b0 :: b1 :: more) (inbound.drop more.length)
        refine ⟨hlive, ?_⟩
        rw [hdata, List.cons_append, List.cons_append, hwhole]
      · rename_i hfull
        rw [not_not] at hfull
        have hheld : (b0 :: b1 :: more).length = 4096 := by
          rw [List.length_cons, List.length_cons, hfull]
        have hlater : MessageEnds moves later (b0 :: b1 :: more).length (inbound.drop more.length).length := by
          rw [hheld, List.length_drop, hfull]
          exact hends (hlength.symm.trans hfull)
        obtain ⟨msg, hmsg, hkept⟩ := readMore_of_ends (by omega) (by rw [hheld]; decide) hlater
        refine ⟨hmsg ▸ Returned.noConfusion, ?_⟩
        rw [hmsg, Returned.data, hkept, List.cons_append, List.cons_append, hwhole]
  | [], _ => exact ⟨Returned.noConfusion, rfl⟩
  | .failed :: _, _ => exact ⟨Returned.noConfusion, rfl⟩
  | .came 0 :: _, inbound =>
      rw [connectionRead, readFirst, socketRead, List.take_zero]
      exact ⟨Returned.noConfusion, rfl⟩
  | .came 1 :: _, [] => exact ⟨Returned.noConfusion, rfl⟩
  | .came 1 :: _, _ :: _ => exact ⟨Returned.noConfusion, rfl⟩
  | .came (_ + 2) :: _, [] => exact ⟨Returned.noConfusion, rfl⟩
  | .came (first + 2) :: _, [byte] =>
      have hone : socketRead (.came (first + 2)) 2 [byte] = some [byte] := by simp [socketRead]
      rw [connectionRead, readFirst, hone]
      exact ⟨Returned.noConfusion, rfl⟩

theorem connectionRead_of_not_lossless {schedule : List SocketRead} {inbound : Bytes}
    (hlossless : ¬Lossless moves inbound schedule) :
    (connectionRead moves schedule inbound).msg = .freed ∨
      (connectionRead moves schedule inbound).msg = .none ∧
        (connectionRead moves schedule inbound).inbound.length < inbound.length := by
  rw [Lossless.eq_def] at hlossless
  split at hlossless
  · rename_i b0 b1 inbound first schedule
    have hdropped : (noMessage inbound).msg = .freed ∨ (noMessage inbound).msg = .none ∧
        (noMessage inbound).inbound.length < (b0 :: b1 :: inbound).length := by
      refine Or.inr ⟨rfl, ?_⟩
      rw [List.length_cons, List.length_cons]
      exact Nat.lt_add_of_pos_right Nat.two_pos
    match schedule with
    | [] =>
        rw [connectionRead, readFirst_two]
        exact hdropped
    | .failed :: later =>
        rw [connectionRead, readFirst_two]
        exact hdropped
    | .came count :: later =>
        generalize hmore : (inbound.take (lenBehind b0 b1)).take count = more
        have hlength := (take_take_spec hmore).1
        rw [connectionRead_two first b0 b1 hmore]
        split
        · exact hdropped
        · have hends : more.length = 4094 ∧ ¬MessageEnds moves later 4096 (inbound.length - 4094) := by
            by_contra hends
            refine hlossless ⟨count, later, rfl, by omega, fun hfull => ?_⟩
            by_contra hlater
            exact hends ⟨hlength.trans hfull, hlater⟩
          rw [if_neg (not_not.mpr hends.1)]
          have hsize : (b0 :: b1 :: more).length < intBound := by
            rw [List.length_cons, List.length_cons, hends.1, intBound]
            decide
          have hlater : ¬MessageEnds moves later (b0 :: b1 :: more).length
              (inbound.drop more.length).length := by
            rw [List.length_cons, List.length_cons, List.length_drop, hends.1]
            exact hends.2
          rcases readMore_of_not_ends hsize hlater with hfreed | ⟨hmsg, hless⟩
          · exact Or.inl hfreed
          · refine Or.inr ⟨hmsg, Nat.lt_of_le_of_lt hless ?_⟩
            rw [List.length_drop, List.length_cons, List.length_cons]
            omega
  · exact absurd trivial hlossless

end

/-- **No byte is lost.** In every state reached by calls, what was returned and what is to come is the
stream, if and only if every call is lossless. -/
theorem kept_iff_lossless (stream : Bytes) (calls : List ReadInput) :
    (∀ reached, reached <+: calls → (run Connection.step (.start stream) reached).Kept stream) ↔
      Along Connection.step (fun s input => Lossless input.moves s.inbound input.schedule) (.start stream) calls := by
  refine along_iff_good Connection.step (fun s hkept => hkept) ?_ ?_ ⟨rfl, rfl⟩
  · rintro s input ⟨hlive, hkept⟩ hlossless
    obtain ⟨hmsg, hdata⟩ := connectionRead_of_lossless hlossless
    constructor
    · rw [Connection.step, hlive, Bool.false_or]
      exact beq_false_of_ne hmsg
    · rw [Connection.step]
      dsimp only
      rw [List.append_assoc, hdata]
      exact hkept
  · rintro s input ⟨hlive, hkept⟩ hlossy ⟨hlive', hkept'⟩
    rcases connectionRead_of_not_lossless hlossy with hfreed | ⟨hmsg, hless⟩
    · rw [Connection.step, hfreed, hlive] at hlive'
      cases hlive'
    · rw [Connection.step] at hkept'
      dsimp only at hkept'
      have hnothing : Returned.none.data = [] := rfl
      rw [hmsg, hnothing, List.append_nil, ← hkept, List.append_cancel_left_eq] at hkept'
      rw [hkept'] at hless
      exact Nat.lt_irrefl _ hless

/-- **Two bytes with nothing behind them are dropped**, and so are the length 1 and a slash with something
behind them. The byte behind a full buffer goes to a freed block. -/
theorem not_kept_two :
    ¬(run Connection.step (.start [97, 98]) [⟨fun _ => false, [.came 2, .failed]⟩]).Kept [97, 98] ∧
      ¬(run Connection.step (.start [1, 47, 99]) [⟨fun _ => false, [.came 2, .came 1]⟩]).Kept [1, 47, 99] ∧
      ¬(run Connection.step (.start (1 :: 1 :: List.replicate 4095 1))
        [⟨fun _ => true, [.came 2, .came 4094, .came 1]⟩]).Kept (1 :: 1 :: List.replicate 4095 1) := by
  refine ⟨by decide, by decide, fun hkept => ?_⟩
  have hmore : ((List.replicate 4095 (1 : UInt8)).take (lenBehind 1 1)).take 4094 = List.replicate 4094 1 := by
    rw [List.take_replicate, List.take_replicate]
    congr 1
  have hlast : (((List.replicate 4095 (1 : UInt8)).drop 4094).take 4096).take 1 = [1] := by
    rw [List.drop_replicate, List.take_replicate, List.take_replicate]
    rfl
  have hfreed : (connectionRead (fun _ => true) [.came 2, .came 4094, .came 1]
      (1 :: 1 :: List.replicate 4095 1)).msg = .freed := by
    rw [connectionRead_two 0 1 1 hmore, List.length_replicate, if_neg (by decide), if_neg (by decide),
      readMore_came hlast (by rw [List.length_cons, List.length_cons, List.length_replicate]; decide)]
    rw [if_neg (by decide), if_neg, if_pos rfl]
    rw [List.length_cons, List.length_cons, List.length_replicate]
    decide
  have hlive := hkept.1
  rw [run_cons, run_nil, Connection.step, Connection.start, hfreed] at hlive
  cases hlive

end CLibp2p.Net
