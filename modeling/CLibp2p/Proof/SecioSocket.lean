import CLibp2p.Secio.Socket

/-!
# When a framed message arrives

The loop for the size never advances `written`: after a short `socket_write` it sends the first bytes of
the size once more. The other three loops keep count.
-/

namespace CLibp2p.Secio

open Duplex

/-- The socket takes some of what it is offered, or says EAGAIN. -/
def PartialWrites (schedule : List SocketCall) : Prop :=
  ∀ call ∈ schedule, (∃ count, call = .moved count) ∨ call = .failed .again

/-- The socket gives some of what it is asked for. -/
def PartialReads (schedule : List SocketCall) : Prop :=
  ∀ call ∈ schedule, ∃ count, call = .moved (count + 1)

/-- The message goes out as its size in four bytes and its bytes, and a reader gets it out of them again,
whatever follows and however the reads are split. -/
def Delivers (schedule : List SocketCall) (message : Bytes) : Prop :=
  (unencryptedWriteTo schedule message).2 = be32 (UInt32.ofNat message.length) ++ message ∧
    ∀ reads timeoutSecs rest, PartialReads reads →
      unencryptedReadFrom reads timeoutSecs ((unencryptedWriteTo schedule message).2 ++ rest) =
        ⟨message.length, some ⟨message, message.length⟩, rest⟩

/-- What each `socket_write` of the size takes, from the front of the size, is what was due after `done`
bytes. -/
def CutsMatch (size : Bytes) : (done : Nat) → (schedule : List SocketCall) → Prop
  | done, [] => size.take (4 - done) = size.drop done
  | done, .moved taken :: schedule =>
      let count := min taken (4 - done)
      size.take count = (size.drop done).take count ∧
        (done + count < 4 → CutsMatch size (done + count) schedule)
  | done, _ :: schedule => CutsMatch size done schedule

/-! ### Writing -/

theorem length_be32 (x : UInt32) : (be32 x).length = 4 := rfl

theorem due_take (data : Bytes) (left written : Nat) :
    due data left written = (data.drop written).take left := by
  rw [due, if_neg (by omega), Int.toNat_natCast]

theorem append_eq_iff_take {first second data : Bytes} :
    first ++ second = data ↔ first = data.take first.length ∧ second = data.drop first.length := by
  constructor
  · rintro rfl
    exact ⟨List.take_left.symm, List.drop_left.symm⟩
  · rintro ⟨hfirst, hsecond⟩
    rw [hsecond]
    nth_rewrite 1 [hfirst]
    exact List.take_append_drop _ _

/-- The loop for the size sends four bytes, and they are the size if the cuts match. -/
theorem writeLoop_size {size : Bytes} (hsize : size.length = 4) {schedule : List SocketCall}
    (hwrites : PartialWrites schedule) {done : Nat} (hdone : done < 4) :
    ∃ sent rest, writeLoop (fun _ => 0) size schedule (4 - done : Nat) 0 = ⟨sent, some 0, rest⟩ ∧
      sent.length = 4 - done ∧ PartialWrites rest ∧
      (sent = size.drop done ↔ CutsMatch size done schedule) := by
  induction schedule generalizing done with
  | nil =>
      refine ⟨size.take (4 - done), [], ?_, ?_, hwrites, Iff.rfl⟩
      · rw [writeLoop, due_take, List.drop_zero]
      · rw [List.length_take, hsize]
        omega
  | cons call schedule ih =>
      have hrest : PartialWrites schedule := fun call hcall => hwrites call (List.mem_cons_of_mem _ hcall)
      obtain ⟨taken, rfl⟩ | rfl := hwrites call List.mem_cons_self
      · have hmin : min taken (4 - done) ≤ 4 - done := Nat.min_le_right _ _
        have hchunk : (due size ((4 - done : Nat) : Int) 0).take taken =
            size.take (min taken (4 - done)) := by
          rw [due_take, List.drop_zero, List.take_take]
        have hlength : (size.take (min taken (4 - done))).length = min taken (4 - done) := by
          rw [List.length_take]
          omega
        rw [writeLoop, hchunk, hlength]
        dsimp only
        by_cases hmore : done + min taken (4 - done) < 4
        · have hleft : ((4 - done : Nat) : Int) - (min taken (4 - done) : Nat) =
              ((4 - (done + min taken (4 - done)) : Nat) : Int) := by omega
          obtain ⟨sent, rest, hloop, hsent, hwrites', hmatch⟩ := ih hrest hmore
          rw [hleft, if_pos (by omega), hloop]
          refine ⟨_, rest, rfl, ?_, hwrites', ?_⟩
          · rw [List.length_append, hlength, hsent]
            omega
          · rw [append_eq_iff_take, hlength, List.drop_drop, hmatch]
            exact and_congr_right fun _ => (imp_iff_right hmore).symm
        · rw [if_neg (by omega)]
          refine ⟨_, schedule, rfl, by omega, hrest, ?_⟩
          have hall : (size.drop done).take (min taken (4 - done)) = size.drop done :=
            List.take_of_length_le (by rw [List.length_drop]; omega)
          rw [CutsMatch, hall]
          exact (and_iff_left fun hless => absurd hless hmore).symm
      · rw [writeLoop, if_pos (by omega)]
        exact ih hrest hdone

theorem writeLoop_body {message : Bytes} {schedule : List SocketCall}
    (hwrites : PartialWrites schedule) {written : Nat} (hwritten : written < message.length) :
    ∃ rest, writeLoop id message schedule (message.length - written : Nat) written =
      ⟨message.drop written, some message.length, rest⟩ := by
  induction schedule generalizing written with
  | nil =>
      have hcount : written + (message.length - written) = message.length :=
        Nat.add_sub_cancel' (Nat.le_of_lt hwritten)
      refine ⟨[], ?_⟩
      rw [writeLoop, due_take, List.take_of_length_le (by rw [List.length_drop]), List.length_drop, id,
        hcount]
  | cons call schedule ih =>
      have hrest : PartialWrites schedule := fun call hcall => hwrites call (List.mem_cons_of_mem _ hcall)
      obtain ⟨taken, rfl⟩ | rfl := hwrites call List.mem_cons_self
      · have hdue : due message ((message.length - written : Nat) : Int) written =
            message.drop written := by
          rw [due_take, List.take_of_length_le (by rw [List.length_drop])]
        have hlength : ((message.drop written).take taken).length =
            min taken (message.length - written) := by
          rw [List.length_take, List.length_drop]
        rw [writeLoop, hdue, hlength, id]
        by_cases hmore : written + min taken (message.length - written) < message.length
        · obtain ⟨rest, hloop⟩ := ih hrest hmore
          have hleft : ((message.length - written : Nat) : Int) -
              (min taken (message.length - written) : Nat) =
                ((message.length - (written + min taken (message.length - written)) : Nat) : Int) := by
            omega
          refine ⟨rest, ?_⟩
          dsimp only
          rw [hleft, if_pos (by omega), hloop]
          have hjoin : (message.drop written).take taken ++
              message.drop (written + min taken (message.length - written)) = message.drop written :=
            append_eq_iff_take.mpr ⟨by rw [hlength, ← List.length_drop, List.take_eq_take_min],
              by rw [hlength, List.drop_drop]⟩
          rw [hjoin]
        · refine ⟨schedule, ?_⟩
          dsimp only
          rw [if_neg (by omega), List.take_of_length_le (by rw [List.length_drop]; omega)]
          rw [show written + min taken (message.length - written) = message.length by omega]
      · rw [writeLoop, if_pos (by omega)]
        exact ih hrest hwritten

/-- What goes out: four bytes, which are the size if the cuts match, and the message, if its size is an
`int`. -/
theorem unencryptedWriteTo_sent {schedule : List SocketCall} (hwrites : PartialWrites schedule)
    {message : Bytes} (hpos : 0 < message.length) :
    ∃ head body, (unencryptedWriteTo schedule message).2 = head ++ body ∧ head.length = 4 ∧
      (head = be32 (UInt32.ofNat message.length) ↔
        CutsMatch (be32 (UInt32.ofNat message.length)) 0 schedule) ∧
      (message.length < intBound → body = message) := by
  obtain ⟨head, rest, hloop, hlength, hwrites', hmatch⟩ :=
    writeLoop_size (length_be32 (UInt32.ofNat message.length)) hwrites (Nat.succ_pos 3)
  rw [List.drop_zero] at hmatch
  refine ⟨head, (writeLoop id message rest (intOfSize message.length) 0).sent, ?_, hlength, hmatch, ?_⟩
  · rw [unencryptedWriteTo, if_neg (Nat.pos_iff_ne_zero.mp hpos)]
    dsimp only at hloop ⊢
    rw [show (4 : Int) = ((4 - 0 : Nat) : Int) from rfl, hloop]
    dsimp only
    split <;> rfl
  · intro hint
    obtain ⟨rest', hbody⟩ : ∃ rest', writeLoop id message rest (message.length - 0 : Nat) 0 =
        ⟨message.drop 0, some message.length, rest'⟩ := writeLoop_body hwrites' hpos
    rw [Nat.sub_zero, List.drop_zero] at hbody
    rw [intOfSize_of_lt hint, hbody]

/-! ### Reading -/

theorem readSize_partial {reads : List SocketCall} (hreads : PartialReads reads)
    {got more : Bytes} (hmore : 0 < more.length) (hlength : got.length + more.length = 4)
    (timeLeft : Int) (rest : Bytes) :
    ∃ reads', readSize reads got timeLeft (more ++ rest) = ⟨some (got ++ more), reads', rest⟩ ∧
      PartialReads reads' := by
  induction reads generalizing got more with
  | nil =>
      refine ⟨[], ?_, hreads⟩
      rw [readSize, if_neg (by rw [List.length_append]; omega), List.take_left' (by omega),
        List.drop_left' (by omega)]
  | cons call reads ih =>
      obtain ⟨count, rfl⟩ := hreads call List.mem_cons_self
      have hrest : PartialReads reads := fun call hcall => hreads call (List.mem_cons_of_mem _ hcall)
      obtain ⟨byte, more, rfl⟩ := List.exists_cons_of_length_pos hmore
      rw [List.length_cons] at hlength
      rw [List.cons_append, readSize]
      by_cases hagain : got.length + 1 < 4
      · have hcount : (got ++ [byte]).length + more.length = 4 := by
          rw [List.length_append, List.length_singleton]
          omega
        obtain ⟨reads', hread, hreads'⟩ := ih hrest (by omega) hcount
        refine ⟨reads', ?_, hreads'⟩
        rw [if_pos hagain, hread, List.append_assoc, List.singleton_append]
      · obtain rfl : more = [] := List.length_eq_zero_iff.mp (by omega)
        exact ⟨reads, if_neg hagain, hrest⟩

theorem readBody_partial {reads : List SocketCall} (hreads : PartialReads reads) (dataSize : Nat)
    {data more : Bytes} (hmore : 0 < more.length) (timeLeft : Int) (rest : Bytes) :
    readBody dataSize reads more.length data timeLeft (more ++ rest) =
      ⟨intOfSize dataSize, some ⟨data ++ more, dataSize⟩, rest⟩ := by
  induction reads generalizing data more with
  | nil =>
      rw [readBody, if_neg (by rw [List.length_append]; omega), Int.toNat_natCast, List.take_left,
        List.drop_left]
  | cons call reads ih =>
      obtain ⟨count, rfl⟩ := hreads call List.mem_cons_self
      have hrest : PartialReads reads := fun call hcall => hreads call (List.mem_cons_of_mem _ hcall)
      have hlength : (more.take (count + 1)).length = min (count + 1) more.length := List.length_take
      rw [readBody, Int.toNat_natCast, List.take_left]
      dsimp only
      rw [if_neg (by omega)]
      by_cases hagain : (more.take (count + 1)).length < more.length
      · have hdrop : (more ++ rest).drop (more.take (count + 1)).length =
            more.drop (count + 1) ++ rest := by
          rw [List.drop_append_of_le_length (Nat.le_of_lt hagain), hlength,
            Nat.min_eq_left (by omega)]
        have hleft : (more.length : Int) - (more.take (count + 1)).length =
            (more.drop (count + 1)).length := by
          rw [List.length_drop]
          omega
        rw [if_pos (by omega), hdrop, hleft, ih hrest (by rw [List.length_drop]; omega),
          List.append_assoc, List.take_append_drop]
      · have hall : more.take (count + 1) = more := List.take_of_length_le (by omega)
        rw [if_neg (by omega), hall, List.drop_left]

theorem sizeOf_be32 (x : UInt32) : sizeOf (be32 x) = x.toNat := congrArg UInt32.toNat (ofBe32_be32 x)

theorem unencryptedReadFrom_framed {reads : List SocketCall} (hreads : PartialReads reads)
    (timeoutSecs : Int) {x : UInt32} (hx : x.toNat ≠ 0) (rest : Bytes) :
    ∃ reads', PartialReads reads' ∧
      unencryptedReadFrom reads timeoutSecs (be32 x ++ rest) =
        readBody x.toNat reads' (intOfSize x.toNat) [] timeoutSecs rest := by
  have hpos : 0 < (be32 x).length := Nat.succ_pos 3
  have hsize : ([] : Bytes).length + (be32 x).length = 4 := rfl
  obtain ⟨reads', hread, hreads'⟩ := readSize_partial hreads hpos hsize timeoutSecs rest
  refine ⟨reads', hreads', ?_⟩
  rw [List.nil_append] at hread
  rw [unencryptedReadFrom, hread]
  dsimp only
  rw [sizeOf_be32, if_neg hx]

theorem readBody_retVal (dataSize : Nat) (reads : List SocketCall) (left : Int) (data : Bytes)
    (timeLeft : Int) (inbound : Bytes) :
    (readBody dataSize reads left data timeLeft inbound).retVal = 0 ∨
      (readBody dataSize reads left data timeLeft inbound).retVal = intOfSize dataSize := by
  fun_induction readBody dataSize reads left data timeLeft inbound <;> simp_all

theorem unencryptedReadFrom_retVal_lt (reads : List SocketCall) (timeoutSecs : Int) (inbound : Bytes) :
    (unencryptedReadFrom reads timeoutSecs inbound).retVal < intBound := by
  have hzero : (0 : Int) < intBound := by decide
  unfold unencryptedReadFrom
  dsimp only
  split
  · exact hzero
  · rename_i size hsize
    split
    · exact hzero
    · obtain hret | hret := readBody_retVal (sizeOf size) (readSize reads [] timeoutSecs inbound).schedule
        (intOfSize (sizeOf size)) [] timeoutSecs (readSize reads [] timeoutSecs inbound).inbound
      · rw [hret]
        exact hzero
      · rw [hret]
        exact intOfSize_lt (sizeOf size)

/-! ### Both -/

/-- **A framed message.** It arrives exactly if it is not empty, its size is an `int`, and no cut in the
size makes the writer repeat bytes that are not due. -/
theorem delivers_iff {schedule : List SocketCall} (hwrites : PartialWrites schedule)
    (message : Bytes) :
    Delivers schedule message ↔ 0 < message.length ∧ message.length < intBound ∧
      CutsMatch (be32 (UInt32.ofNat message.length)) 0 schedule := by
  constructor
  · rintro ⟨hsent, hreceived⟩
    have hpos : 0 < message.length := by
      by_contra hempty
      have hlength := congrArg List.length hsent
      rw [unencryptedWriteTo, if_pos (by omega), List.length_append, length_be32] at hlength
      exact absurd hlength (by rw [List.length_nil]; omega)
    obtain ⟨head, body, hwrote, hlength, hmatch, -⟩ := unencryptedWriteTo_sent hwrites hpos
    refine ⟨hpos, ?_, ?_⟩
    · have hread := hreceived [] 0 [] fun call hcall => absurd hcall List.not_mem_nil
      have hret := unencryptedReadFrom_retVal_lt [] 0 ((unencryptedWriteTo schedule message).2 ++ [])
      rw [hread] at hret
      exact Int.ofNat_lt.mp hret
    · rw [hwrote] at hsent
      exact hmatch.mp (List.append_inj_left hsent (hlength.trans (length_be32 _).symm))
  · rintro ⟨hpos, hint, hcuts⟩
    obtain ⟨head, body, hwrote, hlength, hmatch, hbody⟩ := unencryptedWriteTo_sent hwrites hpos
    have hx : (UInt32.ofNat message.length).toNat = message.length := by
      rw [intBound] at hint
      rw [UInt32.toNat_ofNat', Nat.mod_eq_of_lt (by omega)]
    rw [hmatch.mpr hcuts, hbody hint] at hwrote
    refine ⟨hwrote, fun reads timeoutSecs rest hreads => ?_⟩
    have hannounced : (UInt32.ofNat message.length).toNat ≠ 0 := by omega
    obtain ⟨reads', hreads', hread⟩ :=
      unencryptedReadFrom_framed hreads timeoutSecs hannounced (message ++ rest)
    rw [hwrote, List.append_assoc, hread, hx, intOfSize_of_lt hint, readBody_partial hreads' _ hpos,
      intOfSize_of_lt hint, List.nil_append]

/-- A first `socket_write` that takes the whole size is enough. -/
theorem cutsMatch_of_whole (size : Bytes) {taken : Nat} (htaken : 4 ≤ taken)
    (schedule : List SocketCall) : CutsMatch size 0 (.moved taken :: schedule) := by
  rw [CutsMatch, Nat.min_eq_right (by omega)]
  exact ⟨rfl, fun hless => absurd hless (by decide)⟩

theorem delivers_iff_split : Delivers [.moved 9, .failed .again, .moved 2] (List.replicate 3 7) :=
  (delivers_iff (by simp [PartialWrites]) _).mpr
    ⟨by decide, by decide, cutsMatch_of_whole _ (by decide) _⟩

/-- Three bytes whose size goes out in two halves are announced as none. -/
theorem delivers_fails : ¬ Delivers [.moved 2] [7, 7, 7] := by
  intro hdelivers
  exact absurd hdelivers.1 (by decide)

end CLibp2p.Secio
