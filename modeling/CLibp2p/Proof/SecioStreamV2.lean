import CLibp2p.Machine.Runs
import CLibp2p.Secio.StreamV2

/-!
# Writes that the raw stream cuts short

The cipher moves on by what it is given and the raw stream by what it takes. A byte that is taken after a
write was cut short was enciphered at a later position than the one it is deciphered at, and the two
positions agree on every run exactly if no such byte is taken.
-/

namespace CLibp2p.SecioV2

open Duplex Machine

/-- How many bytes the call enciphers. -/
def WriteCall.given (call : WriteCall) : Nat := if call.refused then 0 else call.inl

/-- How many of them the raw stream takes. -/
def WriteCall.taken (call : WriteCall) : Nat := min (call.accepted.getD 0) call.given

/-- The bytes read are a prefix of the bytes written, and each ciphertext had room. -/
structure Link.Delivers (link : Link) : Prop where
  room : link.overrun = false
  order : link.read <+: link.written

/-- Each ciphertext has room, and nothing is taken any more once a write was cut short. -/
def InStep : (short : Bool) → List WriteCall → Prop
  | _, [] => True
  | short, call :: calls =>
      call.given ≤ cipherBufSize ∧ (short = true → call.taken = 0) ∧
        InStep (short || decide (call.taken < call.given)) calls

/-! ### Positions -/

/-- The positions of the key stream at which the bytes that are taken were enciphered. -/
def positions : (used : Nat) → List WriteCall → List Nat
  | _, [] => []
  | used, call :: calls => List.range' used call.taken ++ positions (used + call.given) calls

def acceptedBytes (calls : List WriteCall) : Bytes := calls.flatMap fun call => call.buf.take call.taken

theorem WriteCall.taken_le (call : WriteCall) : call.taken ≤ call.given := Nat.min_le_right _ _

/-- A length that fits the buffer as an `int` is not above the size it comes from. -/
theorem sizeOfInt_intOfSize_le {size : Nat} (hroom : sizeOfInt (intOfSize size) ≤ cipherBufSize) :
    sizeOfInt (intOfSize size) ≤ size := by
  have hint : intOfSize size = if (size : Int) % 4294967296 < 2147483648 then (size : Int) % 4294967296
      else (size : Int) % 4294967296 - 4294967296 := rfl
  have hsize : sizeOfInt (intOfSize size) = (intOfSize size % 18446744073709551616).toNat := rfl
  have hbuf : cipherBufSize = 2048 := rfl
  rw [hsize] at hroom ⊢
  split_ifs at hint <;> omega

theorem WriteCall.given_le (call : WriteCall) (hroom : call.given ≤ cipherBufSize) :
    call.given ≤ call.buf.length := by
  rw [given] at *
  split_ifs at * with hrefused
  · exact Nat.zero_le _
  · exact sizeOfInt_intOfSize_le hroom

theorem WriteCall.length_taken {call : WriteCall} (hroom : call.given ≤ cipherBufSize) :
    (call.buf.take call.taken).length = call.taken :=
  List.length_take_of_le (Nat.le_trans call.taken_le (call.given_le hroom))

theorem length_positions {calls : List WriteCall} (hroom : ∀ call ∈ calls, call.given ≤ cipherBufSize)
    (used : Nat) : (acceptedBytes calls).length = (positions used calls).length := by
  induction calls generalizing used with
  | nil => rfl
  | cons call calls ih =>
      obtain ⟨hcall, hcalls⟩ := List.forall_mem_cons.mp hroom
      have hrest := ih hcalls (used + call.given)
      rw [acceptedBytes] at hrest
      rw [acceptedBytes, List.flatMap_cons, positions, List.length_append, List.length_append, hrest,
        List.length_range', WriteCall.length_taken hcall]

theorem inStep_iff {short : Bool} {calls : List WriteCall} {used start : Nat} (hle : start ≤ used)
    (hshort : short = true ↔ start < used) :
    InStep short calls ↔ (∀ call ∈ calls, call.given ≤ cipherBufSize) ∧
      positions used calls = List.range' start (positions used calls).length := by
  induction calls generalizing short used start with
  | nil => simp [InStep, positions]
  | cons call calls ih =>
      have htaken := call.taken_le
      have hhead : List.range' used call.taken = List.range' start call.taken ↔
          (short = true → call.taken = 0) := by
        rw [hshort]
        constructor
        · intro heq hlt
          by_contra hne
          obtain ⟨taken, hsucc⟩ := Nat.exists_eq_succ_of_ne_zero hne
          rw [hsucc, List.range'_succ, List.range'_succ] at heq
          exact absurd (List.cons.inj heq).1 (Nat.ne_of_gt hlt)
        · intro hzero
          by_cases hlt : start < used
          · rw [hzero hlt, List.range'_zero, List.range'_zero]
          · rw [Nat.le_antisymm hle (Nat.not_lt.mp hlt)]
      have hsplit : positions used (call :: calls) =
            List.range' start (positions used (call :: calls)).length ↔
          List.range' used call.taken = List.range' start call.taken ∧
            positions (used + call.given) calls =
              List.range' (start + call.taken) (positions (used + call.given) calls).length := by
        rw [positions, List.length_append, List.length_range', ← List.range'_append_1]
        constructor
        · intro heq
          exact List.append_inj heq (by rw [List.length_range', List.length_range'])
        · rintro ⟨hfront, hback⟩
          rw [hfront, ← hback]
      have hnext : (short = true → call.taken = 0) →
          ((short || decide (call.taken < call.given)) = true ↔
            start + call.taken < used + call.given) := by
        intro hzero
        rw [Bool.or_eq_true, decide_eq_true_eq]
        by_cases hlt : start < used
        · have htook := hzero (hshort.mpr hlt)
          exact iff_of_true (Or.inl (hshort.mpr hlt)) (by omega)
        · have hnot : ¬short = true := fun h => hlt (hshort.mp h)
          rw [or_iff_right hnot]
          omega
      rw [InStep, List.forall_mem_cons, hsplit, hhead]
      constructor
      · rintro ⟨hroom, hzero, hrest⟩
        rw [ih (by omega) (hnext hzero)] at hrest
        exact ⟨⟨hroom, hrest.1⟩, hzero, hrest.2⟩
      · rintro ⟨⟨hroom, hrooms⟩, hzero, hrest⟩
        exact ⟨hroom, hzero, (ih (by omega) (hnext hzero)).mpr ⟨hrooms, hrest⟩⟩

/-! ### Runs -/

variable {keyStream : Nat → UInt8}

/-- What the reader has, once it has read all that is on its way. -/
def Link.whole (link : Link) : Bytes := link.read ++ (link.readCtx.update link.wire).1

/-- The two contexts belong to the key, and the reader's is where the bytes read end. -/
structure Link.Keyed (keyStream : Nat → UInt8) (link : Link) : Prop where
  writeKey : link.writeCtx.keyStream = keyStream
  readKey : link.readCtx.keyStream = keyStream
  readPos : link.readCtx.used = link.read.length

theorem take_range' (start n k : Nat) : (List.range' start n).take k = List.range' start (min k n) := by
  rcases Nat.le_total n k with hle | hle
  · rw [List.take_range'_of_length_le hle, Nat.min_eq_right hle]
  · rw [List.take_range'_of_length_ge hle, Nat.min_eq_left hle]

/-- What a call puts on the raw stream if its ciphertext has room. -/
theorem streamWrite_of_room (ctx : CipherCtx) {call : WriteCall} (hroom : call.given ≤ cipherBufSize) :
    ∃ ret : Int, ret.toNat = call.taken ∧ streamWrite ctx call = some (ret,
      xorAt ctx.keyStream (call.buf.take call.taken) (List.range' ctx.used call.taken),
      { ctx with used := ctx.used + call.given }) := by
  have hgiven := call.given_le hroom
  rw [WriteCall.taken]
  rw [WriteCall.given] at *
  rw [streamWrite]
  by_cases hrefused : call.refused
  · rw [if_pos hrefused, if_pos hrefused, Nat.min_zero, List.take_zero]
    exact ⟨-1, rfl, rfl⟩
  · rw [if_neg hrefused] at *
    rw [if_neg hrefused, if_neg (Nat.not_lt.mpr hroom)]
    have hlength : (call.buf.take call.inl).length = call.inl := List.length_take_of_le hgiven
    cases call.accepted with
    | none =>
        rw [Option.getD_none, Nat.zero_min, List.take_zero]
        refine ⟨-1, rfl, ?_⟩
        simp only [CipherCtx.update, hlength]
        rfl
    | some accepted =>
        have hcipher : (xorAt ctx.keyStream (call.buf.take call.inl) (List.range' ctx.used call.inl)).take
            accepted = xorAt ctx.keyStream (call.buf.take (min accepted call.inl))
              (List.range' ctx.used (min accepted call.inl)) := by
          rw [take_xorAt, List.take_take, take_range']
        have htaken : (xorAt ctx.keyStream (call.buf.take (min accepted call.inl))
            (List.range' ctx.used (min accepted call.inl))).length = min accepted call.inl := by
          rw [length_xorAt _ (by rw [List.length_take, List.length_range']; omega), List.length_take]
          omega
        refine ⟨(min accepted call.inl : Nat), rfl, ?_⟩
        simp only [CipherCtx.update, hlength, hcipher, htaken, Option.getD_some]

theorem streamWrite_overrun {ctx : CipherCtx} {call : WriteCall} (hroom : cipherBufSize < call.given) :
    streamWrite ctx call = none := by
  rw [WriteCall.given] at hroom
  split_ifs at hroom with hrefused
  · exact absurd hroom (Nat.not_lt_zero _)
  · rw [streamWrite, if_neg hrefused, if_pos hroom]

/-- A read takes some of what is on its way. -/
theorem streamRead_cases (ctx : CipherCtx) (wire : Bytes) (count granted : Nat) :
    ∃ n, streamRead ctx wire count granted =
      ((ctx.update (wire.take n)).1, wire.drop (wire.take n).length, (ctx.update (wire.take n)).2) := by
  refine ⟨min granted (if cipherBufSize < count then cipherBufSize else count), ?_⟩
  rw [streamRead]
  dsimp only
  split_ifs with hlarge hempty hempty
  · rw [hempty]
    rfl
  · rfl
  · rw [hempty]
    rfl
  · rfl

/-- A second piece is deciphered from where the first one ended. -/
theorem update_append (ctx : CipherCtx) (front back : Bytes) :
    (ctx.update (front ++ back)).1 = (ctx.update front).1 ++ ((ctx.update front).2.update back).1 := by
  simp only [CipherCtx.update, List.length_append]
  rw [← List.range'_append_1, xorAt_append _ List.length_range'.symm]

theorem length_update (ctx : CipherCtx) (input : Bytes) : (ctx.update input).1.length = input.length :=
  length_xorAt _ List.length_range'.symm

theorem Link.Keyed.length_whole {link : Link} (_ : link.Keyed keyStream) :
    link.whole.length = link.read.length + link.wire.length := by
  rw [whole, List.length_append, length_update]

/-- A read changes nothing in what the reader is to have in the end. -/
theorem Link.Keyed.step_read {link : Link} (hkeyed : link.Keyed keyStream) (count granted : Nat) :
    (link.step (.read count granted)).Keyed keyStream ∧
      (link.step (.read count granted)).whole = link.whole ∧
      (link.step (.read count granted)).writeCtx = link.writeCtx ∧
      (link.step (.read count granted)).written = link.written ∧
      (link.step (.read count granted)).overrun = link.overrun ∧
      ∃ more, (link.step (.read count granted)).read = link.read ++ more := by
  obtain ⟨n, hread⟩ := streamRead_cases link.readCtx link.wire count granted
  have hstep : link.step (.read count granted) = { link with
      readCtx := (link.readCtx.update (link.wire.take n)).2
      wire := link.wire.drop (link.wire.take n).length
      read := link.read ++ (link.readCtx.update (link.wire.take n)).1 } := by
    rw [step, hread]
  have hwire := List.prefix_iff_eq_append.mp (List.take_prefix n link.wire)
  rw [hstep]
  refine ⟨⟨hkeyed.writeKey, hkeyed.readKey, ?_⟩, ?_, rfl, rfl, rfl, _, rfl⟩
  · rw [List.length_append, length_update, ← hkeyed.readPos]
    rfl
  · rw [whole, whole, List.append_assoc, ← update_append, hwire]

/-- A write with room adds the bytes that are taken, deciphered at their places on the wire. -/
theorem Link.Keyed.step_write {link : Link} (hkeyed : link.Keyed keyStream) {call : WriteCall}
    (hroom : call.given ≤ cipherBufSize) :
    (link.step (.write call)).Keyed keyStream ∧
      (link.step (.write call)).whole = link.whole ++
        xorAt keyStream (xorAt keyStream (call.buf.take call.taken)
          (List.range' link.writeCtx.used call.taken)) (List.range' link.whole.length call.taken) ∧
      (link.step (.write call)).writeCtx.used = link.writeCtx.used + call.given ∧
      (link.step (.write call)).written = link.written ++ call.buf.take call.taken ∧
      (link.step (.write call)).overrun = link.overrun := by
  obtain ⟨ret, hret, hwrite⟩ := streamWrite_of_room link.writeCtx hroom
  have hstep : link.step (.write call) = { link with
      writeCtx := { link.writeCtx with used := link.writeCtx.used + call.given }
      wire := link.wire ++ xorAt keyStream (call.buf.take call.taken)
        (List.range' link.writeCtx.used call.taken)
      written := link.written ++ call.buf.take call.taken } := by
    rw [step, hwrite, ← hkeyed.writeKey, ← hret]
  rw [hstep]
  refine ⟨⟨hkeyed.writeKey, hkeyed.readKey, hkeyed.readPos⟩, ?_, rfl, rfl, rfl⟩
  have hcipher := length_xorAt_range' keyStream (WriteCall.length_taken hroom) link.writeCtx.used
  rw [hkeyed.length_whole, whole, whole, update_append, List.append_assoc]
  congr 2
  rw [CipherCtx.update, CipherCtx.update, hcipher, hkeyed.readKey, hkeyed.readPos]

theorem filterMap_read (count granted : Nat) (events : List LinkEvent) :
    (LinkEvent.read count granted :: events).filterMap LinkEvent.call? =
      events.filterMap LinkEvent.call? := rfl

theorem filterMap_write (call : WriteCall) (events : List LinkEvent) :
    (LinkEvent.write call :: events).filterMap LinkEvent.call? =
      call :: events.filterMap LinkEvent.call? := rfl

/-- What a run whose ciphertexts have room has written, and what is to be read in the end. -/
theorem run_of_room {link : Link} (hkeyed : link.Keyed keyStream) {events : List LinkEvent}
    (hroom : ∀ call ∈ events.filterMap LinkEvent.call?, call.given ≤ cipherBufSize) :
    (run Link.step link events).Keyed keyStream ∧
      (run Link.step link events).overrun = link.overrun ∧
      (run Link.step link events).written =
        link.written ++ acceptedBytes (events.filterMap LinkEvent.call?) ∧
      (run Link.step link events).whole = link.whole ++
        xorAt keyStream (xorAt keyStream (acceptedBytes (events.filterMap LinkEvent.call?))
            (positions link.writeCtx.used (events.filterMap LinkEvent.call?)))
          (List.range' link.whole.length (acceptedBytes (events.filterMap LinkEvent.call?)).length) := by
  induction events generalizing link with
  | nil =>
      refine ⟨hkeyed, rfl, ?_, ?_⟩
      · exact (List.append_nil _).symm
      · exact (List.append_nil _).symm
  | cons event events ih =>
      cases event with
      | read count granted =>
          obtain ⟨hnext, hwhole, hctx, hwritten, hover, -⟩ := hkeyed.step_read count granted
          rw [filterMap_read] at *
          obtain ⟨hfinal, hover', hwritten', hwhole'⟩ := ih hnext hroom
          rw [hwhole, hctx] at hwhole'
          rw [run_cons]
          exact ⟨hfinal, hover'.trans hover, by rw [hwritten', hwritten], hwhole'⟩
      | write call =>
          rw [filterMap_write] at *
          obtain ⟨hcall, hcalls⟩ := List.forall_mem_cons.mp hroom
          obtain ⟨hnext, hwhole, hctx, hwritten, hover⟩ := hkeyed.step_write hcall
          obtain ⟨hfinal, hover', hwritten', hwhole'⟩ := ih hnext hcalls
          have hlength := WriteCall.length_taken hcall
          have hcipher := length_xorAt_range' keyStream hlength link.writeCtx.used
          have hplain := length_xorAt_range' keyStream hcipher link.whole.length
          have haccepted : acceptedBytes (call :: events.filterMap LinkEvent.call?) =
              call.buf.take call.taken ++ acceptedBytes (events.filterMap LinkEvent.call?) := rfl
          rw [run_cons]
          refine ⟨hfinal, hover'.trans hover, ?_, ?_⟩
          · rw [hwritten', hwritten, haccepted, List.append_assoc]
          · rw [hwhole', hctx, hwhole, haccepted, positions, List.length_append, List.length_append,
              hlength, hplain, ← List.range'_append_1, xorAt_append _ (by rw [hlength, List.length_range']),
              xorAt_append _ (by rw [hcipher, List.length_range']), List.append_assoc]

/-- A ciphertext without room is never forgotten. -/
theorem run_overrun {link : Link} {events : List LinkEvent}
    (hover : link.overrun = true ∨
      ∃ call ∈ events.filterMap LinkEvent.call?, cipherBufSize < call.given) :
    (run Link.step link events).overrun = true := by
  have hkeep : ∀ (link : Link) (event : LinkEvent), link.overrun = true →
      (link.step event).overrun = true := by
    intro link event htrue
    cases event with
    | read count granted => exact htrue
    | write call =>
        rw [Link.step]
        split
        · rfl
        · exact htrue
  induction events generalizing link with
  | nil =>
      rcases hover with htrue | ⟨call, hmem, -⟩
      · exact htrue
      · cases hmem
  | cons event events ih =>
      rw [run_cons]
      refine ih ?_
      rcases hover with htrue | ⟨call, hmem, hroom⟩
      · exact Or.inl (hkeep link event htrue)
      · cases event with
        | read count granted => exact Or.inr ⟨call, hmem, hroom⟩
        | write first =>
            rw [filterMap_write, List.mem_cons] at hmem
            rcases hmem with rfl | hmem
            · left
              rw [Link.step, streamWrite_overrun hroom]
            · exact Or.inr ⟨call, hmem, hroom⟩

/-- Enough reads give the reader everything. -/
theorem run_reads {link : Link} (hkeyed : link.Keyed keyStream) :
    (run Link.step link (List.replicate link.wire.length (LinkEvent.read 1 1))).read = link.whole := by
  generalize hwire : link.wire = wire
  induction wire generalizing link with
  | nil => 
      rw [Link.whole, hwire]
      exact (List.append_nil _).symm
  | cons byte wire ih =>
      obtain ⟨hnext, hwhole, -⟩ := hkeyed.step_read 1 1
      have hrest : (link.step (.read 1 1)).wire = wire := by
        rw [Link.step, streamRead, hwire]
        rfl
      rw [List.length_cons, List.replicate_succ, run_cons, ih hnext hrest, hwhole]

/-- What a new connection has written, and what is to be read in the end. -/
theorem run_start (keyStream : Nat → UInt8) {calls : List WriteCall} (hroom : ∀ call ∈ calls, call.given ≤ cipherBufSize)
    {events : List LinkEvent} (hcalls : events.filterMap LinkEvent.call? = calls) :
    (run Link.step (.start keyStream) events).overrun = false ∧
      (run Link.step (.start keyStream) events).written = acceptedBytes calls ∧
      (run Link.step (.start keyStream) events).whole =
        xorAt keyStream (xorAt keyStream (acceptedBytes calls) (positions 0 calls))
          (List.range' 0 (positions 0 calls).length) := by
  have hkeyed : (Link.start keyStream).Keyed keyStream := ⟨rfl, rfl, rfl⟩
  rw [← hcalls] at hroom
  obtain ⟨-, hover, hwritten, hwhole⟩ := run_of_room hkeyed hroom
  rw [hcalls] at hroom hwritten hwhole
  rw [length_positions hroom 0] at hwhole
  exact ⟨hover, hwritten, hwhole⟩

/-- **The stream of the second version.** Whatever the key stream and the reads are, these writes have room
and the bytes read are a prefix of the bytes written, if and only if they stay in step. -/
theorem delivers_iff_inStep (calls : List WriteCall) :
    (∀ keyStream events, events.filterMap LinkEvent.call? = calls →
        (run Link.step (.start keyStream) events).Delivers) ↔ InStep false calls := by
  rw [inStep_iff (Nat.le_refl 0) (by simp)]
  constructor
  · intro hall
    have hwrites : (calls.map LinkEvent.write).filterMap LinkEvent.call? = calls := by
      rw [List.filterMap_map]
      exact List.filterMap_some
    have hroom : ∀ call ∈ calls, call.given ≤ cipherBufSize := by
      intro call hmem
      by_contra hlarge
      have hover := (hall (fun _ => 0) _ hwrites).room
      rw [run_overrun (Or.inr ⟨call, hwrites.symm ▸ hmem, Nat.not_le.mp hlarge⟩)] at hover
      cases hover
    refine ⟨hroom, ?_⟩
    have hlength := length_positions hroom 0
    refine (xorAt_xorAt_iff hlength (by rw [List.length_range', hlength])).mp fun keyStream => ?_
    have hkeyed : (Link.start keyStream).Keyed keyStream := ⟨rfl, rfl, rfl⟩
    obtain ⟨-, -, hwhole⟩ := run_start keyStream hroom hwrites
    generalize hlink : run Link.step (.start keyStream) (calls.map LinkEvent.write) = link at hwhole
    have hlinkKeyed : link.Keyed keyStream := by
      rw [← hlink]
      exact (run_of_room hkeyed (hwrites.symm ▸ hroom)).1
    have hevents : (calls.map LinkEvent.write ++
        List.replicate link.wire.length (LinkEvent.read 1 1)).filterMap LinkEvent.call? = calls := by
      rw [List.filterMap_append, hwrites, List.filterMap_replicate_of_none rfl, List.append_nil]
    have hrun : run Link.step (.start keyStream) (calls.map LinkEvent.write ++
        List.replicate link.wire.length (LinkEvent.read 1 1)) =
        run Link.step link (List.replicate link.wire.length (LinkEvent.read 1 1)) := by
      rw [run, List.foldl_append, ← hlink]
      rfl
    obtain ⟨-, hwritten, -⟩ := run_start keyStream hroom hevents
    have horder := (hall keyStream _ hevents).order
    rw [hwritten, hrun, run_reads hlinkKeyed, hwhole] at horder
    refine horder.eq_of_length ?_
    rw [length_xorAt, length_xorAt _ hlength]
    rw [length_xorAt _ hlength, List.length_range', hlength]
  · rintro ⟨hroom, hpositions⟩ keyStream events hcalls
    obtain ⟨hover, hwritten, hwhole⟩ := run_start keyStream hroom hcalls
    rw [← hpositions, xorAt_xorAt_of_eq keyStream (length_positions hroom 0)] at hwhole
    refine ⟨hover, ?_⟩
    rw [hwritten, ← hwhole]
    exact List.prefix_append _ _

/-- The start of the key stream of AES-256 for the zero key and IV. -/
def zeroKeyStream (pos : Nat) : UInt8 := [220, 149, 192, 120].getD pos 0

/-- Three bytes of which the raw stream takes the first, and the two others again. -/
theorem not_delivers_resent :
    let link := run Link.step (.start zeroKeyStream)
      [.write ⟨[1, 2, 3], false, some 1⟩, .write ⟨[2, 3], false, some 2⟩, .read 3 3]
    link.written = [1, 2, 3] ∧ ¬link.Delivers :=
  ⟨by decide, fun hdelivers => absurd hdelivers.order (by decide)⟩

end CLibp2p.SecioV2
