import CLibp2p.Proof.NoiseReading

/-!
# Reading what an adversary delivers

The raw stream may deliver anything. The nonce of the reader moves on with every frame that opens and with
nothing else, so the frame that opens next can only be the one that was sealed under this nonce, and what
is read is what was written up to there.
-/

namespace CLibp2p.Noise

open Duplex Duplex.Prog

/-- The part of `noise_stream_read` that takes a frame from the raw stream. -/
def collectFrame : Code (Option Bytes) := do
  let header ← recv 2
  if header.length ≠ 2 then pure none
  else if frameLength header < tagLength then pure none
  else readExactly (frameLength header)

/-- The frame that the call tries to open, if it comes to that. -/
def ReadStep.frame (step : ReadStep) : Option Bytes :=
  if step.ctx.readPos < step.ctx.readBuf.length then none else (collectFrame.run step.wire).1

/-- If the frame of the call opens, one of the writes sealed it under the same key and nonce. -/
def ReadStep.Genuine (prims : Primitives) (key : Bytes) (written : List Attempt) (step : ReadStep) :
    Prop :=
  ∀ frame ∈ step.frame, (decrypt prims step.ctx.readKey step.ctx.readNonce [] frame).isSome →
    ∃ attempt ∈ written, attempt.nonce = step.ctx.readNonce ∧
      encrypt prims key attempt.nonce [] attempt.plaintext = some frame

/-- Every write that used the raw stream was taken in full. -/
def RawWritesSucceed (written : List Attempt) : Prop :=
  ∀ attempt ∈ written, attempt.taken ≠ [] → attempt.accepted = true

/-! ### One read -/

theorem run_streamRead_collected (prims : Primitives) (ctx : StreamContext) (count : Nat) (w : Wire)
    (hempty : ctx.readBuf.length ≤ ctx.readPos) :
    ((streamRead prims ctx count).run w).1 =
      match (collectFrame.run w).1 with
      | none => (none, ctx)
      | some frame =>
          match decrypt prims ctx.readKey ctx.readNonce [] frame with
          | none => (none, ctx)
          | some plaintext => (some (plaintext.take count),
              StreamContext.buffer { ctx with readNonce := ctx.readNonce + 1 } plaintext
                (plaintext.take count).length) := by
  rw [streamRead, if_neg (Nat.not_lt.mpr hempty), collectFrame, run_bind, run_bind, run_recv]
  by_cases hheader : (w.read 2).1.length ≠ 2
  · rw [if_pos hheader, if_pos hheader]
    rfl
  rw [if_neg hheader, if_neg hheader]
  by_cases hshort : frameLength (w.read 2).1 < tagLength
  · rw [if_pos hshort, if_pos hshort]
    rfl
  rw [if_neg hshort, if_neg hshort, run_bind]
  cases ((readExactly (frameLength (w.read 2).1)).run (w.read 2).2).1 with
  | none => rfl
  | some frame =>
      dsimp only
      cases decrypt prims ctx.readKey ctx.readNonce [] frame <;> rfl

/-- A call that collects no frame, or one that does not open, fails and changes nothing. -/
theorem streamRead_unopened (prims : Primitives) (ctx : StreamContext) (count : Nat) (w : Wire)
    (hempty : ctx.readBuf.length ≤ ctx.readPos)
    (hunopened : ∀ frame ∈ (collectFrame.run w).1,
      decrypt prims ctx.readKey ctx.readNonce [] frame = none) :
    ((streamRead prims ctx count).run w).1 = (none, ctx) := by
  rw [run_streamRead_collected prims ctx count w hempty]
  cases hframe : (collectFrame.run w).1 with
  | none => rfl
  | some frame =>
      dsimp only
      rw [hunopened frame hframe]

/-! ### What was sealed under a nonce -/

def acceptedPlaintexts (list : List Attempt) : List Bytes :=
  (list.filter Attempt.accepted).map Attempt.plaintext

theorem flatten_acceptedPlaintexts (list : List Attempt) :
    (acceptedPlaintexts list).flatten = acceptedBytes list := by
  induction list with
  | nil => rfl
  | cons attempt list ih =>
      rw [acceptedPlaintexts, acceptedBytes, List.filter_cons, List.flatMap_cons]
      split
      · exact congrArg (attempt.plaintext ++ ·) ih
      · exact ih

theorem length_acceptedPlaintexts (list : List Attempt) :
    (acceptedPlaintexts list).length = acceptedCount list := by
  rw [acceptedPlaintexts, List.length_map, acceptedCount, List.countP_eq_length_filter]

theorem Writes.writeKey {prims : Primitives} {ctx ctx' : StreamContext} {plaintext : Bytes} {ret : Int}
    {taken : List Bytes} (hwrites : Writes prims ctx plaintext ret ctx' taken) :
    ctx'.writeKey = ctx.writeKey := by
  cases hwrites <;> rfl

theorem sent_of_sealed {prims : Primitives} {ctx : StreamContext} {buf ciphertext : Bytes} (w : Wire)
    (hseal : encrypt prims ctx.writeKey ctx.writeNonce [] (buf.take maxPayload) = some ciphertext) :
    w.sent.length < ((streamWrite prims ctx buf).run w).2.sent.length := by
  rw [streamWrite]
  simp only [hseal, run_bind, run_send]
  refine lt_of_lt_of_le ?_ (sent_isPrefix_run _ _).length_le
  simp [Duplex.Wire.write]

/-- A write that sealed its plaintext used the raw stream. -/
theorem taken_of_sealed {prims : Primitives} (bufs : List Bytes) {ctx : StreamContext} {w : Wire}
    {attempt : Attempt} (hmem : attempt ∈ attempts prims ctx w bufs) {ciphertext : Bytes}
    (hseal : encrypt prims ctx.writeKey attempt.nonce [] attempt.plaintext = some ciphertext) :
    attempt.taken ≠ [] := by
  induction bufs generalizing ctx w with
  | nil => cases hmem
  | cons buf bufs ih =>
      obtain ⟨ret, ctx', taken, w', hrun, hsent, hwrites⟩ := run_streamWrite prims ctx buf w
      rw [attempts, hrun] at hmem
      rcases List.mem_cons.mp hmem with rfl | hmem
      · have hlonger := sent_of_sealed w hseal
        rw [hrun] at hlonger
        intro hnone
        have hlength := congrArg List.length hnone
        rw [attemptOf, List.length_drop, List.length_nil] at hlength
        dsimp only at hlonger
        omega
      · exact ih hmem (hwrites.writeKey ▸ hseal)

/-- The frame that opens under the nonce after `count` accepted writes is the next accepted write. -/
theorem next_of_sealed {prims : Primitives} {bufs : List Bytes} {ctx : StreamContext} {w : Wire}
    (hframes : ctx.writeNonce.toNat + bufs.length < 2 ^ 64)
    (hraw : RawWritesSucceed (attempts prims ctx w bufs)) {count : Nat} {nonce : UInt64}
    (hnonce : nonce.toNat = ctx.writeNonce.toNat + count) {attempt : Attempt} {ciphertext : Bytes}
    (hmem : attempt ∈ attempts prims ctx w bufs) (hsame : attempt.nonce = nonce)
    (hseal : encrypt prims ctx.writeKey attempt.nonce [] attempt.plaintext = some ciphertext) :
    ∃ rest, (acceptedPlaintexts (attempts prims ctx w bufs)).drop count = attempt.plaintext :: rest ∧
      rest = (acceptedPlaintexts (attempts prims ctx w bufs)).drop (count + 1) := by
  have haccepted := hraw attempt hmem (taken_of_sealed bufs hmem hseal)
  obtain ⟨before, after, hsplit⟩ := List.append_of_mem hmem
  have hbefore : acceptedCount before ≤ bufs.length := by
    have hlength := congrArg List.length hsplit
    rw [length_attempts, List.length_append] at hlength
    have hcount : acceptedCount before ≤ before.length := List.countP_le_length
    omega
  have hcount : acceptedCount before = count := by
    have hnonce' := congrArg UInt64.toNat (nonce_eq_acceptedCount prims bufs ctx w _ _ _ hsplit)
    rw [hsame, hnonce, UInt64.toNat_add, UInt64.toNat_ofNat', Nat.mod_eq_of_lt (by omega : _ < 2 ^ 64),
      Nat.mod_eq_of_lt (by omega)] at hnonce'
    omega
  have hwhole : acceptedPlaintexts (attempts prims ctx w bufs) =
      acceptedPlaintexts before ++ attempt.plaintext :: acceptedPlaintexts after := by
    rw [hsplit, acceptedPlaintexts, List.filter_append, List.filter_cons, if_pos haccepted,
      List.map_append]
    rfl
  have hfront : (acceptedPlaintexts before).length = count := by
    rw [length_acceptedPlaintexts, hcount]
  refine ⟨acceptedPlaintexts after, ?_, ?_⟩
  · rw [hwhole, ← hfront, List.drop_left]
  · rw [hwhole, ← hfront, ← List.drop_drop, List.drop_left]
    rfl

/-! ### A run of reads -/

/-- The reader has opened the frames of the first `count` accepted writes. -/
structure Opened (writer reader : StreamContext) (count : Nat) : Prop where
  key : reader.readKey = writer.writeKey
  nonce : reader.readNonce.toNat = writer.writeNonce.toNat + count

section

variable {prims : Primitives} (hopens : prims.OpensSealed) {writer : StreamContext} {w : Wire}
  {bufs : List Bytes} (hframes : writer.writeNonce.toNat + bufs.length < 2 ^ 64)
  (hraw : RawWritesSucceed (attempts prims writer w bufs))

/-- What the accepted writes after the first `count` wrote. -/
def written (prims : Primitives) (writer : StreamContext) (w : Wire) (bufs : List Bytes) (count : Nat) :
    Bytes :=
  ((acceptedPlaintexts (attempts prims writer w bufs)).drop count).flatten

theorem written_zero : written prims writer w bufs 0 = acceptedBytes (attempts prims writer w bufs) := by
  rw [written, List.drop_zero, flatten_acceptedPlaintexts]

include hopens hframes hraw in
/-- A frame that opens holds the plaintext of the next accepted write. -/
theorem Opened.next {reader : StreamContext} {count : Nat} (hopened : Opened writer reader count)
    {frame plaintext : Bytes} {attempt : Attempt}
    (hdecrypt : decrypt prims reader.readKey reader.readNonce [] frame = some plaintext)
    (hmem : attempt ∈ attempts prims writer w bufs) (hnonce : attempt.nonce = reader.readNonce)
    (hseal : encrypt prims writer.writeKey attempt.nonce [] attempt.plaintext = some frame) :
    written prims writer w bufs count = plaintext ++ written prims writer w bufs (count + 1) ∧
      (reader.readNonce + 1).toNat = writer.writeNonce.toNat + (count + 1) := by
  obtain ⟨rest, hnext, hrest⟩ := next_of_sealed hframes hraw hopened.nonce hmem hnonce hseal
  have hplaintext : plaintext = attempt.plaintext := by
    rw [decrypt] at hdecrypt
    split at hdecrypt
    · cases hdecrypt
    · obtain ⟨-, hopen⟩ := hopens _ _ _ _ _ hseal
      rw [hopened.key, ← hnonce, hopen] at hdecrypt
      exact (Option.some.inj hdecrypt).symm
  have hcount : count < bufs.length := by
    have hlength := congrArg List.length hnext
    rw [List.length_drop, length_acceptedPlaintexts, List.length_cons] at hlength
    have hle : acceptedCount (attempts prims writer w bufs) ≤ (attempts prims writer w bufs).length :=
      List.countP_le_length
    rw [length_attempts] at hle
    omega
  constructor
  · rw [written, hnext, hplaintext, List.flatten_cons, hrest]
    rfl
  · rw [UInt64.toNat_add, hopened.nonce, UInt64.toNat_one, Nat.mod_eq_of_lt (by omega), Nat.add_assoc]

include hopens hframes hraw in
theorem Opened.read {reader reader' : StreamContext} {raw raw' : Wire} {count size : Nat}
    {ret : Option Bytes} (hopened : Opened writer reader count)
    (hgenuine : (ReadStep.mk reader raw ret).Genuine prims writer.writeKey (attempts prims writer w bufs))
    (hrun : (streamRead prims reader size).run raw = ((ret, reader'), raw')) :
    ∃ count', Opened writer reader' count' ∧
      ret.getD [] ++ (reader'.unread ++ written prims writer w bufs count') =
        reader.unread ++ written prims writer w bufs count := by
  by_cases hbuffered : reader.readPos < reader.readBuf.length
  · rw [streamRead, if_pos hbuffered] at hrun
    cases hrun
    refine ⟨count, ⟨?_, ?_⟩, ?_⟩
    · rw [buffer_readKey, hopened.key]
    · rw [buffer_readNonce, hopened.nonce]
    · have hserved := List.prefix_iff_eq_append.mp (List.take_prefix size reader.unread)
      rw [unread_buffer, ← List.drop_drop, ← List.append_assoc]
      exact congrArg (· ++ written prims writer w bufs count) hserved
  rw [Nat.not_lt] at hbuffered
  have hresult := run_streamRead_collected prims reader size raw hbuffered
  rw [hrun] at hresult
  cases hframe : (collectFrame.run raw).1 with
  | none =>
      rw [hframe] at hresult
      cases hresult
      exact ⟨count, hopened, rfl⟩
  | some frame =>
      rw [hframe] at hresult
      dsimp only at hresult
      cases hdecrypt : decrypt prims reader.readKey reader.readNonce [] frame with
      | none =>
          rw [hdecrypt] at hresult
          cases hresult
          exact ⟨count, hopened, rfl⟩
      | some plaintext =>
          rw [hdecrypt] at hresult
          cases hresult
          have hcollects : (ReadStep.mk reader raw (some (plaintext.take size))).frame = some frame := by
            rw [ReadStep.frame, if_neg (Nat.not_lt.mpr hbuffered), hframe]
          obtain ⟨attempt, hmem, hnonce, hseal⟩ := hgenuine frame hcollects (by
            rw [hdecrypt]
            rfl)
          obtain ⟨hwritten, hnonce'⟩ := hopened.next hopens hframes hraw hdecrypt hmem hnonce hseal
          have hunread : reader.unread = [] := List.drop_eq_nil_of_le hbuffered
          have hserved := List.prefix_iff_eq_append.mp (List.take_prefix size plaintext)
          refine ⟨count + 1, ⟨?_, ?_⟩, ?_⟩
          · rw [buffer_readKey]
            exact hopened.key
          · rw [buffer_readNonce]
            exact hnonce'
          · rw [unread_buffer, hunread, List.nil_append, hwritten, ← List.append_assoc]
            exact congrArg (· ++ written prims writer w bufs (count + 1)) hserved

include hopens hframes hraw in
theorem Opened.readSteps (sizes : List Nat) {reader : StreamContext} {raw : Wire} {count : Nat}
    (hopened : Opened writer reader count)
    (hgenuine : ∀ step ∈ readSteps prims reader raw sizes,
      step.Genuine prims writer.writeKey (attempts prims writer w bufs)) :
    bytesRead (readSteps prims reader raw sizes) <+:
      reader.unread ++ written prims writer w bufs count := by
  induction sizes generalizing reader raw count with
  | nil => exact List.nil_prefix
  | cons size sizes ih =>
      generalize hrun : (streamRead prims reader size).run raw = result
      obtain ⟨⟨ret, reader'⟩, raw'⟩ := result
      have hsteps : Noise.readSteps prims reader raw (size :: sizes) =
          ⟨reader, raw, ret⟩ :: Noise.readSteps prims reader' raw' sizes := by
        rw [Noise.readSteps, hrun]
      rw [hsteps] at hgenuine ⊢
      obtain ⟨hstep, hgenuine'⟩ := List.forall_mem_cons.mp hgenuine
      obtain ⟨count', hopened', hbytes⟩ := hopened.read hopens hframes hraw hstep hrun
      rw [← hbytes, bytesRead, List.flatMap_cons]
      exact (List.prefix_append_right_inj _).mpr (ih hopened' hgenuine')

end

/-- Whatever the raw stream delivers, the bytes read are a prefix of the bytes written, and a call whose
frame does not open fails and leaves its state as it is. -/
theorem reads_prefix_of_writes (prims : Primitives) (hopens : prims.OpensSealed)
    (writer reader : StreamContext) (hkey : reader.readKey = writer.writeKey)
    (hnonce : reader.readNonce = writer.writeNonce) (hunread : reader.unread = []) (w raw : Wire)
    (bufs : List Bytes) (hframes : writer.writeNonce.toNat + bufs.length < 2 ^ 64)
    (hraw : RawWritesSucceed (attempts prims writer w bufs)) (sizes : List Nat)
    (hgenuine : ∀ step ∈ readSteps prims reader raw sizes,
      step.Genuine prims writer.writeKey (attempts prims writer w bufs)) :
    bytesRead (readSteps prims reader raw sizes) <+: acceptedBytes (attempts prims writer w bufs) ∧
      ∀ (ctx : StreamContext) (wire : Wire) (size : Nat), ctx.readBuf.length ≤ ctx.readPos →
        (∀ frame ∈ (collectFrame.run wire).1, decrypt prims ctx.readKey ctx.readNonce [] frame = none) →
          ((streamRead prims ctx size).run wire).1 = (none, ctx) := by
  have hopened : Opened writer reader 0 := ⟨hkey, by rw [hnonce, Nat.add_zero]⟩
  have hall := hopened.readSteps hopens hframes hraw sizes hgenuine
  rw [hunread, List.nil_append, written_zero] at hall
  exact ⟨hall, fun ctx wire size hempty => streamRead_unopened prims ctx size wire hempty⟩

/-- Between two frames that were written the raw stream delivers one with a wrong tag. -/
theorem reads_prefix_of_altered :
    bytesRead (readSteps Primitives.plain streamContext0
        (.fresh (frameBytes (5 :: List.replicate 16 0) ++ frameBytes (6 :: List.replicate 16 1) ++
          frameBytes (7 :: List.replicate 16 0)) [] [] []) [1, 1, 1]) = [5, 7] ∧
      [5, 7] <+: acceptedBytes (attempts Primitives.plain streamContext0 (wireWith []) [[5], [7], [8]]) := by
  have hreads : bytesRead (readSteps Primitives.plain streamContext0
      (.fresh (frameBytes (5 :: List.replicate 16 0) ++ frameBytes (6 :: List.replicate 16 1) ++
        frameBytes (7 :: List.replicate 16 0)) [] [] []) [1, 1, 1]) = [5, 7] := by
    decide
  refine ⟨hreads, ?_⟩
  have hprefix := (reads_prefix_of_writes Primitives.plain plain_opensSealed streamContext0
    streamContext0 rfl rfl rfl (wireWith []) (.fresh (frameBytes (5 :: List.replicate 16 0) ++
      frameBytes (6 :: List.replicate 16 1) ++ frameBytes (7 :: List.replicate 16 0)) [] [] [])
    [[5], [7], [8]] (by decide) (by unfold RawWritesSucceed; decide) [1, 1, 1] (by
      unfold ReadStep.Genuine
      decide)).1
  rwa [hreads] at hprefix

end CLibp2p.Noise
