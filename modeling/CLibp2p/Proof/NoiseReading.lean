import CLibp2p.Stream.Loop
import CLibp2p.Proof.NoiseNonce

/-!
# Reading back what was written

The frames a run of writes leaves on the raw stream, read with the same key from the same nonce on,
give back the plaintexts in order, whatever the sizes of the reads. The body of a frame is collected
over as many raw reads as it takes; its header is not, and a raw read that stops inside a header is the
one way a read can fail while frames remain.
-/

namespace CLibp2p.Noise

open Duplex Duplex.Prog

/-- Opening what was sealed gives the plaintext back, and the tag has sixteen bytes. -/
def Primitives.OpensSealed (prims : Primitives) : Prop :=
  ∀ key nonce ad plaintext ciphertext, prims.chachaSeal key nonce ad plaintext = some ciphertext →
    ciphertext.length = plaintext.length + tagLength ∧
      prims.chachaOpen key nonce ad ciphertext = some plaintext

/-! ### What the writes leave on the raw stream -/

def acceptedBytes (list : List Attempt) : Bytes :=
  list.flatMap fun attempt => if attempt.accepted then attempt.plaintext else []

/-- Everything the raw stream took. -/
def takenBytes (list : List Attempt) : Bytes := list.flatMap fun attempt => attempt.taken.flatten

/-- The call put a whole frame on the raw stream, or nothing. -/
def Attempt.clean (attempt : Attempt) : Bool :=
  attempt.accepted || attempt.taken.flatten.isEmpty

/-- Frames with these ciphertexts. -/
def frameBytes (ciphertext : Bytes) : Bytes := frameHeader ciphertext.length ++ ciphertext

/-- `bytes` are the frames of these plaintexts, sealed one nonce after the other. -/
inductive Sealed (prims : Primitives) (key : Bytes) : UInt64 → List Bytes → Bytes → Prop where
  | nil (nonce : UInt64) : Sealed prims key nonce [] []
  | cons {nonce : UInt64} {plaintext ciphertext bytes : Bytes} {rest : List Bytes}
      (hsmall : plaintext.length ≤ maxPayload)
      (hseal : encrypt prims key nonce [] plaintext = some ciphertext)
      (hrest : Sealed prims key (nonce + 1) rest bytes) :
      Sealed prims key nonce (plaintext :: rest) (frameBytes ciphertext ++ bytes)

theorem sealed_of_clean (prims : Primitives) (hopens : prims.OpensSealed) (bufs : List Bytes)
    (ctx : StreamContext) (w : Wire)
    (hclean : ∀ attempt ∈ attempts prims ctx w bufs, attempt.clean = true) :
    ∃ plaintexts, Sealed prims ctx.writeKey ctx.writeNonce plaintexts
        (takenBytes (attempts prims ctx w bufs)) ∧
      plaintexts.flatten = acceptedBytes (attempts prims ctx w bufs) := by
  induction bufs generalizing ctx w with
  | nil => exact ⟨[], .nil _, rfl⟩
  | cons buf bufs ih =>
      obtain ⟨ret, ctx', taken, w', hrun, hsent, hwrites⟩ := run_streamWrite prims ctx buf w
      have hlist : attempts prims ctx w (buf :: bufs) =
          attemptOf ctx buf w w' ret :: attempts prims ctx' w' bufs := by
        rw [attempts, hrun]
      have htaken : (attemptOf ctx buf w w' ret).taken = taken := by
        rw [attemptOf, hsent, List.drop_left]
      rw [hlist] at hclean
      obtain ⟨plaintexts, hsealed, hflatten⟩ :=
        ih ctx' w' fun attempt hmem => hclean attempt (List.mem_cons_of_mem _ hmem)
      have hfirst := hclean _ List.mem_cons_self
      rw [hlist, takenBytes, acceptedBytes, List.flatMap_cons, List.flatMap_cons, htaken]
      cases hwrites with
      | refused taken =>
          have hnothing : taken.flatten = [] := by
            rw [Attempt.clean, htaken] at hfirst
            exact List.isEmpty_iff.mp hfirst
          rw [hnothing]
          exact ⟨plaintexts, hsealed, hflatten⟩
      | accepted hseal hbody hlength =>
          rename_i ciphertext body
          obtain ⟨htag, -⟩ := hopens _ _ _ _ _ hseal
          obtain rfl : body = ciphertext := hbody.eq_of_length (hlength.trans htag.symm)
          have hframe : [frameHeader ((buf.take maxPayload).length + tagLength), body].flatten =
              frameBytes body := by
            rw [frameBytes, htag]
            simp
          refine ⟨buf.take maxPayload :: plaintexts, ?_, ?_⟩
          · rw [hframe]
            exact .cons (List.length_take_le _ _) hseal hsealed
          · rw [List.flatten_cons, hflatten]
            rfl

/-! ### Reading -/

/-- One call of `noise_stream_read`, with the state it starts from. -/
structure ReadStep where
  ctx : StreamContext
  wire : Wire
  ret : Option Bytes

def readSteps (prims : Primitives) : StreamContext → Wire → List Nat → List ReadStep
  | _, _, [] => []
  | ctx, w, count :: counts =>
      let ((ret, ctx'), w') := (streamRead prims ctx count).run w
      ⟨ctx, w, ret⟩ :: readSteps prims ctx' w' counts

def bytesRead (steps : List ReadStep) : Bytes := steps.flatMap fun step => step.ret.getD []

/-- There is plaintext left of the last frame, or more on the raw stream. -/
def ReadStep.remains (step : ReadStep) : Prop :=
  step.ctx.readPos < step.ctx.readBuf.length ∨ step.wire.inbound ≠ []

/-- If the call starts a frame, its first raw read gives the whole header. -/
def ReadStep.headerWhole (step : ReadStep) : Prop :=
  step.ctx.readBuf.length ≤ step.ctx.readPos → step.wire.inbound ≠ [] →
    2 ≤ step.wire.grants.headD 2

theorem frameLength_frameHeader {length : Nat} (hlength : length < 65536) :
    frameLength (frameHeader length) = length := by
  change (ofBe16 _ _).toNat = length
  rw [ofBe16_be16, UInt16.toNat_ofNat', Nat.mod_eq_of_lt hlength]

theorem unread_buffer (ctx : StreamContext) (readBuf : Bytes) (readPos : Nat) :
    (ctx.buffer readBuf readPos).unread = readBuf.drop readPos := by
  rw [StreamContext.buffer]
  split
  · rename_i hend
    rw [hend, List.drop_length]
    rfl
  · rfl

theorem buffer_readKey (ctx : StreamContext) (readBuf : Bytes) (readPos : Nat) :
    (ctx.buffer readBuf readPos).readKey = ctx.readKey := by
  rw [StreamContext.buffer]
  split <;> rfl

theorem buffer_readNonce (ctx : StreamContext) (readBuf : Bytes) (readPos : Nat) :
    (ctx.buffer readBuf readPos).readNonce = ctx.readNonce := by
  rw [StreamContext.buffer]
  split <;> rfl

/-- The raw stream holds the frames of these plaintexts and nothing else. -/
structure Synced (prims : Primitives) (ctx : StreamContext) (w : Wire) (plaintexts : List Bytes) :
    Prop where
  frames : Sealed prims ctx.readKey ctx.readNonce plaintexts w.inbound
  live : w.inbound ≠ [] → w.Live

theorem frameBytes_ne_nil (ciphertext bytes : Bytes) : frameBytes ciphertext ++ bytes ≠ [] := by
  rw [frameBytes, frameHeader, be16]
  exact List.cons_ne_nil _ _

theorem run_streamRead_frame {prims : Primitives} {ctx : StreamContext} {w : Wire}
    {plaintext ciphertext bytes : Bytes} (count : Nat)
    (hempty : ctx.readBuf.length ≤ ctx.readPos) (hlive : w.Live)
    (hinbound : w.inbound = frameBytes ciphertext ++ bytes) (hsmall : ciphertext.length < 65536)
    (htag : tagLength ≤ ciphertext.length) (hheader : 2 ≤ w.grants.headD 2)
    (hopen : prims.chachaOpen ctx.readKey (nonceBytes ctx.readNonce) [] ciphertext = some plaintext) :
    ∃ w', (streamRead prims ctx count).run w = ((some (plaintext.take count),
        StreamContext.buffer { ctx with readNonce := ctx.readNonce + 1 } plaintext
          (plaintext.take count).length), w') ∧ w'.inbound = bytes ∧ w'.Live := by
  have hchunk : (w.read 2).1 = frameHeader ciphertext.length := by
    rw [hlive.chunk, Nat.min_eq_right hheader, hinbound, frameBytes, List.append_assoc]
    exact List.take_left' rfl
  have hne : w.inbound ≠ [] := hinbound ▸ frameBytes_ne_nil ciphertext bytes
  obtain ⟨hlive₁, -⟩ := hlive.read (show 0 < 2 by omega) hne
  have hinbound₁ : (w.read 2).2.inbound = ciphertext ++ bytes := by
    change w.inbound.drop (w.read 2).1.length = _
    rw [hchunk, hinbound, frameBytes, List.append_assoc]
    exact List.drop_left
  have hlength : frameLength (frameHeader ciphertext.length) = ciphertext.length :=
    frameLength_frameHeader hsmall
  have henough : ciphertext.length ≤ (w.read 2).2.inbound.length := by
    rw [hinbound₁, List.length_append]
    omega
  obtain ⟨w', hread, htook, hlive'⟩ := run_readExactly_live hlive₁ henough
  rw [hinbound₁, List.take_left] at hread
  have hdecrypt : decrypt prims ctx.readKey ctx.readNonce [] ciphertext = some plaintext := by
    rw [decrypt, if_neg (by omega), hopen]
  refine ⟨w', ?_, ?_, hlive'⟩
  · rw [streamRead, if_neg (by omega), run_bind, run_recv, hchunk, if_neg (by simp [frameHeader, be16]),
      hlength, if_neg (by omega), run_bind, hread]
    simp only [hdecrypt]
    rfl
  · rw [htook.inbound, hinbound₁, List.drop_left]

theorem run_streamRead_end (prims : Primitives) {ctx : StreamContext} {w : Wire} (count : Nat)
    (hempty : ctx.readBuf.length ≤ ctx.readPos) (hinbound : w.inbound = []) :
    ∃ w', (streamRead prims ctx count).run w = ((none, ctx), w') ∧ w'.inbound = [] := by
  have hchunk : (w.read 2).1 = [] := by
    simp [Duplex.Wire.read, hinbound]
  refine ⟨(w.read 2).2, ?_, ?_⟩
  · rw [streamRead, if_neg (by omega), run_bind, run_recv, hchunk]
    rfl
  · change w.inbound.drop _ = []
    rw [hinbound, List.drop_nil]

theorem run_streamRead_split (prims : Primitives) {ctx : StreamContext} {w : Wire} (count : Nat)
    (hempty : ctx.readBuf.length ≤ ctx.readPos) (hheader : w.grants.headD 2 < 2) :
    ((streamRead prims ctx count).run w).1.1 = none := by
  have hshort : (w.read 2).1.length ≠ 2 := by
    rw [Duplex.Wire.read]
    dsimp only
    split
    · simp
    · rw [List.length_take]
      omega
  rw [streamRead, if_neg (by omega), run_bind, run_recv, if_pos hshort]
  rfl

theorem Synced.read {prims : Primitives} (hopens : prims.OpensSealed) {ctx ctx' : StreamContext}
    {w w' : Wire} {plaintexts : List Bytes} {count : Nat} {ret : Option Bytes}
    (hsynced : Synced prims ctx w plaintexts) (hheader : (ReadStep.mk ctx w ret).headerWhole)
    (hrun : (streamRead prims ctx count).run w = ((ret, ctx'), w')) :
    ((ReadStep.mk ctx w ret).remains → ret ≠ none) ∧
      ∃ rest, Synced prims ctx' w' rest ∧
        ret.getD [] ++ (ctx'.unread ++ rest.flatten) = ctx.unread ++ plaintexts.flatten := by
  by_cases hempty : ctx.readPos < ctx.readBuf.length
  · rw [streamRead, if_pos hempty] at hrun
    cases hrun
    refine ⟨fun _ => Option.some_ne_none _, plaintexts, ⟨?_, hsynced.live⟩, ?_⟩
    · rw [buffer_readKey, buffer_readNonce]
      exact hsynced.frames
    · have hserved := List.prefix_iff_eq_append.mp (List.take_prefix count ctx.unread)
      rw [unread_buffer, ← List.drop_drop, ← List.append_assoc]
      exact congrArg (· ++ plaintexts.flatten) hserved
  rw [Nat.not_lt] at hempty
  have hunread : ctx.unread = [] := List.drop_eq_nil_of_le hempty
  rw [hunread, List.nil_append]
  by_cases hinbound : w.inbound = []
  · obtain ⟨w₁, hend, hnothing⟩ := run_streamRead_end prims count hempty hinbound
    rw [hend] at hrun
    cases hrun
    refine ⟨fun hremains => ?_, plaintexts, ⟨?_, fun hne => absurd hnothing hne⟩, ?_⟩
    · rcases hremains with hbuffered | hne
      · exact absurd hbuffered (Nat.not_lt.mpr hempty)
      · exact absurd hinbound hne
    · rw [hnothing, ← hinbound]
      exact hsynced.frames
    · rw [hunread]
      rfl
  · have hframes := hsynced.frames
    generalize hbytes : w.inbound = inbound at hframes
    cases hframes with
    | nil nonce => exact absurd hbytes hinbound
    | cons hsmall hseal hrest =>
        rename_i plaintext ciphertext bytes rest
        obtain ⟨hlength, hopen⟩ := hopens _ _ _ _ _ hseal
        rw [maxPayload] at hsmall
        have htag : tagLength = 16 := rfl
        obtain ⟨w₁, hframe, hafter, hlive⟩ := run_streamRead_frame count hempty
          (hsynced.live hinbound) hbytes (by omega) (by omega) (hheader hempty hinbound) hopen
        rw [hframe] at hrun
        cases hrun
        refine ⟨fun _ => Option.some_ne_none _, rest, ⟨?_, fun _ => hlive⟩, ?_⟩
        · rw [buffer_readKey, buffer_readNonce, hafter]
          exact hrest
        · have hserved := List.prefix_iff_eq_append.mp (List.take_prefix count plaintext)
          rw [unread_buffer, List.flatten_cons, ← List.append_assoc]
          exact congrArg (· ++ rest.flatten) hserved

theorem Synced.readSteps {prims : Primitives} (hopens : prims.OpensSealed) (counts : List Nat)
    {ctx : StreamContext} {w : Wire} {plaintexts : List Bytes}
    (hsynced : Synced prims ctx w plaintexts)
    (hheader : ∀ step ∈ readSteps prims ctx w counts, step.headerWhole) :
    bytesRead (readSteps prims ctx w counts) <+: ctx.unread ++ plaintexts.flatten ∧
      ∀ step ∈ readSteps prims ctx w counts, step.remains → step.ret ≠ none := by
  induction counts generalizing ctx w plaintexts with
  | nil => exact ⟨List.nil_prefix, fun step hmem => by cases hmem⟩
  | cons count counts ih =>
      generalize hrun : (streamRead prims ctx count).run w = result
      obtain ⟨⟨ret, ctx'⟩, w'⟩ := result
      have hsteps : Noise.readSteps prims ctx w (count :: counts) =
          ⟨ctx, w, ret⟩ :: Noise.readSteps prims ctx' w' counts := by
        rw [Noise.readSteps, hrun]
      rw [hsteps] at hheader ⊢
      obtain ⟨hnone, rest, hsynced', hbytes⟩ :=
        hsynced.read hopens (hheader _ List.mem_cons_self) hrun
      obtain ⟨hfront, hfailures⟩ :=
        ih hsynced' fun step hmem => hheader step (List.mem_cons_of_mem _ hmem)
      refine ⟨?_, List.forall_mem_cons.mpr ⟨hnone, hfailures⟩⟩
      rw [← hbytes, bytesRead, List.flatMap_cons]
      exact (List.prefix_append_right_inj _).mpr hfront

theorem headerWhole_of_reads {prims : Primitives} (counts : List Nat) (ctx : StreamContext) (w : Wire)
    (hreads : ∀ step ∈ readSteps prims ctx w counts, step.remains → step.ret ≠ none) :
    ∀ step ∈ readSteps prims ctx w counts, step.headerWhole := by
  induction counts generalizing ctx w with
  | nil => exact fun step hmem => by cases hmem
  | cons count counts ih =>
      generalize hrun : (streamRead prims ctx count).run w = result
      obtain ⟨⟨ret, ctx'⟩, w'⟩ := result
      have hsteps : readSteps prims ctx w (count :: counts) =
          ⟨ctx, w, ret⟩ :: readSteps prims ctx' w' counts := by
        rw [readSteps, hrun]
      rw [hsteps] at hreads ⊢
      obtain ⟨hfirst, hrest⟩ := List.forall_mem_cons.mp hreads
      refine List.forall_mem_cons.mpr ⟨fun hempty hinbound => ?_, ih ctx' w' hrest⟩
      by_contra hsplit
      have hnone := run_streamRead_split prims count hempty (Nat.not_le.mp hsplit)
      rw [hrun] at hnone
      exact hfirst (Or.inr hinbound) hnone

/-- **Reading back.** When every write puts a whole frame on the raw stream or nothing, and no raw read
fails while bytes remain, the reads of the other side return a prefix of what was accepted and none of
them fails while frames remain, if and only if every raw read that starts a frame gets both bytes of
its header. -/
theorem reads_back_iff (prims : Primitives) (hopens : prims.OpensSealed)
    (writer reader : StreamContext) (hkey : reader.readKey = writer.writeKey)
    (hnonce : reader.readNonce = writer.writeNonce) (hunread : reader.unread = []) (w : Wire)
    (bufs : List Bytes)
    (hclean : ∀ attempt ∈ attempts prims writer w bufs, attempt.clean = true)
    (grants : List Nat) (hgrants : 0 ∉ grants) (counts : List Nat) :
    let written := attempts prims writer w bufs
    let steps := readSteps prims reader (.fresh (takenBytes written) grants [] []) counts
    (bytesRead steps <+: acceptedBytes written ∧
        ∀ step ∈ steps, step.remains → step.ret ≠ none) ↔
      ∀ step ∈ steps, step.headerWhole := by
  intro written steps
  refine ⟨fun hreads => headerWhole_of_reads counts _ _ hreads.2, fun hheader => ?_⟩
  obtain ⟨plaintexts, hsealed, hflatten⟩ := sealed_of_clean prims hopens bufs writer w hclean
  rw [← hkey, ← hnonce] at hsealed
  have hsynced : Synced prims reader (.fresh (takenBytes written) grants [] []) plaintexts :=
    ⟨hsealed, fun _ => ⟨rfl, rfl, hgrants⟩⟩
  have hall := hsynced.readSteps hopens counts hheader
  rwa [hunread, List.nil_append, hflatten] at hall

theorem plain_opensSealed : Primitives.plain.OpensSealed := by
  intro key nonce ad plaintext ciphertext hseal
  obtain rfl := Option.some.inj hseal
  have hlength : (plaintext ++ List.replicate 16 0).length - 16 = plaintext.length := by simp
  refine ⟨by simp [tagLength], ?_⟩
  change (if _ then _ else _) = _
  rw [hlength, List.drop_left, if_pos rfl, List.take_left]

/-- Two writes of one and two bytes, read in pieces of one byte while the raw stream splits the body of
the first frame. -/
theorem reads_back_two_writes :
    let steps := readSteps Primitives.plain streamContext0
      (.fresh (takenBytes (attempts Primitives.plain streamContext0 (wireWith []) [[5], [6, 7]]))
        [2, 3] [] []) [1, 1, 1]
    bytesRead steps = [5, 6, 7] ∧ ∀ step ∈ steps, step.remains → step.ret ≠ none := by
  refine ⟨by decide, ((reads_back_iff Primitives.plain plain_opensSealed streamContext0
    streamContext0 rfl rfl rfl (wireWith []) [[5], [6, 7]] (by decide) [2, 3] (by decide)
    [1, 1, 1]).mpr ?_).2⟩
  unfold ReadStep.headerWhole
  decide

/-- The raw stream delivers the first byte of a header alone: the read fails with the frame there. -/
theorem split_header_fails_read :
    let written := attempts Primitives.plain streamContext0 (wireWith []) [[5]]
    let steps := readSteps Primitives.plain streamContext0 (.fresh (takenBytes written) [1] [] []) [1]
    written.map Attempt.ret = [1] ∧ ¬ ∀ step ∈ steps, step.remains → step.ret ≠ none := by
  unfold ReadStep.remains
  decide

end CLibp2p.Noise
