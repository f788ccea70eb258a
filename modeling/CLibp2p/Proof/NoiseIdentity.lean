import CLibp2p.Stream.Loop
import CLibp2p.Noise.Handshake

/-!
# The identity of the peer

A handshake asks `verify` only if the payload of the peer is at least a tag long, decodes, and has
both fields; in every other case it goes on as if the identity had been checked. So a stream is
authenticated exactly when the payload identifies the peer, and whether it does is up to the peer.
-/

namespace CLibp2p.Noise

open Duplex Duplex.Prog

inductive Role where
  | initiator
  | responder
deriving Repr, DecidableEq

def handshake (prims : Primitives) (pb : Protobuf) (callbacks : Callbacks) (keys : Keys) :
    Role → Code (Option Established)
  | .initiator => handshakeInitiator prims pb callbacks keys
  | .responder => handshakeResponder prims pb callbacks keys

/-! ### What the peer's bytes say -/

/-- The body of the first frame of these bytes. -/
def firstFrame (inbound : Bytes) : Bytes := (inbound.drop 2).take (frameLength (inbound.take 2))

def afterFirstFrame (inbound : Bytes) : Bytes := inbound.drop (2 + frameLength (inbound.take 2))

/-- The decrypted payload, if the frame is long enough to be one. -/
def framePayload (prims : Primitives) (sym : Symmetric) (frame : Bytes) : Option Bytes :=
  if tagLength ≤ frame.length then (decryptAndHash prims sym frame).map Prod.fst else none

/-- The payload in the bytes the peer sends. -/
def peerPayload (prims : Primitives) (pb : Protobuf) (callbacks : Callbacks) (keys : Keys) :
    Role → Bytes → Option Bytes
  | .initiator, inbound => do
      let ePrivate ← keys.ephemeral
      let sent := afterFirstMessage prims (prims.x25519Public ePrivate)
      let (_, _, sym) ← readResponderKeys prims ePrivate sent (firstFrame inbound)
      framePayload prims sym ((firstFrame inbound).drop (dhLength + encryptedStaticLength))
  | .responder, inbound => do
      let ePrivate ← keys.ephemeral
      let rePublic := firstFrame inbound
      let (_, sym) ← responderMessage prims pb callbacks ePrivate keys.static rePublic
        (afterFirstMessage prims rePublic)
      let msg := firstFrame (afterFirstFrame inbound)
      let (_, sym) ← readInitiatorKey prims ePrivate sym msg
      framePayload prims sym (msg.drop encryptedStaticLength)

/-- The payload decodes and has both fields. -/
def Identified (pb : Protobuf) (payload : Option Bytes) : Prop :=
  ∃ bytes key sig, payload = some bytes ∧ payloadDecode pb bytes = .fields ⟨some key, some sig⟩

/-- `verify` was called on key and signature of this payload over this static key and returned
true. -/
def Verified (pb : Protobuf) (log : List (VerifyCall × Bool)) (remoteStatic : Bytes)
    (payload : Option Bytes) : Prop :=
  ∃ bytes key sig, payload = some bytes ∧
    payloadDecode pb bytes = .fields ⟨some key, some sig⟩ ∧
    (⟨bytes, key, sig, remoteStatic⟩, true) ∈ log

/-! ### Runs -/

theorem run_recv_two {w w' : Wire} {header : Bytes} (hrun : (recv 2 : Code _).run w = (header, w'))
    (hlength : header.length = 2) : header = w.inbound.take 2 ∧ w.Took 2 w' := by
  cases hrun
  obtain ⟨hempty, -⟩ | ⟨n, hpos, hle, hchunk, htook⟩ := w.read_cases 2
  · rw [hempty] at hlength
    cases hlength
  · have henough := htook.enough
    rw [hchunk, List.length_take] at hlength
    obtain rfl : n = 2 := by omega
    exact ⟨hchunk, htook⟩

theorem run_readFrame_some {maxLength : Nat} {w w' : Wire} {msg : Bytes}
    (hrun : (readFrame maxLength).run w = (some msg, w')) :
    msg = firstFrame w.inbound ∧ w'.inbound = afterFirstFrame w.inbound ∧ w'.asked = w.asked := by
  obtain ⟨header, w₁, hheader, hrun⟩ := run_bind_eq hrun
  split at hrun
  · cases hrun
  rename_i hlength
  rw [not_not] at hlength
  obtain ⟨rfl, htook⟩ := run_recv_two hheader hlength
  split at hrun
  · cases hrun
  obtain ⟨w₂, hread, htook'⟩ | ⟨w₂, hread, hbroke⟩ :=
    run_readExactly (frameLength (w.inbound.take 2)) w₁
  · rw [hread] at hrun
    cases hrun
    refine ⟨?_, ?_, ?_⟩
    · rw [firstFrame, htook.inbound]
    · rw [afterFirstFrame, htook'.inbound, htook.inbound, List.drop_drop]
    · rw [htook'.asked, htook.asked]
  · rw [hread] at hrun
    cases hrun

theorem run_writeFrame_reads (data : Bytes) (w : Wire) :
    ((writeFrame data).run w).2.inbound = w.inbound ∧ ((writeFrame data).run w).2.asked = w.asked := by
  rw [writeFrame, run_bind]
  split
  · exact ⟨rfl, rfl⟩
  · exact ⟨rfl, rfl⟩

theorem run_checkIdentity {pb : Protobuf} {callbacks : Callbacks} {remoteStatic payload : Bytes}
    {w w' : Wire} (hverify : callbacks.verify = true)
    (hrun : (checkIdentity pb callbacks remoteStatic payload).run w = (true, w')) :
    w.asked <+: w'.asked ∧
      (Identified pb (some payload) → Verified pb w'.asked remoteStatic (some payload)) := by
  have hasked := asked_isPrefix_run (checkIdentity pb callbacks remoteStatic payload) w
  rw [hrun] at hasked
  refine ⟨hasked, ?_⟩
  rintro ⟨bytes, key, sig, hbytes, hdecode⟩
  obtain rfl := Option.some.inj hbytes
  rw [checkIdentity, if_pos hverify, hdecode] at hrun
  refine ⟨payload, key, sig, rfl, hdecode, ?_⟩
  have hanswer : (w.ask (⟨payload, key, sig, remoteStatic⟩ : VerifyCall)).1 = true :=
    congrArg Prod.fst hrun
  obtain rfl : (w.ask (⟨payload, key, sig, remoteStatic⟩ : VerifyCall)).2 = w' :=
    congrArg Prod.snd hrun
  rw [← hanswer]
  exact List.mem_append_right _ (List.mem_singleton_self _)

theorem Verified.identified {pb : Protobuf} {log : List (VerifyCall × Bool)} {remoteStatic : Bytes}
    {payload : Option Bytes} (hverified : Verified pb log remoteStatic payload) :
    Identified pb payload := by
  obtain ⟨bytes, key, sig, hbytes, hdecode, -⟩ := hverified
  exact ⟨bytes, key, sig, hbytes, hdecode⟩

theorem Verified.mono {pb : Protobuf} {log log' : List (VerifyCall × Bool)} {remoteStatic : Bytes}
    {payload : Option Bytes} (hverified : Verified pb log remoteStatic payload)
    (hlog : log <+: log') : Verified pb log' remoteStatic payload := by
  obtain ⟨bytes, key, sig, hbytes, hdecode, hmem⟩ := hverified
  exact ⟨bytes, key, sig, hbytes, hdecode, hlog.subset hmem⟩

theorem run_takePayload {prims : Primitives} {pb : Protobuf} {callbacks : Callbacks}
    {sym sym' : Symmetric} {remoteStatic frame : Bytes} {payload : Option Bytes} {w w' : Wire}
    (hverify : callbacks.verify = true)
    (hrun : (takePayload prims pb callbacks sym remoteStatic frame).run w =
      (some (payload, sym'), w')) :
    payload = framePayload prims sym frame ∧
      (Identified pb payload → Verified pb w'.asked remoteStatic payload) := by
  rw [takePayload] at hrun
  split at hrun
  · cases hrun
  split at hrun
  · rename_i htag
    cases hdecrypt : decryptAndHash prims sym frame with
    | none =>
        rw [hdecrypt] at hrun
        cases hrun
    | some decrypted =>
        rw [hdecrypt] at hrun
        obtain ⟨ok, w₁, hcheck, hrun⟩ := run_bind_eq hrun
        split at hrun
        · rename_i hok
          cases hrun
          rw [framePayload, if_pos htag, hdecrypt]
          rw [hok] at hcheck
          exact ⟨rfl, (run_checkIdentity hverify hcheck).2⟩
        · cases hrun
  · rename_i htag
    cases hrun
    rw [framePayload, if_neg htag]
    refine ⟨rfl, ?_⟩
    rintro ⟨bytes, key, sig, hbytes, -⟩
    cases hbytes

section

variable {prims : Primitives} {pb : Protobuf} {callbacks : Callbacks} {keys : Keys}
variable {w w' : Wire} {established : Established}

theorem run_handshakeInitiator_payload (hverify : callbacks.verify = true)
    (hrun : (handshakeInitiator prims pb callbacks keys).run w = (some established, w')) :
    established.remotePayload = peerPayload prims pb callbacks keys .initiator w.inbound ∧
      (Identified pb established.remotePayload →
        Verified pb w'.asked established.remoteStatic established.remotePayload) := by
  rw [handshakeInitiator] at hrun
  cases hephemeral : keys.ephemeral with
  | none => rw [hephemeral] at hrun; cases hrun
  | some ePrivate =>
  rw [hephemeral] at hrun
  obtain ⟨sent, w₁, hwrite, hrun⟩ := run_bind_eq hrun
  obtain ⟨hinbound, -⟩ := run_writeFrame_reads (prims.x25519Public ePrivate) w
  rw [hwrite] at hinbound
  split at hrun
  · cases hrun
  obtain ⟨frame, w₂, hread, hrun⟩ := run_bind_eq hrun
  cases frame with
  | none => cases hrun
  | some msg =>
  obtain ⟨rfl, -, -⟩ := run_readFrame_some hread
  rw [hinbound] at hrun
  dsimp only at hrun
  split at hrun
  · cases hrun
  rename_i rePublic remoteStatic sym hkeys
  obtain ⟨taken, w₃, htake, hrun⟩ := run_bind_eq hrun
  cases taken with
  | none => cases hrun
  | some taken =>
  obtain ⟨payload, sym'⟩ := taken
  obtain ⟨hpayload, hidentified⟩ := run_takePayload hverify htake
  dsimp only at hrun
  split at hrun
  · cases hrun
  rename_i message sym'' hmessage
  obtain ⟨sent', w₄, hwrite', hrun⟩ := run_bind_eq hrun
  obtain ⟨-, hasked⟩ := run_writeFrame_reads message w₃
  rw [hwrite'] at hasked
  split at hrun
  · cases hrun
  cases hrun
  refine ⟨?_, fun hid => (hidentified hid).mono (hasked ▸ List.prefix_rfl)⟩
  rw [hpayload]
  simp [peerPayload, hephemeral, hkeys]

theorem run_handshakeResponder_payload (hverify : callbacks.verify = true)
    (hrun : (handshakeResponder prims pb callbacks keys).run w = (some established, w')) :
    established.remotePayload = peerPayload prims pb callbacks keys .responder w.inbound ∧
      (Identified pb established.remotePayload →
        Verified pb w'.asked established.remoteStatic established.remotePayload) := by
  obtain ⟨frame, w₁, hread, hrun⟩ := run_bind_eq hrun
  cases frame with
  | none => cases hrun
  | some rePublic =>
  obtain ⟨rfl, hinbound₁, -⟩ := run_readFrame_some hread
  dsimp only at hrun
  split at hrun
  · cases hrun
  cases hephemeral : keys.ephemeral with
  | none => rw [hephemeral] at hrun; cases hrun
  | some ePrivate =>
  rw [hephemeral] at hrun
  dsimp only at hrun
  split at hrun
  · cases hrun
  rename_i message sym hmessage
  obtain ⟨sent, w₂, hwrite, hrun⟩ := run_bind_eq hrun
  obtain ⟨hinbound₂, -⟩ := run_writeFrame_reads message w₁
  rw [hwrite] at hinbound₂
  split at hrun
  · cases hrun
  obtain ⟨frame, w₃, hread', hrun⟩ := run_bind_eq hrun
  cases frame with
  | none => cases hrun
  | some msg =>
  obtain ⟨rfl, -, -⟩ := run_readFrame_some hread'
  rw [hinbound₂, hinbound₁] at hrun
  dsimp only at hrun
  split at hrun
  · cases hrun
  rename_i remoteStatic sym' hkey
  obtain ⟨taken, w₄, htake, hrun⟩ := run_bind_eq hrun
  cases taken with
  | none => cases hrun
  | some taken =>
  obtain ⟨payload, sym''⟩ := taken
  obtain ⟨hpayload, hidentified⟩ := run_takePayload hverify htake
  cases hrun
  refine ⟨?_, hidentified⟩
  rw [hpayload]
  simp [peerPayload, hephemeral, hmessage, hkey]

end

/-- **Identity.** Whatever the peer sends: if the handshake returns a stream and `verify` is set, then
`verify` was called on key and signature of the peer's payload over its static key and returned true,
if and only if that payload is at least a tag long, decodes, and has both fields. -/
theorem verified_iff_identified (prims : Primitives) (pb : Protobuf) (callbacks : Callbacks)
    (keys : Keys) (role : Role) (inbound : Bytes) (grants : List Nat)
    (outcomes : List WriteOutcome) (answers : List Bool) (established : Established) (w' : Wire)
    (hverify : callbacks.verify = true)
    (hrun : (handshake prims pb callbacks keys role).run (.fresh inbound grants outcomes answers) =
      (some established, w')) :
    Verified pb w'.asked established.remoteStatic established.remotePayload ↔
      Identified pb (peerPayload prims pb callbacks keys role inbound) := by
  have hpayload : established.remotePayload = peerPayload prims pb callbacks keys role inbound ∧
      (Identified pb established.remotePayload →
        Verified pb w'.asked established.remoteStatic established.remotePayload) := by
    cases role with
    | initiator => exact run_handshakeInitiator_payload hverify hrun
    | responder => exact run_handshakeResponder_payload hverify hrun
  rw [← hpayload.1]
  exact ⟨Verified.identified, hpayload.2⟩

/-- A responder's message under `Primitives.plain`, with this payload. -/
def plainMessage (payload : Bytes) : Bytes :=
  let msg := List.replicate 32 7 ++ (List.replicate 32 8 ++ List.replicate 16 0) ++
    (payload ++ List.replicate 16 0)
  frameHeader msg.length ++ msg

def verifyOnly : Callbacks := ⟨none, none, true⟩

theorem verified_iff_identified_payload :
    ∃ established w', (handshake Primitives.plain Protobuf.varints verifyOnly ⟨some [1], some [2]⟩
        .initiator).run (.fresh (plainMessage [10, 1, 5, 18, 1, 6]) [] [] [true]) =
        (some established, w') ∧
      Verified Protobuf.varints w'.asked established.remoteStatic established.remotePayload := by
  have hsome : ((handshake Primitives.plain Protobuf.varints verifyOnly ⟨some [1], some [2]⟩
      .initiator).run (.fresh (plainMessage [10, 1, 5, 18, 1, 6]) [] [] [true])).1.isSome = true := by
    decide
  obtain ⟨established, hestablished⟩ := Option.isSome_iff_exists.mp hsome
  refine ⟨established, _, Prod.ext hestablished rfl,
    (verified_iff_identified Primitives.plain Protobuf.varints verifyOnly ⟨some [1], some [2]⟩
      .initiator (plainMessage [10, 1, 5, 18, 1, 6]) [] [] [true] established _ rfl
      (Prod.ext hestablished rfl)).mpr ?_⟩
  exact ⟨[10, 1, 5, 18, 1, 6], ⟨2, 1⟩, ⟨5, 1⟩, by decide, by decide⟩

/-- The peer sends an empty payload: the handshake returns a stream and asks nothing. -/
theorem stream_without_verify :
    let run := (handshake Primitives.plain Protobuf.varints verifyOnly ⟨some [1], some [2]⟩
      .initiator).run (.fresh (plainMessage []) [] [] [])
    run.1.isSome = true ∧ run.2.asked = [] := by
  decide

end CLibp2p.Noise
