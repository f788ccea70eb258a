import CLibp2p.Proof.SecioAdversary
import CLibp2p.Secio.EncryptedRead

/-!
# Messages that an encrypted read rejects

A message whose MAC does not verify goes to the caller as it came in, with a return value of 0. The
session is what it was before, so the messages after it are deciphered as if it had not been sent.
-/

namespace CLibp2p.Secio

open Duplex

/-- The byte string that an encrypted read gets from the socket, if it gets one. -/
def receivedBytes (memory : Nat → UInt8) (schedule : List SocketCall) (inbound : Bytes) : Option Bytes :=
  let received := unencryptedReadFrom schedule 10 inbound
  if received.retVal = 0 then none else received.msg.bind (ReadMessage.buffer memory)

/-- The message is some data and its HMAC, and the read gives the data deciphered. -/
def Deciphers (lib : CipherLibrary) (session : CipherSession) (message : Bytes) (read : EncryptedRead) :
    Prop :=
  ∃ data, message = data ++ lib.hmacSha256 session.remoteStretchedKey.macKey data ∧
    let deciphered := cryptCtr (lib.aesEncrypt session.remoteStretchedKey.cipherKey)
      session.decodeState data
    read.retVal = intOfSize deciphered.1.length ∧ read.bytes = some deciphered.1 ∧
      read.session = session.setDecodeState deciphered.2

/-- The read fails and leaves the state of the cipher as it was, and its caller gets nothing. -/
def RejectsSilently (session : CipherSession) (read : EncryptedRead) : Prop :=
  read.retVal = 0 ∧ read.bytes = none ∧ read.session.decodeState = session.decodeState

/-- The read fails and leaves the session as it was, and its caller gets no more than the message as it
came in. -/
def Rejects (session : CipherSession) (message : Bytes) (read : EncryptedRead) : Prop :=
  read.retVal = 0 ∧ (read.bytes = none ∨ read.bytes = some message) ∧ read.session = session

theorem encryptedRead_of_received (lib : CipherLibrary) (memory : Nat → UInt8) (parentRead : ParentRead)
    (session : CipherSession) {schedule : List SocketCall} {inbound message : Bytes}
    (hreceived : receivedBytes memory schedule inbound = some message) :
    encryptedRead lib memory parentRead .ack session schedule inbound =
      (session.decrypt lib message).map fun (decrypted, session) =>
        ⟨decrypted.retVal, decrypted.outgoing, session, (unencryptedReadFrom schedule 10 inbound).inbound⟩ := by
  unfold receivedBytes at hreceived
  dsimp only at hreceived
  by_cases hfailed : (unencryptedReadFrom schedule 10 inbound).retVal = 0
  · rw [if_pos hfailed] at hreceived
    cases hreceived
  · rw [if_neg hfailed, Option.bind_eq_some_iff] at hreceived
    obtain ⟨read, hmsg, hbuffer⟩ := hreceived
    unfold encryptedRead
    rw [if_neg (not_not.mpr rfl)]
    dsimp only
    rw [if_neg hfailed, hmsg]
    simp only [Option.bind_eq_bind, Option.bind_some, hbuffer]
    cases session.decrypt lib message <;> rfl

/-- What `libp2p_secio_decrypt` does with a message that does not verify. -/
theorem CipherSession.decrypt_rejects {lib : CipherLibrary} {session : CipherSession} {incoming : Bytes}
    (hlong : 32 ≤ incoming.length) (hfails : session.verifies lib incoming = false) :
    ∃ outgoing, (outgoing = none ∨ outgoing = some incoming) ∧
      session.decrypt lib incoming = some (⟨0, outgoing⟩, session) := by
  rw [decrypt, if_neg (not_lt.mpr hlong)]
  dsimp only
  split
  · exact ⟨some incoming, Or.inr rfl, rfl⟩
  · rename_i hmac
    have hkey : acceptsKey session.remoteStretchedKey.cipherKey = false := by
      simpa [verifies, hlong, not_not.mp hmac] using hfails
    exact ⟨none, Or.inl rfl, by rw [hkey, if_neg Bool.false_ne_true]⟩

/-- The messages that are rejected leave no trace in what becomes of the others. -/
theorem CipherSession.accepted_filter_verifies (lib : CipherLibrary) (session : CipherSession)
    {delivered : List Bytes} (hlong : ∀ incoming ∈ delivered, 32 ≤ incoming.length) :
    session.accepted lib delivered = session.accepted lib (delivered.filter (session.verifies lib)) := by
  induction delivered generalizing session with
  | nil => rfl
  | cons incoming delivered ih =>
      obtain ⟨hfirst, hrest⟩ := List.forall_mem_cons.mp hlong
      cases hverifies : session.verifies lib incoming with
      | false =>
          obtain ⟨outgoing, -, hdecrypt⟩ := CipherSession.decrypt_rejects hfirst hverifies
          rw [List.filter_cons_of_neg (by rw [hverifies]; exact Bool.false_ne_true),
            accepted_cons hdecrypt rfl, hverifies, ih session hrest]
          simp
      | true =>
          obtain ⟨data, -, hdecrypt⟩ := CipherSession.decrypt_of_verifies hverifies
          have hsame := session.verifies_setDecodeState lib (cryptCtr
            (lib.aesEncrypt session.remoteStretchedKey.cipherKey) session.decodeState data).2
          rw [List.filter_cons_of_pos hverifies, accepted_cons hdecrypt hsame, accepted_cons hdecrypt hsame,
            ih _ hrest, hsame]

/-- **Messages that are rejected.** On an established stream, a message with room for a MAC is deciphered
if the MAC is that of the rest. Otherwise the read fails, its caller sees no more than the message as it
came in, and the session is as before. So what becomes of the messages of a session that verify does not
depend on the others. -/
theorem encryptedRead_deciphers_or_rejects (lib : CipherLibrary) (memory : Nat → UInt8)
    (parentRead : ParentRead) (session : CipherSession) {schedule : List SocketCall}
    {inbound message : Bytes} (hreceived : receivedBytes memory schedule inbound = some message)
    (hlong : 32 ≤ message.length) :
    (∃ read, encryptedRead lib memory parentRead .ack session schedule inbound = some read ∧
      (Deciphers lib session message read ∨ Rejects session message read)) ∧
    ∀ delivered : List Bytes, (∀ incoming ∈ delivered, 32 ≤ incoming.length) →
      session.accepted lib delivered =
        session.accepted lib (delivered.filter (session.verifies lib)) := by
  refine ⟨?_, fun delivered => session.accepted_filter_verifies lib⟩
  rw [encryptedRead_of_received lib memory parentRead session hreceived]
  cases hverifies : session.verifies lib message with
  | true =>
      obtain ⟨data, hmessage, hdecrypt⟩ := CipherSession.decrypt_of_verifies hverifies
      rw [hdecrypt, Option.map_some]
      refine ⟨_, rfl, Or.inl ⟨data, hmessage, ?_⟩⟩
      dsimp only
      exact ⟨rfl, rfl, rfl⟩
  | false =>
      obtain ⟨outgoing, houtgoing, hdecrypt⟩ := CipherSession.decrypt_rejects hlong hverifies
      rw [hdecrypt]
      exact ⟨_, rfl, Or.inr ⟨rfl, houtgoing, rfl⟩⟩

/-- A framed message of 33 zero bytes. -/
def zeroMessage : Bytes := [0, 0, 0, 33] ++ List.replicate 33 0

theorem receivedBytes_zeroMessage :
    receivedBytes (fun _ => 0) [] zeroMessage = some (List.replicate 33 0) := by
  decide

/-- The zero bytes are rejected, and the messages on both sides of them come out as without them. -/
theorem encryptedRead_deciphers_or_rejects_zero :
    (∃ read, encryptedRead .zeroKey (fun _ => 0) (fun inbound => (0, none, inbound)) .ack .zeroKey []
        zeroMessage = some read ∧
      (Deciphers .zeroKey .zeroKey (List.replicate 33 0) read ∨
        Rejects .zeroKey (List.replicate 33 0) read)) ∧
    CipherSession.zeroKey.accepted .zeroKey
        [CipherSession.hiOut, List.replicate 33 0, CipherSession.multistreamOut] =
      CipherSession.zeroKey.accepted .zeroKey [CipherSession.hiOut, CipherSession.multistreamOut] := by
  have hread := encryptedRead_deciphers_or_rejects .zeroKey (fun _ => 0)
    (fun inbound => (0, none, inbound)) .zeroKey receivedBytes_zeroMessage (by decide)
  refine ⟨hread.1, (hread.2 _ (by decide)).trans ?_⟩
  decide +kernel

/-- They are handed to the caller all the same. -/
theorem encryptedRead_raw_fails :
    ¬∀ (lib : CipherLibrary) (memory : Nat → UInt8) (parentRead : ParentRead) (session : CipherSession)
      (schedule : List SocketCall) (inbound message : Bytes),
      receivedBytes memory schedule inbound = some message →
      ∃ read, encryptedRead lib memory parentRead .ack session schedule inbound = some read ∧
        (Deciphers lib session message read ∨ RejectsSilently session read) := by
  intro hall
  obtain ⟨read, hread, hcases⟩ := hall .zeroKey (fun _ => 0) (fun inbound => (0, none, inbound)) .zeroKey []
    zeroMessage _ receivedBytes_zeroMessage
  have hraw : (encryptedRead .zeroKey (fun _ => 0) (fun inbound => (0, none, inbound)) .ack .zeroKey []
      zeroMessage).map (fun read => (read.retVal, read.bytes)) =
        some (0, some (List.replicate 33 0)) := by
    decide
  rw [hread, Option.map_some, Option.some.injEq, Prod.mk.injEq] at hraw
  rcases hcases with ⟨data, hmessage, -⟩ | ⟨-, hnone, -⟩
  · -- 33 zero bytes do not end in the MAC of the first
    have hlength := congrArg List.length hmessage
    rw [List.length_append, CipherLibrary.zeroKey.hmac_length, List.length_replicate] at hlength
    have hdata : data = [0] := by
      have htake := congrArg (List.take data.length) hmessage
      rw [List.take_left, show data.length = 1 by omega] at htake
      exact htake.symm
    rw [hdata] at hmessage
    exact absurd hmessage (by decide)
  · rw [hraw.2] at hnone
    cases hnone

end CLibp2p.Secio
