import CLibp2p.Proof.SecioCipher
import Mathlib.Data.List.Infix

/-!
# What an adversary can have decrypted

The MAC covers the ciphertext alone and not its place in the session. So what was sent before, or further
on, verifies as well as the message that is due, and is deciphered with the key stream of the latter.
-/

namespace CLibp2p.Secio

open Duplex

/-- `incoming` passes the MAC check of `libp2p_secio_decrypt`, and AES takes the key. -/
def CipherSession.verifies (lib : CipherLibrary) (session : CipherSession) (incoming : Bytes) : Bool :=
  let key := session.remoteStretchedKey
  decide (32 ≤ incoming.length) &&
    decide (incoming.drop (incoming.length - 32) =
      lib.hmacSha256 key.macKey (incoming.take (incoming.length - 32))) &&
    acceptsKey key.cipherKey

/-- The plaintexts that `libp2p_secio_decrypt` accepts of the messages delivered to it, unless one of
them makes it read what is not there. -/
def CipherSession.accepted (lib : CipherLibrary) (session : CipherSession) (delivered : List Bytes) :
    Option (List Bytes) :=
  (session.decryptAll lib delivered).map fun (results, _) =>
    (delivered.zip results).filterMap fun (incoming, result) =>
      if session.verifies lib incoming then result.outgoing else none

/-- What was deciphered does not enter the check. -/
theorem CipherSession.verifies_setDecodeState (lib : CipherLibrary) (session : CipherSession)
    (state : CtrState) : (session.setDecodeState state).verifies lib = session.verifies lib := rfl

/-- What fails the check leaves the session as it was. -/
theorem CipherSession.decrypt_of_not_verifies {lib : CipherLibrary} {session : CipherSession}
    {incoming : Bytes} (hlong : 32 ≤ incoming.length) (hfails : session.verifies lib incoming = false) :
    ∃ result, session.decrypt lib incoming = some (result, session) := by
  rw [decrypt, if_neg (not_lt.mpr hlong)]
  dsimp only
  split
  · exact ⟨_, rfl⟩
  · rename_i hmac
    have hkey : acceptsKey session.remoteStretchedKey.cipherKey = false := by
      simpa [verifies, hlong, not_not.mp hmac] using hfails
    exact ⟨⟨0, none⟩, by rw [hkey, if_neg Bool.false_ne_true]⟩

/-- What passes it is deciphered with the key stream that is due. -/
theorem CipherSession.decrypt_of_verifies {lib : CipherLibrary} {session : CipherSession}
    {incoming : Bytes} (hverifies : session.verifies lib incoming = true) :
    ∃ data, incoming = data ++ lib.hmacSha256 session.remoteStretchedKey.macKey data ∧
      session.decrypt lib incoming =
        some (⟨intOfSize (cryptCtr (lib.aesEncrypt session.remoteStretchedKey.cipherKey)
            session.decodeState data).1.length,
          some (cryptCtr (lib.aesEncrypt session.remoteStretchedKey.cipherKey)
            session.decodeState data).1⟩,
          session.setDecodeState (cryptCtr (lib.aesEncrypt session.remoteStretchedKey.cipherKey)
            session.decodeState data).2) := by
  simp only [verifies, Bool.and_eq_true, decide_eq_true_eq] at hverifies
  obtain ⟨⟨hlong, hmac⟩, hkey⟩ := hverifies
  refine ⟨incoming.take (incoming.length - 32), ?_, ?_⟩
  · rw [← hmac, List.take_append_drop]
  · rw [decrypt, if_neg (not_lt.mpr hlong)]
    dsimp only
    rw [if_neg (not_not.mpr hmac), if_pos hkey]

theorem CipherSession.accepted_of_short {lib : CipherLibrary} {session : CipherSession}
    {incoming : Bytes} (hshort : incoming.length < 32) (delivered : List Bytes) :
    session.accepted lib (incoming :: delivered) = none := by
  simp only [accepted, decryptAll, decrypt, if_pos hshort, Option.map_none]

/-- One message of those delivered. -/
theorem CipherSession.accepted_cons {lib : CipherLibrary} {session session' : CipherSession}
    {incoming : Bytes} {result : Decrypted}
    (hdecrypt : session.decrypt lib incoming = some (result, session'))
    (hverifies : session'.verifies lib = session.verifies lib) (delivered : List Bytes) :
    session.accepted lib (incoming :: delivered) =
      (session'.accepted lib delivered).map fun plaintexts =>
        (if session.verifies lib incoming then result.outgoing else none).toList ++ plaintexts := by
  simp only [accepted, decryptAll, hdecrypt, hverifies]
  cases session'.decryptAll lib delivered with
  | none => rfl
  | some results =>
      cases hout : (if session.verifies lib incoming = true then result.outgoing else none) with
      | none => simp [hout]
      | some plaintext => simp [hout]

/-- What the other side encrypts at this point is the only thing that is deciphered to its message. -/
theorem CipherSession.InStep.deciphers_iff {lib : CipherLibrary} {sender receiver sender' : CipherSession}
    (hstep : sender.InStep receiver) {message out : Bytes}
    (hencrypt : sender.encrypt lib message = (some out, sender')) (data : Bytes) :
    (cryptCtr (lib.aesEncrypt receiver.remoteStretchedKey.cipherKey) receiver.decodeState data).1 =
        message ↔
      data ++ lib.hmacSha256 receiver.remoteStretchedKey.macKey data = out := by
  have hstate : sender.encodeState = receiver.decodeState := by
    simp only [encodeState, decodeState, hstep.key, hstep.offset, hstep.block]
  have hout : (cryptCtr (lib.aesEncrypt receiver.remoteStretchedKey.cipherKey) receiver.decodeState
      message).1 ++ lib.hmacSha256 receiver.remoteStretchedKey.macKey
        (cryptCtr (lib.aesEncrypt receiver.remoteStretchedKey.cipherKey) receiver.decodeState
          message).1 = out := by
    rw [encrypt] at hencrypt
    split at hencrypt
    · rw [← hstate, ← hstep.key]
      exact Option.some.inj (congrArg Prod.fst hencrypt)
    · cases hencrypt
  constructor
  · rintro rfl
    rw [cryptCtr_cryptCtr] at hout
    exact hout
  · intro hsame
    rw [← hout] at hsame
    have hlengths := congrArg List.length hsame
    simp only [List.length_append, lib.hmac_length, Nat.add_right_cancel_iff] at hlengths
    rw [(List.append_inj hsame hlengths).1, cryptCtr_cryptCtr]

/-- **What an adversary can have decrypted.** Whatever messages are delivered, in whatever order, the
plaintexts accepted are a prefix of those given to the other side, if and only if each of the messages
has room for a MAC and those that verify are a prefix of what the other side sent. -/
theorem accepted_isPrefix_iff (lib : CipherLibrary) {sender receiver sender' : CipherSession}
    (hstep : sender.InStep receiver) {messages outs : List Bytes}
    (hencrypt : sender.encryptAll lib messages = some (outs, sender')) (delivered : List Bytes) :
    (∃ plaintexts, receiver.accepted lib delivered = some plaintexts ∧ plaintexts <+: messages) ↔
      (∀ incoming ∈ delivered, 32 ≤ incoming.length) ∧
        delivered.filter (receiver.verifies lib) <+: outs := by
  induction delivered generalizing sender receiver messages outs with
  | nil => simp [CipherSession.accepted, CipherSession.decryptAll]
  | cons incoming delivered ih =>
      by_cases hshort : incoming.length < 32
      · rw [CipherSession.accepted_of_short hshort]
        simp [not_le.mpr hshort]
      have hlong : 32 ≤ incoming.length := not_lt.mp hshort
      have hlengths : (∀ i ∈ incoming :: delivered, 32 ≤ i.length) ↔ ∀ i ∈ delivered, 32 ≤ i.length := by
        simp [hlong]
      rw [hlengths]
      cases hverifies : receiver.verifies lib incoming with
      | false =>
          obtain ⟨result, hdecrypt⟩ := CipherSession.decrypt_of_not_verifies hlong hverifies
          rw [List.filter_cons_of_neg (by rw [hverifies]; exact Bool.false_ne_true),
            CipherSession.accepted_cons hdecrypt rfl, hverifies, ← ih hstep hencrypt]
          simp
      | true =>
          obtain ⟨data, hincoming, hdecrypt⟩ := CipherSession.decrypt_of_verifies hverifies
          have hsame := receiver.verifies_setDecodeState lib (cryptCtr
            (lib.aesEncrypt receiver.remoteStretchedKey.cipherKey) receiver.decodeState data).2
          rw [List.filter_cons_of_pos hverifies, CipherSession.accepted_cons hdecrypt hsame, hverifies]
          cases messages with
          | nil =>
              -- nothing was sent, and something is accepted
              cases hencrypt
              simp
          | cons message messages =>
              rw [CipherSession.encryptAll] at hencrypt
              split at hencrypt
              · cases hencrypt
              rename_i out sender₁ hfirst
              split at hencrypt
              · cases hencrypt
              rename_i rest sender₂ hrest
              cases hencrypt
              have hdue := hstep.deciphers_iff hfirst data
              rw [← hincoming] at hdue
              by_cases hout : incoming = out
              · obtain ⟨receiver₁, hdecrypt₁, hstep₁⟩ := hstep.message hfirst
                rw [← hout, hdecrypt] at hdecrypt₁
                have hreceiver := congrArg Prod.snd (Option.some.inj hdecrypt₁)
                dsimp only at hreceiver
                rw [← hreceiver] at hstep₁
                have hrec := ih hstep₁ hrest
                rw [hsame] at hrec
                simp only [hout, List.cons_prefix_cons, true_and, ← hrec, hdue.mpr hout, if_true,
                  Option.toList_some, List.singleton_append, Option.map_eq_some_iff]
                constructor
                · rintro ⟨_, ⟨plaintexts, haccepted, rfl⟩, hprefix⟩
                  exact ⟨plaintexts, haccepted, (List.cons_prefix_cons.mp hprefix).2⟩
                · rintro ⟨plaintexts, haccepted, hprefix⟩
                  exact ⟨_, ⟨plaintexts, haccepted, rfl⟩, List.cons_prefix_cons.mpr ⟨rfl, hprefix⟩⟩
              · -- what is deciphered here is not the message that is due
                have hother := mt hdue.mp hout
                simp [List.cons_prefix_cons, hout, hother]

/-- The same bytes delivered twice verify twice, and the second time they come out as something else. -/
theorem accepted_isPrefix_replay :
    ¬∀ (lib : CipherLibrary) (sender receiver sender' : CipherSession) (messages outs delivered : List Bytes),
      sender.InStep receiver → sender.encryptAll lib messages = some (outs, sender') →
      (∀ incoming ∈ delivered, receiver.verifies lib incoming = true → incoming ∈ outs) →
      ∃ plaintexts, receiver.accepted lib delivered = some plaintexts ∧ plaintexts <+: messages := by
  intro hclaim
  obtain ⟨plaintexts, haccepted, hprefix⟩ := hclaim .zeroKey .zeroKey .zeroKey _ _ _
    [CipherSession.hiOut, CipherSession.hiOut] ⟨rfl, rfl, rfl⟩ CipherSession.encryptAll_two (by simp)
  have htwo : CipherSession.zeroKey.accepted .zeroKey [CipherSession.hiOut, CipherSession.hiOut] =
      some [name "hi", [69, 84]] := by
    decide +kernel
  rw [htwo, Option.some.injEq] at haccepted
  subst haccepted
  exact absurd hprefix (by decide +kernel)

/-- The two messages with one between them that does not verify. -/
theorem accepted_isPrefix_iff_between :
    ∃ plaintexts, CipherSession.zeroKey.accepted .zeroKey
        [CipherSession.hiOut, List.replicate 33 0, CipherSession.multistreamOut] = some plaintexts ∧
      plaintexts <+: [name "hi", name "/multistream/1.0.0"] :=
  (accepted_isPrefix_iff .zeroKey
    (show CipherSession.zeroKey.InStep CipherSession.zeroKey from ⟨rfl, rfl, rfl⟩)
    CipherSession.encryptAll_two _).mpr ⟨by decide +kernel, by decide +kernel⟩

end CLibp2p.Secio
