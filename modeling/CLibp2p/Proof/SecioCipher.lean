import CLibp2p.Secio.Cipher

/-!
# What one side encrypts the other decrypts

Counter mode undoes itself when it starts from the same state, and it ends in the same state both times.
So the two sides stay in step whatever the lengths of the messages.
-/

namespace CLibp2p.Secio

open Duplex

/-- Counter mode is an involution, and what it leaves behind does not depend on the bytes. -/
theorem cryptCtr_cryptCtr (encryptBlock : Bytes → Bytes) (state : CtrState) (input : Bytes) :
    cryptCtr encryptBlock state (cryptCtr encryptBlock state input).1 =
      (input, (cryptCtr encryptBlock state input).2) := by
  induction input generalizing state with
  | nil => rfl
  | cons byte input ih =>
      simp only [cryptCtr]
      rw [ih, UInt8.xor_assoc, UInt8.xor_self, UInt8.xor_zero]

/-- What `sender` encrypts next, `receiver` decrypts next. -/
structure CipherSession.InStep (sender receiver : CipherSession) : Prop where
  key : sender.localStretchedKey = receiver.remoteStretchedKey
  offset : sender.aesEncodeNonceOffset = receiver.aesDecodeNonceOffset
  block : sender.aesEncodeStreamBlock = receiver.aesDecodeStreamBlock

theorem CipherSession.InStep.message {lib : CipherLibrary} {sender receiver sender' : CipherSession}
    (hstep : sender.InStep receiver) {message out : Bytes}
    (hencrypt : sender.encrypt lib message = (some out, sender')) :
    ∃ receiver', receiver.decrypt lib out =
        some (⟨intOfSize message.length, some message⟩, receiver') ∧ sender'.InStep receiver' := by
  have hstate : sender.encodeState = receiver.decodeState := by
    simp only [encodeState, decodeState, hstep.key, hstep.offset, hstep.block]
  have hkey : acceptsKey sender.localStretchedKey.cipherKey = true := by
    by_contra hrefused
    rw [encrypt, if_neg hrefused] at hencrypt
    cases hencrypt
  generalize hct : cryptCtr (lib.aesEncrypt sender.localStretchedKey.cipherKey) sender.encodeState
    message = crypted
  obtain ⟨buffer, state⟩ := crypted
  have hback := cryptCtr_cryptCtr (lib.aesEncrypt sender.localStretchedKey.cipherKey)
    sender.encodeState message
  rw [hct, hstate] at hback
  have hmac := lib.hmac_length sender.localStretchedKey.macKey buffer
  have hlength : (buffer ++ lib.hmacSha256 sender.localStretchedKey.macKey buffer).length - 32 =
      buffer.length := by
    rw [List.length_append, hmac, Nat.add_sub_cancel]
  simp only [encrypt, hkey, if_true, hct] at hencrypt
  cases hencrypt
  refine ⟨receiver.setDecodeState state, ?_, ?_⟩
  · rw [decrypt, if_neg (by rw [List.length_append, hmac]; omega), hlength, List.take_left,
      List.drop_left, ← hstep.key]
    dsimp only
    rw [if_neg (not_not.mpr rfl), if_pos hkey, hback]
  · exact ⟨by simp only [setEncodeState, setDecodeState, hstep.key], rfl, rfl⟩

/-- Encrypting fails only over the length of the key. -/
theorem CipherSession.encryptAll_eq_none_iff (lib : CipherLibrary) (session : CipherSession)
    (messages : List Bytes) :
    session.encryptAll lib messages = none ↔
      messages ≠ [] ∧ acceptsKey session.localStretchedKey.cipherKey = false := by
  induction messages generalizing session with
  | nil => simp [encryptAll]
  | cons message messages ih =>
      cases hkey : acceptsKey session.localStretchedKey.cipherKey with
      | false => simp [encryptAll, encrypt, hkey]
      | true =>
          obtain ⟨out, session', hencrypt, hsame⟩ : ∃ out session',
              session.encrypt lib message = (some out, session') ∧
                session'.localStretchedKey.cipherKey = session.localStretchedKey.cipherKey := by
            rw [encrypt, if_pos hkey]
            exact ⟨_, _, rfl, rfl⟩
          have hrest : session'.encryptAll lib messages ≠ none := by
            rw [Ne, ih, hsame, hkey]
            exact fun h => Bool.noConfusion h.2
          obtain ⟨rest, hrest⟩ := Option.ne_none_iff_exists'.mp hrest
          simp [encryptAll, hencrypt, hrest]

/-- **One direction of a session.** From sides that are in step, whatever sequence of messages is
encrypted is decrypted to itself, in order, and leaves the sides in step. -/
theorem decryptAll_encryptAll (lib : CipherLibrary) {sender receiver : CipherSession}
    (hstep : sender.InStep receiver) (messages : List Bytes) :
    (sender.encryptAll lib messages = none ↔
        messages ≠ [] ∧ acceptsKey sender.localStretchedKey.cipherKey = false) ∧
      ∀ outs sender', sender.encryptAll lib messages = some (outs, sender') →
        ∃ receiver', receiver.decryptAll lib outs =
            some (messages.map fun message => ⟨intOfSize message.length, some message⟩,
              receiver') ∧
          sender'.InStep receiver' := by
  refine ⟨sender.encryptAll_eq_none_iff lib messages, ?_⟩
  induction messages generalizing sender receiver with
  | nil =>
      intro outs sender' hencrypt
      cases hencrypt
      exact ⟨receiver, rfl, hstep⟩
  | cons message messages ih =>
      intro outs sender' hencrypt
      rw [CipherSession.encryptAll] at hencrypt
      split at hencrypt
      · cases hencrypt
      · rename_i out sender₁ hfirst
        split at hencrypt
        · cases hencrypt
        · rename_i rest sender₂ hrest
          cases hencrypt
          obtain ⟨receiver₁, hdecrypt, hstep₁⟩ := hstep.message hfirst
          obtain ⟨receiver₂, hdecrypts, hstep₂⟩ := ih hstep₁ _ _ hrest
          refine ⟨receiver₂, ?_, hstep₂⟩
          simp only [CipherSession.decryptAll, hdecrypt, hdecrypts, List.map_cons]

/-- The answers of mbedTLS for a zero key: the first two blocks of the key stream, and the MACs of the
ciphertexts below and of a zero byte. -/
def CipherLibrary.zeroKey : CipherLibrary where
  aesEncrypt _ block :=
    if block = List.replicate 16 0 then
      [102, 233, 75, 212, 239, 138, 44, 59, 136, 76, 250, 89, 202, 52, 43, 46]
    else [88, 226, 252, 206, 250, 126, 48, 97, 54, 127, 29, 87, 164, 231, 69, 90]
  hmacSha256 _ data :=
    if data = [14, 128] then
      [78, 54, 124, 97, 109, 158, 145, 246, 148, 9, 187, 193, 10, 7, 169, 57, 232, 202, 234, 75, 255, 182,
        106, 171, 160, 75, 1, 158, 22, 108, 207, 225]
    else if data = [0] then
      [102, 32, 179, 31, 41, 36, 184, 192, 21, 71, 116, 95, 65, 130, 93, 50, 35, 54, 248, 62, 187, 19, 215,
        35, 103, 135, 137, 213, 84, 216, 163, 239]
    else
      [88, 208, 194, 117, 94, 48, 151, 10, 239, 69, 37, 157, 52, 23, 224, 205, 221, 117, 243, 118, 124, 201,
        124, 126, 212, 41, 31, 55, 58, 28, 113, 59]
  hmac_length _ data := by split_ifs <;> rfl

def CipherSession.zeroKey : CipherSession :=
  let key : KeyMemory := ⟨List.replicate 16 0, List.replicate 16 0, List.replicate 20 0⟩
  CipherSession.initializeCrypto ⟨key, key, 0, [], 0, []⟩

/-- The message `hi` under the zero key, as the other side sends it. -/
def CipherSession.hiOut : Bytes :=
  [14, 128] ++ CipherLibrary.zeroKey.hmacSha256 [] [14, 128]

/-- The message that comes behind it, which uses up the first block. -/
def CipherSession.multistreamOut : Bytes :=
  let data := [100, 185, 154, 230, 88, 82, 251, 56, 136, 60, 171, 89, 4, 31, 118, 210, 210, 254]
  data ++ CipherLibrary.zeroKey.hmacSha256 [] data

/-- The sender after the two messages. -/
def CipherSession.afterTwo : CipherSession :=
  CipherSession.zeroKey.setEncodeState (cryptCtr (CipherLibrary.zeroKey.aesEncrypt [])
    CipherSession.zeroKey.encodeState (name "hi/multistream/1.0.0")).2

theorem CipherSession.encryptAll_two :
    CipherSession.zeroKey.encryptAll .zeroKey [name "hi", name "/multistream/1.0.0"] =
      some ([CipherSession.hiOut, CipherSession.multistreamOut], CipherSession.afterTwo) := by
  decide +kernel

theorem decryptAll_encryptAll_two :
    ∃ receiver', CipherSession.zeroKey.decryptAll .zeroKey
          [CipherSession.hiOut, CipherSession.multistreamOut] =
        some ([⟨2, some (name "hi")⟩, ⟨18, some (name "/multistream/1.0.0")⟩], receiver') ∧
      CipherSession.afterTwo.InStep receiver' := by
  obtain ⟨receiver', hdecrypt, hstep⟩ := (decryptAll_encryptAll .zeroKey
    (show CipherSession.zeroKey.InStep CipherSession.zeroKey from ⟨rfl, rfl, rfl⟩)
    [name "hi", name "/multistream/1.0.0"]).2 _ _ CipherSession.encryptAll_two
  have hmessages : [name "hi", name "/multistream/1.0.0"].map
      (fun message => (⟨intOfSize message.length, some message⟩ : Decrypted)) =
        [⟨2, some (name "hi")⟩, ⟨18, some (name "/multistream/1.0.0")⟩] := by
    decide +kernel
  exact ⟨receiver', by rw [hdecrypt, hmessages], hstep⟩

end CLibp2p.Secio
