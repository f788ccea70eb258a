import CLibp2p.Stream.Net
import CLibp2p.Proof.NoiseReading
import CLibp2p.Proof.NoiseIdentity

/-!
# Both sides of the handshake agree

The two roles run against each other over a FIFO channel. The pure part is that each message, read by
the peer, leaves the peer in the state of its sender; the rest is that three frames are exchanged under
every interleaving. Together: every run ends with both sides established on the same transcript hash,
the same chaining key, crossed stream keys, and each other's static key and payload.
-/

namespace CLibp2p.Noise

open Duplex Duplex.Prog

/-- What the handshake relies on in OpenSSL: Diffie-Hellman succeeds and commutes, public keys have 32
bytes, sealing succeeds, and opening inverts it. -/
structure Primitives.Lawful (prims : Primitives) : Prop where
  publicLength : ∀ privateKey, (prims.x25519Public privateKey).length = dhLength
  commutes : ∀ ours theirs, ∃ shared,
    prims.x25519Derive ours (prims.x25519Public theirs) = some shared ∧
      prims.x25519Derive theirs (prims.x25519Public ours) = some shared
  seals : ∀ key nonce ad plaintext, ∃ ciphertext,
    prims.chachaSeal key nonce ad plaintext = some ciphertext
  opens : prims.OpensSealed

/-! ### Messages -/

theorem decryptAndHash_of_encryptAndHash {prims : Primitives} (hopens : prims.OpensSealed)
    {sym sym' : Symmetric} {plaintext ciphertext : Bytes}
    (hencrypt : encryptAndHash prims sym plaintext = some (ciphertext, sym')) :
    ciphertext.length = plaintext.length + tagLength ∧
      decryptAndHash prims sym ciphertext = some (plaintext, sym') := by
  rw [encryptAndHash] at hencrypt
  split at hencrypt
  · cases hencrypt
  rename_i sealed hseal
  cases hencrypt
  obtain ⟨hlength, hopen⟩ := hopens _ _ _ _ _ hseal
  refine ⟨hlength, ?_⟩
  rw [decryptAndHash, decrypt, if_neg (by omega), hopen]

theorem Primitives.Lawful.encrypts {prims : Primitives} (hlawful : prims.Lawful) (sym : Symmetric)
    (plaintext : Bytes) :
    ∃ ciphertext sym', encryptAndHash prims sym plaintext = some (ciphertext, sym') := by
  obtain ⟨ciphertext, hseal⟩ := hlawful.seals sym.tempK (nonceBytes sym.nonce) sym.h plaintext
  refine ⟨ciphertext, mixHash prims { sym with nonce := sym.nonce + 1 } ciphertext, ?_⟩
  rw [encryptAndHash, encrypt, hseal]

section

variable {prims : Primitives} (pb : Protobuf) (callbacks : Callbacks)

theorem responderMessage_read (hlawful : prims.Lawful) (ePrivate ePrivate' sPrivate : Bytes)
    (sym : Symmetric) :
    ∃ message sym' keysSym, let payload := identityPayload pb callbacks (prims.x25519Public sPrivate)
      responderMessage prims pb callbacks ePrivate (some sPrivate) (prims.x25519Public ePrivate') sym =
        some (message, sym') ∧
      message.length = dhLength + encryptedStaticLength + (payload.length + tagLength) ∧
      readResponderKeys prims ePrivate' sym message =
        some (prims.x25519Public ePrivate, prims.x25519Public sPrivate, keysSym) ∧
      (message.drop (dhLength + encryptedStaticLength)).length = payload.length + tagLength ∧
      decryptAndHash prims keysSym (message.drop (dhLength + encryptedStaticLength)) =
        some (payload, sym') := by
  obtain ⟨ee, hee, hee'⟩ := hlawful.commutes ePrivate ePrivate'
  obtain ⟨es, hes, hes'⟩ := hlawful.commutes sPrivate ePrivate'
  obtain ⟨encryptedS, symS, hencryptS⟩ := hlawful.encrypts
    (mixKey prims (mixHash prims sym (prims.x25519Public ePrivate)) ee) (prims.x25519Public sPrivate)
  obtain ⟨encryptedPayload, sym', hencryptPayload⟩ := hlawful.encrypts (mixKey prims symS es)
    (identityPayload pb callbacks (prims.x25519Public sPrivate))
  obtain ⟨hlengthS, hdecryptS⟩ := decryptAndHash_of_encryptAndHash hlawful.opens hencryptS
  obtain ⟨hlengthPayload, hdecryptPayload⟩ :=
    decryptAndHash_of_encryptAndHash hlawful.opens hencryptPayload
  rw [hlawful.publicLength] at hlengthS
  have hpublic := hlawful.publicLength ePrivate
  have hstatic : encryptedS.length = encryptedStaticLength := hlengthS
  have hdrop : (prims.x25519Public ePrivate ++ encryptedS ++ encryptedPayload).drop
      (dhLength + encryptedStaticLength) = encryptedPayload := by
    rw [List.drop_left' (by rw [List.length_append, hpublic, hstatic])]
  refine ⟨prims.x25519Public ePrivate ++ encryptedS ++ encryptedPayload, sym', mixKey prims symS es,
    ?_, ?_, ?_, ?_, ?_⟩
  · simp [responderMessage, hee, hencryptS, hes, hencryptPayload]
  · rw [List.length_append, List.length_append, hpublic, hstatic, hlengthPayload]
  · have hmessage : (prims.x25519Public ePrivate ++ encryptedS ++ encryptedPayload).length =
        dhLength + encryptedStaticLength + encryptedPayload.length := by
      rw [List.length_append, List.length_append, hpublic, hstatic]
    have htake : (prims.x25519Public ePrivate ++ encryptedS ++ encryptedPayload).take dhLength =
        prims.x25519Public ePrivate := by
      rw [List.append_assoc, List.take_left' hpublic]
    have hmiddle : ((prims.x25519Public ePrivate ++ encryptedS ++ encryptedPayload).drop
        dhLength).take encryptedStaticLength = encryptedS := by
      rw [List.append_assoc, List.drop_left' hpublic, List.take_left' hstatic]
    rw [readResponderKeys, hmiddle, htake, hmessage]
    simp [guard, Nat.add_assoc, hee', hdecryptS, hes']
  · rw [hdrop, hlengthPayload]
  · rw [hdrop, hdecryptPayload]

theorem initiatorMessage_read (hlawful : prims.Lawful) (sPrivate ePrivate' : Bytes)
    (sym : Symmetric) :
    ∃ message sym' keySym, let payload := identityPayload pb callbacks (prims.x25519Public sPrivate)
      initiatorMessage prims pb callbacks (some sPrivate) (prims.x25519Public ePrivate') sym =
        some (message, sym') ∧
      message.length = encryptedStaticLength + (payload.length + tagLength) ∧
      readInitiatorKey prims ePrivate' sym message = some (prims.x25519Public sPrivate, keySym) ∧
      (message.drop encryptedStaticLength).length = payload.length + tagLength ∧
      decryptAndHash prims keySym (message.drop encryptedStaticLength) = some (payload, sym') := by
  obtain ⟨se, hse, hse'⟩ := hlawful.commutes sPrivate ePrivate'
  obtain ⟨encryptedS, symS, hencryptS⟩ := hlawful.encrypts sym (prims.x25519Public sPrivate)
  obtain ⟨encryptedPayload, sym', hencryptPayload⟩ := hlawful.encrypts (mixKey prims symS se)
    (identityPayload pb callbacks (prims.x25519Public sPrivate))
  obtain ⟨hlengthS, hdecryptS⟩ := decryptAndHash_of_encryptAndHash hlawful.opens hencryptS
  obtain ⟨hlengthPayload, hdecryptPayload⟩ :=
    decryptAndHash_of_encryptAndHash hlawful.opens hencryptPayload
  rw [hlawful.publicLength] at hlengthS
  have hstatic : encryptedS.length = encryptedStaticLength := hlengthS
  have hdrop : (encryptedS ++ encryptedPayload).drop encryptedStaticLength = encryptedPayload :=
    List.drop_left' hstatic
  refine ⟨encryptedS ++ encryptedPayload, sym', mixKey prims symS se, ?_, ?_, ?_, ?_, ?_⟩
  · simp [initiatorMessage, hencryptS, hse, hencryptPayload]
  · rw [List.length_append, hstatic, hlengthPayload]
  · rw [readInitiatorKey, List.take_left' hstatic, List.length_append, hstatic]
    simp [guard, hdecryptS, hse']
  · rw [hdrop, hlengthPayload]
  · rw [hdrop, hdecryptPayload]

end

/-! ### The identity payload -/

theorem payloadLoop_field {pb : Protobuf} (hlawful : pb.Lawful) {fieldNo maxOut : Nat}
    {front data out back : Bytes} (hfield : fieldNo = 1 ∨ fieldNo = 2)
    (hencode : pb.encodeLengthDelimited fieldNo data maxOut = some out)
    (hsmall : (front ++ (out ++ back)).length < 2 ^ 64) (fuel : Nat) (fields : Fields) :
    ∃ slice, slice.of (front ++ (out ++ back)) = data ∧
      payloadLoop pb (front ++ (out ++ back)) (fuel + 1) (UInt64.ofNat front.length) fields =
        payloadLoop pb (front ++ (out ++ back)) fuel (UInt64.ofNat (front ++ out).length)
          (fields.set fieldNo slice) := by
  obtain ⟨headerBytes, varintLength, hpos, hlength, hdata, hreads⟩ :=
    hlawful.decodes fieldNo data maxOut out (by omega) (by omega) hencode
  obtain ⟨hdecode, hvarint, -⟩ := hreads back
  have htotal : (front ++ (out ++ back)).length = front.length + out.length + back.length := by
    rw [List.length_append, List.length_append, Nat.add_assoc]
  have hnat (n : Nat) (hn : n ≤ front.length + out.length) : (UInt64.ofNat n).toNat = n := by
    rw [UInt64.toNat_ofNat', Nat.mod_eq_of_lt (by omega)]
  have hdrop (n : Nat) : (front ++ (out ++ back)).drop (front.length + n) = (out ++ back).drop n := by
    rw [← List.drop_drop, List.drop_left]
  have hrest : (out ++ back).drop (headerBytes + varintLength) = data ++ back := by
    rw [List.drop_append_of_le_length (by omega), hdata]
  refine ⟨⟨UInt64.ofNat (front.length + (headerBytes + varintLength)), UInt64.ofNat data.length⟩,
    ?_, ?_⟩
  · rw [Slice.of, hnat _ (by omega), hnat _ (by omega), hdrop, hrest, List.take_left]
  · have hhead : (front ++ (out ++ back)).drop (UInt64.ofNat front.length).toNat = out ++ back := by
      rw [hnat _ (by omega), List.drop_left]
    have hbody : (front ++ (out ++ back)).drop
        (UInt64.ofNat front.length + UInt64.ofNat headerBytes).toNat =
          (out ++ back).drop headerBytes := by
      rw [← UInt64.ofNat_add, hnat _ (by omega), hdrop]
    have hend : UInt64.ofNat (front.length + (headerBytes + varintLength)) +
        UInt64.ofNat data.length = UInt64.ofNat (front ++ out).length := by
      rw [← UInt64.ofNat_add, List.length_append, hlength, Nat.add_assoc]
    have hstart : UInt64.ofNat front.length + UInt64.ofNat headerBytes + UInt64.ofNat varintLength =
        UInt64.ofNat (front.length + (headerBytes + varintLength)) := by
      rw [← UInt64.ofNat_add, ← UInt64.ofNat_add, Nat.add_assoc]
    rw [payloadLoop, if_neg (by rw [hnat _ (by omega), htotal]; omega), hhead, hdecode]
    simp only [ne_eq, not_true_eq_false, if_false, hbody, hvarint, hstart, hend]
    rw [if_neg]
    rw [hnat _ (by rw [List.length_append]), htotal, List.length_append]
    omega

theorem payloadLoop_encoded {pb : Protobuf} (hlawful : pb.Lawful) {fieldNo maxOut : Nat}
    {front data out back : Bytes} (hfield : fieldNo = 1 ∨ fieldNo = 2)
    (hencode : payloadField pb fieldNo data maxOut = some out)
    (hsmall : (front ++ (out ++ back)).length < 2 ^ 64) (fuel : Nat) (hfuel : out.length ≤ fuel)
    (fields : Fields) :
    ∃ fields' fuel', payloadLoop pb (front ++ (out ++ back)) fuel (UInt64.ofNat front.length) fields =
        payloadLoop pb (front ++ (out ++ back)) fuel' (UInt64.ofNat (front ++ out).length) fields' ∧
      fuel ≤ fuel' + out.length ∧
      ((data = [] ∧ fields' = fields) ∨ ∃ slice, slice.of (front ++ (out ++ back)) = data ∧
        fields' = fields.set fieldNo slice) := by
  rw [payloadField] at hencode
  split at hencode
  · rename_i hempty
    cases hencode
    exact ⟨fields, fuel, by rw [List.append_nil], by simp,
      Or.inl ⟨List.eq_nil_of_length_eq_zero hempty, rfl⟩⟩
  · rename_i hdata
    obtain ⟨headerBytes, varintLength, hpos, hlength, -⟩ :=
      hlawful.decodes fieldNo data maxOut out (by omega) (by omega) hencode
    obtain ⟨fuel, rfl⟩ : ∃ n, fuel = n + 1 := ⟨fuel - 1, by omega⟩
    obtain ⟨slice, hslice, hloop⟩ := payloadLoop_field hlawful hfield hencode hsmall fuel fields
    exact ⟨_, fuel, hloop, by omega, Or.inr ⟨slice, hslice, rfl⟩⟩

theorem payloadField_length {pb : Protobuf} (hlawful : pb.Lawful) {fieldNo maxOut : Nat}
    {data out : Bytes} (hencode : payloadField pb fieldNo data maxOut = some out) :
    out.length ≤ maxOut := by
  rw [payloadField] at hencode
  split at hencode
  · cases hencode
    exact Nat.zero_le _
  · exact hlawful.fits _ _ _ _ hencode

theorem payloadEncode_length {pb : Protobuf} (hlawful : pb.Lawful) {key sig payload : Bytes}
    {maxOut : Nat} (hencode : payloadEncode pb key sig maxOut = some payload) :
    payload.length ≤ maxOut := by
  obtain ⟨keyField, hkey, hencode⟩ := Option.bind_eq_some_iff.mp hencode
  obtain ⟨sigField, hsig, hencode⟩ := Option.bind_eq_some_iff.mp hencode
  obtain rfl : keyField ++ sigField = payload := Option.some.inj hencode
  have hkeyLength := payloadField_length hlawful hkey
  have hsigLength := payloadField_length hlawful hsig
  rw [List.length_append]
  omega

/-- The key that the pointer and the length stand for; a NULL has no bytes. -/
def Fields.keyBytes (fields : Fields) (input : Bytes) : Bytes :=
  (fields.key.map fun slice => slice.of input).getD []

def Fields.sigBytes (fields : Fields) (input : Bytes) : Bytes :=
  (fields.sig.map fun slice => slice.of input).getD []

theorem payloadDecode_encode {pb : Protobuf} (hlawful : pb.Lawful) {key sig payload : Bytes}
    {maxOut : Nat} (hencode : payloadEncode pb key sig maxOut = some payload)
    (hsmall : payload.length < 2 ^ 64) :
    ∃ fields, payloadDecode pb payload = .fields fields ∧ fields.keyBytes payload = key ∧
      fields.sigBytes payload = sig := by
  obtain ⟨keyField, hkey, hencode⟩ := Option.bind_eq_some_iff.mp hencode
  obtain ⟨sigField, hsig, hencode⟩ := Option.bind_eq_some_iff.mp hencode
  obtain rfl : keyField ++ sigField = payload := Option.some.inj hencode
  have hlength : (keyField ++ sigField).length = keyField.length + sigField.length :=
    List.length_append
  obtain ⟨fields₁, fuel₁, hloop₁, hfuel₁, hfields₁⟩ :=
    payloadLoop_encoded hlawful (Or.inl rfl) hkey (show ([] ++ (keyField ++ sigField)).length < _ from
      hsmall) ((keyField ++ sigField).length + 1) (by omega) ⟨none, none⟩
  have hsmall₂ : (keyField ++ (sigField ++ [])).length < 2 ^ 64 := by
    rw [List.append_nil]
    exact hsmall
  obtain ⟨fields₂, fuel₂, hloop₂, hfuel₂, hfields₂⟩ :=
    payloadLoop_encoded hlawful (Or.inr rfl) hsig hsmall₂ fuel₁ (by omega) fields₁
  rw [List.append_nil] at hloop₂ hfields₂
  have hend : payloadLoop pb (keyField ++ sigField) fuel₂
      (UInt64.ofNat (keyField ++ sigField).length) fields₂ = .fields fields₂ := by
    obtain ⟨fuel, rfl⟩ : ∃ n, fuel₂ = n + 1 := ⟨fuel₂ - 1, by omega⟩
    rw [payloadLoop, if_pos]
    rw [UInt64.toNat_ofNat', Nat.mod_eq_of_lt hsmall]
  refine ⟨fields₂, hloop₁.trans (hloop₂.trans hend), ?_⟩
  have hfirst : fields₁.keyBytes (keyField ++ sigField) = key ∧ fields₁.sig = none := by
    rcases hfields₁ with ⟨rfl, rfl⟩ | ⟨slice₁, hslice₁, rfl⟩
    · exact ⟨rfl, rfl⟩
    · exact ⟨hslice₁, rfl⟩
  rcases hfields₂ with ⟨rfl, rfl⟩ | ⟨slice₂, hslice₂, rfl⟩
  · refine ⟨hfirst.1, ?_⟩
    rw [Fields.sigBytes, hfirst.2]
    rfl
  · exact ⟨hfirst.1, hslice₂⟩

/-- A payload of the callbacks fits, decodes, and has the key and the signature of the callbacks. -/
theorem identityPayload_decodes {pb : Protobuf} (hlawful : pb.Lawful) (callbacks : Callbacks)
    (sPublic : Bytes) :
    (identityPayload pb callbacks sPublic).length ≤ maxIdentityPayload ∧
      ∃ fields, payloadDecode pb (identityPayload pb callbacks sPublic) = .fields fields ∧
        ∀ key sig, fields = ⟨some key, some sig⟩ → ∃ identityKey sign identitySig,
          callbacks.getIdentityKey = some (some identityKey) ∧ callbacks.sign = some sign ∧
          sign sPublic = some identitySig ∧
          key.of (identityPayload pb callbacks sPublic) = identityKey ∧
          sig.of (identityPayload pb callbacks sPublic) = identitySig := by
  have hnothing : ([] : Bytes).length ≤ maxIdentityPayload ∧
      ∃ fields, payloadDecode pb [] = .fields fields ∧
        ∀ key sig, fields = ⟨some key, some sig⟩ → ∃ identityKey sign identitySig,
          callbacks.getIdentityKey = some (some identityKey) ∧ callbacks.sign = some sign ∧
          sign sPublic = some identitySig ∧ key.of [] = identityKey ∧ sig.of [] = identitySig :=
    ⟨Nat.zero_le _, ⟨none, none⟩, rfl, fun key sig hfields => by cases hfields⟩
  rw [identityPayload]
  split
  · rename_i identityKey sign hkey hsign
    split
    · rename_i identitySig hsig
      cases hencode : payloadEncode pb identityKey identitySig maxIdentityPayload with
      | none => exact hnothing
      | some payload =>
          rw [Option.getD_some]
          have hlength := payloadEncode_length hlawful hencode
          obtain ⟨fields, hdecode, hkeyOf, hsigOf⟩ :=
            payloadDecode_encode hlawful hencode (by rw [maxIdentityPayload] at hlength; omega)
          refine ⟨hlength, fields, hdecode, fun key sig hfields => ?_⟩
          subst hfields
          exact ⟨identityKey, sign, identitySig, hkey, hsign, hsig, hkeyOf, hsigOf⟩
    · exact hnothing
  · exact hnothing

/-! ### Over the channel -/

/-- The peer's `verify` accepts what the callbacks of the other side give for its static key. -/
def Accepts (answer : VerifyCall → Bool) (callbacks : Callbacks) (sPublic : Bytes) : Prop :=
  ∀ identityKey sign identitySig, callbacks.getIdentityKey = some (some identityKey) →
    callbacks.sign = some sign → sign sPublic = some identitySig →
    ∀ call : VerifyCall, call.key.of call.payload = identityKey →
      call.sig.of call.payload = identitySig → call.staticKey = sPublic → answer call = true

section

variable {α β : Type} {answerLeft answerRight : VerifyCall → Bool} {good : α → β → Prop}

theorem acts_readFrame {answer : VerifyCall → Bool} {length maxLength : Nat}
    {g : Option Bytes → Code β} (hmax : length ≤ maxLength) (hfits : length < 65536)
    {rest inbox out : Bytes} {q : Code β}
    (hacts : Acts 2 answer (readFrame maxLength >>= g) (frameHeader length ++ rest) q inbox out) :
    q = readExactly length >>= g ∧ inbox = rest ∧ out = [] := by
  have hread : readFrame maxLength >>= g = .read 2 fun header =>
      (if header.length ≠ 2 then pure none
        else if maxLength < frameLength header then pure none
        else readExactly (frameLength header)) >>= g := rfl
  have htwo : (frameHeader length).length = 2 := rfl
  rw [hread] at hacts
  cases hacts with
  | read hpos hbound hall =>
      rename_i n
      rw [List.length_append, htwo] at hbound hall
      obtain rfl : n = 2 := by omega
      rw [List.take_left' htwo, List.drop_left' htwo]
      refine ⟨?_, rfl, rfl⟩
      dsimp only
      rw [frameLength_frameHeader hfits, if_neg (not_not.mpr htwo), if_neg (by omega)]

theorem acts_readFrame_header {answer : VerifyCall → Bool} {length maxLength : Nat}
    {g : Option Bytes → Code β} (hmax : length ≤ maxLength) (hfits : length < 65536) (rest : Bytes) :
    Acts 2 answer (readFrame maxLength >>= g) (frameHeader length ++ rest)
      (readExactly length >>= g) rest [] := by
  have hacts : Acts 2 answer (readFrame maxLength >>= g) (frameHeader length ++ rest) _ _ _ :=
    .read (n := 2) (by omega) (by simp [frameHeader, be16]) (Or.inl (by simp [frameHeader, be16]))
  obtain ⟨hq, hinbox, -⟩ := acts_readFrame hmax hfits hacts
  rwa [hq, hinbox] at hacts

theorem ends_frame {data : Bytes} {maxLength : Nat} {f : Bool → Code α} {g : Option Bytes → Code β}
    (hpos : 0 < data.length) (hmax : data.length ≤ maxLength) (hfits : maxLength < 65536)
    (hidle : Idle (f true) [])
    (hends : Net.Ends 2 answerLeft answerRight good ⟨f true, g (some data), [], []⟩) :
    Net.Ends 2 answerLeft answerRight good
      ⟨writeFrame data >>= f, readFrame maxLength >>= g, [], []⟩ := by
  have hsmall : data.length < 65536 := by omega
  have hbody : Net.Ends 2 answerLeft answerRight good
      ⟨f true, readExactly data.length >>= g, [], data⟩ := by
    refine .of_swap (.left_readLoop data.length hidle le_rfl le_rfl ?_)
    rw [List.nil_append, List.take_length, List.drop_length]
    exact .of_swap hends
  have hwaits : Idle (readExactly data.length >>= g) [] := by
    obtain ⟨n, hn⟩ : ∃ n, data.length = n + 1 := ⟨data.length - 1, by omega⟩
    rw [hn]
    exact Or.inr ⟨_, _, rfl, rfl⟩
  have hsent : f (decide ((data.length : Int) = data.length)) = f true := by
    rw [decide_eq_true rfl]
  refine .left_write (Or.inr ⟨_, _, rfl, rfl⟩) ?_
  change Net.Ends 2 answerLeft answerRight good
    ⟨.write data fun ret => f (decide (ret = data.length)), readFrame maxLength >>= g, [],
      frameHeader data.length⟩
  -- the peer can read the header before or after the body goes out
  refine .step ⟨_, .left .write⟩ fun net' hstep => ?_
  cases hstep with
  | left hacts =>
      cases hacts with
      | write =>
          beta_reduce
          rw [hsent]
          refine .of_swap (.left hidle ⟨_, _, _, acts_readFrame_header hmax hsmall data⟩ ?_)
          intro q inbox out hacts
          obtain ⟨rfl, rfl, rfl⟩ := acts_readFrame hmax hsmall hacts
          exact .of_swap hbody
  | right hacts =>
      rw [← List.append_nil (frameHeader data.length)] at hacts
      obtain ⟨rfl, rfl, rfl⟩ := acts_readFrame hmax hsmall hacts
      refine .left_write hwaits ?_
      rw [hsent]
      exact hbody

theorem ends_takePayload {prims : Primitives} {pb : Protobuf} (hlawful : pb.Lawful)
    {ours theirs : Callbacks} {sPublic frame : Bytes} {sym sym' : Symmetric}
    {next : Option (Option Bytes × Symmetric) → Code α} {q : Code β}
    (haccepts : Accepts answerLeft theirs sPublic)
    (hlength : frame.length = (identityPayload pb theirs sPublic).length + tagLength)
    (hdecrypt : decryptAndHash prims sym frame = some (identityPayload pb theirs sPublic, sym'))
    (hidle : Idle q [])
    (hends : Net.Ends 2 answerLeft answerRight good
      ⟨next (some (some (identityPayload pb theirs sPublic), sym')), q, [], []⟩) :
    Net.Ends 2 answerLeft answerRight good
      ⟨takePayload prims pb ours sym sPublic frame >>= next, q, [], []⟩ := by
  obtain ⟨hfits, fields, hdecode, hfields⟩ := identityPayload_decodes hlawful theirs sPublic
  have hmax : ¬ tagLength + maxRemotePayload < frame.length := by
    rw [maxIdentityPayload] at hfits
    rw [hlength, tagLength, maxRemotePayload]
    omega
  rw [takePayload, if_neg hmax, if_pos (by omega), hdecrypt]
  dsimp only
  rw [checkIdentity]
  split
  · rw [hdecode]
    rcases fields with ⟨key | key, sig | sig⟩
    · exact hends
    · exact hends
    · exact hends
    · obtain ⟨identityKey, sign, identitySig, hkey, hsign, hsig, hkeyOf, hsigOf⟩ :=
        hfields key sig rfl
      refine .left_ask hidle ?_
      have hanswer := haccepts identityKey sign identitySig hkey hsign hsig
        ⟨identityPayload pb theirs sPublic, key, sig, sPublic⟩ hkeyOf hsigOf rfl
      rw [hanswer]
      exact hends
  · exact hends

end

/-! ### Agreement -/

/-- Both sides are established, each with the static key and the payload of the other, with the same
transcript hash and chaining key, and with crossed stream keys. -/
def Agree (prims : Primitives) (pb : Protobuf) (callbacksI callbacksR : Callbacks)
    (staticI staticR : Bytes) (resultI resultR : Option Established) : Prop :=
  ∃ initiator responder, resultI = some initiator ∧ resultR = some responder ∧
    initiator.remoteStatic = prims.x25519Public staticR ∧
    responder.remoteStatic = prims.x25519Public staticI ∧
    initiator.remotePayload = some (identityPayload pb callbacksR (prims.x25519Public staticR)) ∧
    responder.remotePayload = some (identityPayload pb callbacksI (prims.x25519Public staticI)) ∧
    initiator.h = responder.h ∧ initiator.ck = responder.ck ∧
    initiator.stream.writeKey = responder.stream.readKey ∧
    initiator.stream.readKey = responder.stream.writeKey

/-- **Every run of the two roles over a FIFO channel ends in agreement.** -/
theorem handshakes_agree {prims : Primitives} {pb : Protobuf} (hprims : prims.Lawful)
    (hpb : pb.Lawful) (callbacksI callbacksR : Callbacks)
    (ephemeralI staticI ephemeralR staticR : Bytes) {verifyI verifyR : VerifyCall → Bool}
    (hacceptsI : Accepts verifyI callbacksR (prims.x25519Public staticR))
    (hacceptsR : Accepts verifyR callbacksI (prims.x25519Public staticI)) :
    Net.Ends 2 verifyI verifyR (Agree prims pb callbacksI callbacksR staticI staticR)
      ⟨handshakeInitiator prims pb callbacksI ⟨some ephemeralI, some staticI⟩,
        handshakeResponder prims pb callbacksR ⟨some ephemeralR, some staticR⟩, [], []⟩ := by
  have hpublic := hprims.publicLength ephemeralI
  have hdh : dhLength = 32 := rfl
  have htag : tagLength = 16 := rfl
  have hstatic : encryptedStaticLength = 48 := rfl
  have hmaxMessage : maxMessage = 4096 := rfl
  have hmaxPayload : maxIdentityPayload = 1024 := rfl
  obtain ⟨hfitsI, -⟩ := identityPayload_decodes hpb callbacksI (prims.x25519Public staticI)
  obtain ⟨hfitsR, -⟩ := identityPayload_decodes hpb callbacksR (prims.x25519Public staticR)
  obtain ⟨messageR, symR, symKeys, hmessageR, hlengthR, hkeysR, hpartR, hpayloadR⟩ :=
    responderMessage_read pb callbacksR hprims ephemeralR ephemeralI staticR
      (afterFirstMessage prims (prims.x25519Public ephemeralI))
  obtain ⟨messageI, symI, symKey, hmessageI, hlengthI, hkeyI, hpartI, hpayloadI⟩ :=
    initiatorMessage_read pb callbacksI hprims staticI ephemeralR symR
  rw [handshakeInitiator, handshakeResponder]
  -- the initiator's ephemeral key
  refine ends_frame (by omega) (by omega) (by decide) (Or.inr ⟨_, _, rfl, rfl⟩) ?_
  rw [Bool.not_true, if_neg Bool.false_ne_true]
  dsimp only
  rw [if_neg (not_not.mpr hpublic), hmessageR]
  -- the responder's message
  refine .of_swap (ends_frame (by omega) (by omega) (by decide) (Or.inr ⟨_, _, rfl, rfl⟩)
    (.of_swap ?_))
  rw [Bool.not_true, if_neg Bool.false_ne_true]
  dsimp only
  rw [hkeysR]
  refine ends_takePayload hpb hacceptsI hpartR hpayloadR (Or.inr ⟨_, _, rfl, rfl⟩) ?_
  dsimp only
  rw [hmessageI]
  -- the initiator's last message
  refine ends_frame (by omega) (by omega) (by decide) (Or.inl ⟨_, rfl⟩) ?_
  rw [Bool.not_true, if_neg Bool.false_ne_true]
  dsimp only
  rw [hkeyI]
  refine .of_swap (ends_takePayload hpb hacceptsR hpartI hpayloadI (Or.inl ⟨_, rfl⟩) ?_)
  exact .done ⟨_, _, rfl, rfl, rfl, rfl, rfl, rfl, rfl, rfl, rfl, rfl⟩

theorem plain_lawful : Primitives.plain.Lawful where
  publicLength privateKey := by
    simp [Primitives.plain, dhLength]
  commutes ours theirs := by
    refine ⟨_, rfl, ?_⟩
    simp only [Primitives.plain]
    rw [UInt8.add_comm]
  seals _ _ _ plaintext := ⟨plaintext ++ List.replicate 16 0, rfl⟩
  opens := plain_opensSealed

theorem handshakes_agree_signed :
    Net.Ends 2
      (fun call => decide (call.key.of call.payload = [7] ∧
        call.sig.of call.payload = call.staticKey.take 1))
      (fun call => decide (call.key.of call.payload = [8] ∧
        call.sig.of call.payload = call.staticKey.take 2))
      (Agree Primitives.plain Protobuf.varints
        ⟨some (some [8]), some fun staticKey => some (staticKey.take 2), true⟩
        ⟨some (some [7]), some fun staticKey => some (staticKey.take 1), true⟩ [2] [4])
      ⟨handshakeInitiator Primitives.plain Protobuf.varints
          ⟨some (some [8]), some fun staticKey => some (staticKey.take 2), true⟩ ⟨some [1], some [2]⟩,
        handshakeResponder Primitives.plain Protobuf.varints
          ⟨some (some [7]), some fun staticKey => some (staticKey.take 1), true⟩ ⟨some [3], some [4]⟩,
        [], []⟩ := by
  refine handshakes_agree plain_lawful varints_lawful _ _ [1] [2] [3] [4] ?_ ?_
  · rintro _ _ _ ⟨⟩ ⟨⟩ ⟨⟩ call hkey hsig hstatic
    exact decide_eq_true ⟨hkey, hstatic ▸ hsig⟩
  · rintro _ _ _ ⟨⟩ ⟨⟩ ⟨⟩ call hkey hsig hstatic
    exact decide_eq_true ⟨hkey, hstatic ▸ hsig⟩

end CLibp2p.Noise
