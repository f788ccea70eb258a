import CLibp2p.Stream.Loop
import CLibp2p.Secio.Handshake
import CLibp2p.Proof.SecioMessages
import CLibp2p.Proof.SecioNegotiate

/-!
# Two secio peers agree

Both sides run the same code, so everything rests on what one of them does under the opposite order. A
run that succeeds has sent its proposal and its exchange first and has taken the first two messages
that came in; over a FIFO stream these are the two messages of the other side.
-/

namespace CLibp2p.Secio

open Duplex Duplex.Prog

/-- What the handshake relies on in mbedTLS: a digest has 32 bytes, Diffie-Hellman agrees, a public key
starts with the length of its point, and a signature fits an address space with room to spare. -/
structure Primitives.Lawful (prims : Primitives) : Prop where
  digestLength : ∀ data, (prims.sha256 data).length = 32
  agrees : ∀ curve ours theirs publicOurs publicTheirs,
    prims.ecdhMakePublic curve ours = some publicOurs →
    prims.ecdhMakePublic curve theirs = some publicTheirs →
    prims.ecdhCalcSecret curve ours publicTheirs = prims.ecdhCalcSecret curve theirs publicOurs
  framed : ∀ curve secret publicBytes, prims.ecdhMakePublic curve secret = some publicBytes →
    ∃ point, publicBytes = UInt8.ofNat point.length :: point ∧ point.length < 256
  signatureLength : ∀ privateKey data signature, prims.rsaSign privateKey data = some signature →
    signature.length < 2 ^ 63

/-! ### Runs -/

theorem run_unencryptedWrite {data : Bytes} {w w' : Wire} {written : Nat} (hpos : 0 < data.length)
    (hrun : (unencryptedWrite data).run w = (written, w')) (hwritten : written = data.length) :
    w'.sent = w.sent ++ [[data]] ∧ w'.inbound = w.inbound := by
  rw [unencryptedWrite, if_neg (by omega)] at hrun
  obtain ⟨ret, w₁, hsend, hrun⟩ := run_bind_eq hrun
  have hret : (if ret = 1 then data.length else 0) = written := congrArg Prod.fst hrun
  obtain rfl : w₁ = w' := congrArg Prod.snd hrun
  obtain ⟨chunk, hchunk, hsent, hcases⟩ := w.write_cases [data]
  rw [run_send] at hsend
  rw [hsend] at hsent hcases
  have hinbound : w₁.inbound = w.inbound := congrArg (fun result => result.2.inbound) hsend.symm
  refine ⟨?_, hinbound⟩
  have hone : ret = 1 := by
    by_contra hshort
    rw [if_neg hshort] at hret
    omega
  have hlength : chunk.length = 1 := by
    dsimp only at hcases
    omega
  obtain rfl : chunk = [data] := hchunk.eq_of_length hlength
  exact hsent

theorem run_unencryptedRead {message : Bytes} {w w' : Wire}
    (hrun : unencryptedRead.run w = (some message, w')) :
    w.inbound = message :: w'.inbound ∧ w'.sent = w.sent := by
  obtain ⟨chunk, w₁, hrecv, hrun⟩ := run_bind_eq hrun
  split at hrun
  · rename_i first
    split at hrun
    · cases hrun
    · cases hrun
      rw [run_recv] at hrecv
      obtain ⟨hempty, -⟩ | ⟨n, hpos, hle, hchunk, htook⟩ := w.read_cases 1
      · rw [hrecv] at hempty
        cases hempty
      · rw [hrecv] at hchunk htook
        obtain rfl : n = 1 := by omega
        refine ⟨?_, htook.sent⟩
        have hfirst : [message] = w.inbound.take 1 := hchunk
        rw [htook.inbound, ← List.singleton_append, hfirst, List.take_append_drop]
  · cases hrun

section

variable {prims : Primitives} {pb : Protobuf} {host : Host}

/-- The proposal of this side went out, and one of the peer came in with a nonce and a key. -/
structure Offers (pb : Protobuf) (host : Host) (w w' : Wire) (proposed : Proposed) : Prop where
  encoded : proposeEncode pb host.propose = some proposed.outBytes
  crossed : ∃ w₁, (unencryptedWrite proposed.outBytes).run w = (proposed.outBytes.length, w₁) ∧
    unencryptedRead.run w₁ = (some proposed.inBytes, w')
  decoded : proposeDecode pb proposed.inBytes (host.behind proposed.inBytes) = some proposed.proposeIn
  nonce : proposed.proposeIn.rand.length = nonceSize
  key : publicKeyDecode pb proposed.proposeIn.publicKey
    (host.behind proposed.proposeIn.publicKey) = some proposed.publicKey

theorem run_exchangeProposals_iff {w w' : Wire} {proposed : Proposed} :
    (exchangeProposals pb host).run w = (.exchanged proposed, w') ↔ Offers pb host w w' proposed := by
  constructor
  · intro hrun
    rw [exchangeProposals] at hrun
    split at hrun
    · cases hrun
    rename_i outBytes hencode
    obtain ⟨written, w₁, hwrite, hrun⟩ := run_bind_eq hrun
    split at hrun
    · cases hrun
    rename_i hwritten
    obtain ⟨got, w₂, hread, hrun⟩ := run_bind_eq hrun
    split at hrun
    · cases hrun
    split at hrun
    · cases hrun
    rename_i hdecode
    split at hrun
    · cases hrun
    rename_i hnonce
    split at hrun
    · cases hrun
    rename_i hkey
    cases hrun
    exact ⟨hencode, ⟨w₁, by rw [hwrite, not_not.mp hwritten], hread⟩, hdecode, not_not.mp hnonce,
      hkey⟩
  · intro hoffers
    obtain ⟨w₁, hwrite, hread⟩ := hoffers.crossed
    rw [exchangeProposals, hoffers.encoded]
    dsimp only
    rw [run_bind, hwrite]
    dsimp only
    rw [if_neg (not_not.mpr rfl), run_bind, hread]
    dsimp only
    rw [hoffers.decoded]
    dsimp only
    rw [if_neg (not_not.mpr hoffers.nonce), hoffers.key]
    rfl

theorem run_exchangeProposals (hpb : pb.Lawful) {w w' : Wire} {proposed : Proposed}
    (hrun : (exchangeProposals pb host).run w = (.exchanged proposed, w')) :
    proposeEncode pb host.propose = some proposed.outBytes ∧
      proposeDecode pb proposed.inBytes (host.behind proposed.inBytes) = some proposed.proposeIn ∧
      w'.sent = w.sent ++ [[proposed.outBytes]] ∧ w.inbound = proposed.inBytes :: w'.inbound := by
  have hoffers := run_exchangeProposals_iff.mp hrun
  obtain ⟨w₁, hwrite, hread⟩ := hoffers.crossed
  obtain ⟨hsent, hinbound⟩ := run_unencryptedWrite
    (proposeEncode_length_pos hpb hoffers.encoded) hwrite rfl
  obtain ⟨hinbound', hsent'⟩ := run_unencryptedRead hread
  exact ⟨hoffers.encoded, hoffers.decoded, by rw [hsent', hsent], by rw [← hinbound, hinbound']⟩

/-- The three names are chosen and the exchange of this side went out. -/
structure Sends (prims : Primitives) (pb : Protobuf) (host : Host) (proposed : Proposed) (w w' : Wire)
    (curve cipher hash signed : Bytes) : Prop where
  chosen : chosen (chooseAll (determineOrder prims proposed.proposeIn host.propose) host.propose
    proposed.proposeIn) = some (curve, cipher, hash)
  sent : ∃ publicBytes, prims.ecdhMakePublic curve host.ephemeral = some publicBytes ∧
    signed = proposed.outBytes ++ proposed.inBytes ++ publicBytes.drop 1 ∧
    ∃ exchangeOut, exchangeOut = exchangeEncode pb (exchangeBuild prims host publicBytes signed) ∧
      (unencryptedWrite exchangeOut).run w = (exchangeOut.length, w')

theorem run_sendExchange_iff {w w' : Wire} {proposed : Proposed} {curve signed : Bytes} :
    (sendExchange prims pb host proposed curve).run w = (some signed, w') ↔
      ∃ publicBytes, prims.ecdhMakePublic curve host.ephemeral = some publicBytes ∧
        signed = proposed.outBytes ++ proposed.inBytes ++ publicBytes.drop 1 ∧
        ∃ exchangeOut, exchangeOut = exchangeEncode pb (exchangeBuild prims host publicBytes signed) ∧
          (unencryptedWrite exchangeOut).run w = (exchangeOut.length, w') := by
  constructor
  · intro hrun
    rw [sendExchange] at hrun
    split at hrun
    · cases hrun
    rename_i publicBytes hmade
    obtain ⟨written, w₁, hwrite, hrun⟩ := run_bind_eq hrun
    split at hrun
    · rename_i hwritten
      cases hrun
      exact ⟨publicBytes, hmade, rfl, _, rfl, by rw [hwrite, hwritten]⟩
    · cases hrun
  · rintro ⟨publicBytes, hmade, rfl, exchangeOut, rfl, hwrite⟩
    rw [sendExchange, hmade]
    dsimp only
    rw [run_bind, hwrite]
    dsimp only
    rw [if_pos rfl]
    rfl

theorem Sends.unique {proposed : Proposed} {w w₁ w₂ : Wire}
    {curve cipher hash signed curve' cipher' hash' signed' : Bytes}
    (hsends : Sends prims pb host proposed w w₁ curve cipher hash signed)
    (hsends' : Sends prims pb host proposed w w₂ curve' cipher' hash' signed') :
    w₂ = w₁ ∧ curve' = curve ∧ cipher' = cipher ∧ hash' = hash ∧ signed' = signed := by
  have hchosen := Option.some.inj (hsends'.chosen.symm.trans hsends.chosen)
  cases hchosen
  have hrun := run_sendExchange_iff.mpr hsends.sent
  have hrun' := run_sendExchange_iff.mpr hsends'.sent
  cases hrun'.symm.trans hrun
  exact ⟨rfl, rfl, rfl, rfl, rfl⟩

theorem chosen_of_crashes {choices : Choice × Choice × Choice} (hcrashes : crashes choices = true) :
    chosen choices = none := by
  obtain ⟨first, second, third⟩ := choices
  cases first <;> cases second <;> cases third <;> first | rfl | cases hcrashes

/-- Where the rest of the handshake ends. -/
theorem run_negotiate {w w' : Wire} {proposed : Proposed} {ending : Ending}
    (hrun : (negotiate prims pb host proposed).run w = (ending, w')) :
    (∃ outcome, ending = .early outcome ∧ outcome.result = none ∧
      ∀ {curve cipher hash signed : Bytes} {w₁ : Wire},
        ¬Sends prims pb host proposed w w₁ curve cipher hash signed) ∨
    ∃ curve cipher hash signed w₁, Sends prims pb host proposed w w₁ curve cipher hash signed ∧
      ((∃ w₂, unencryptedRead.run w₁ = (none, w₂) ∧ ending = .unheard) ∨
        ∃ message w₂ outcome, unencryptedRead.run w₁ = (some message, w₂) ∧
          receiveExchange prims pb host proposed (determineOrder prims proposed.proposeIn host.propose)
            curve cipher hash signed message = outcome ∧
          ((outcome.result = none ∧ ending = .early outcome) ∨
            ∃ established confirmed, outcome = .agreed established ∧ ending = .stretched confirmed ∧
              (confirm prims host proposed.proposeIn.rand established).run w₂ = (confirmed, w'))) := by
  rw [negotiate] at hrun
  split at hrun
  · rename_i hcrashes
    cases hrun
    refine Or.inl ⟨.crashed, rfl, rfl, fun hsends => ?_⟩
    have hchosen := hsends.chosen
    rw [chosen_of_crashes hcrashes] at hchosen
    cases hchosen
  split at hrun
  · rename_i hchosen
    cases hrun
    refine Or.inl ⟨.failed, rfl, rfl, fun hsends => ?_⟩
    rw [hsends.chosen] at hchosen
    cases hchosen
  rename_i curve cipher hash hchosen
  obtain ⟨got, w₁, hsend, hrun⟩ := run_bind_eq hrun
  cases got with
  | none =>
      cases hrun
      refine Or.inl ⟨.failed, rfl, rfl, fun hsends => ?_⟩
      have hnames := Option.some.inj (hsends.chosen.symm.trans hchosen)
      cases hnames
      have hsent := run_sendExchange_iff.mpr hsends.sent
      rw [hsend] at hsent
      cases hsent
  | some signed =>
      refine Or.inr ⟨curve, cipher, hash, signed, w₁, ⟨hchosen, run_sendExchange_iff.mp hsend⟩, ?_⟩
      obtain ⟨got, w₂, hread, hrun⟩ := run_bind_eq hrun
      cases got with
      | none =>
          cases hrun
          exact Or.inl ⟨_, hread, rfl⟩
      | some message =>
          refine Or.inr ⟨message, w₂, _, hread, rfl, ?_⟩
          dsimp only at hrun
          cases hreceive : receiveExchange prims pb host proposed
              (determineOrder prims proposed.proposeIn host.propose) curve cipher hash signed message with
          | agreed established =>
              rw [hreceive] at hrun
              obtain ⟨confirmed, w₃, hconfirm, hrun⟩ := run_bind_eq hrun
              cases hrun
              exact Or.inr ⟨established, confirmed, rfl, rfl, hconfirm⟩
          | failed =>
              rw [hreceive] at hrun
              cases hrun
              exact Or.inl ⟨rfl, rfl⟩
          | crashed =>
              rw [hreceive] at hrun
              cases hrun
              exact Or.inl ⟨rfl, rfl⟩

/-- Confirmed is what was established. -/
theorem run_confirm_agreed {w w' : Wire} {remoteNonce : Bytes} {established established' : Established}
    {outcome : Outcome} (hrun : (confirm prims host remoteNonce established).run w = (outcome, w'))
    (hagreed : outcome.result = some established') : established' = established := by
  rw [confirm] at hrun
  split at hrun
  · cases hrun
    cases hagreed
  obtain ⟨written, w₁, hwrite, hrun⟩ := run_bind_eq hrun
  split at hrun
  · cases hrun
    cases hagreed
  obtain ⟨got, w₂, hread, hrun⟩ := run_bind_eq hrun
  split at hrun
  · cases hrun
    cases hagreed
  cases hrun
  rw [receiveNonce] at hagreed
  split at hagreed
  · cases hagreed
  split at hagreed
  · cases hagreed
  split at hagreed
  · exact (Option.some.inj hagreed).symm
  · cases hagreed

/-- What a run that gets to the stretched keys has seen. -/
structure Transcript where
  outBytes : Bytes
  inBytes : Bytes
  proposeIn : Propose
  publicBytes : Bytes
  exchangeIn : Exchange
  sharedKey : Bytes
  k1 : StretchedKey
  k2 : StretchedKey

def Transcript.exchangeOut (seen : Transcript) (prims : Primitives) (host : Host) : Exchange :=
  exchangeBuild prims host seen.publicBytes (seen.outBytes ++ seen.inBytes ++ seen.publicBytes.drop 1)

/-- The part of the transcript after the proposals. -/
structure Transcript.Keyed (seen : Transcript) (prims : Primitives) (host : Host)
    (established : Established) : Prop where
  made : prims.ecdhMakePublic established.chosenCurve host.ephemeral = some seen.publicBytes
  signed : established.signed = seen.outBytes ++ seen.inBytes ++ seen.publicBytes.drop 1
  verified : established.verified = seen.inBytes ++ seen.outBytes ++ seen.exchangeIn.epubkey
  shared : prims.ecdhCalcSecret established.chosenCurve host.ephemeral
    (UInt8.ofNat seen.exchangeIn.epubkey.length :: seen.exchangeIn.epubkey) = some seen.sharedKey
  stretched : stretchKeys prims established.chosenCipher seen.sharedKey = some (seen.k1, seen.k2)
  localKey : established.localStretchedKey = makeMacAndCipher established.chosenHash
    (if 0 < established.order then seen.k1 else seen.k2)
  remoteKey : established.remoteStretchedKey = makeMacAndCipher established.chosenHash
    (if 0 < established.order then seen.k2 else seen.k1)

theorem exchangeBuild_fits (hprims : prims.Lawful) (host : Host) {curve secret publicBytes : Bytes}
    (hmade : prims.ecdhMakePublic curve secret = some publicBytes) (signed : Bytes) :
    encodeSize (exchangeBuild prims host publicBytes signed).fields < 2 ^ 64 := by
  obtain ⟨point, rfl, hpoint⟩ := hprims.framed curve secret publicBytes hmade
  have hsignature : ((prims.rsaSign host.privateKey signed).getD []).length < 2 ^ 63 := by
    cases hsign : prims.rsaSign host.privateKey signed with
    | none => exact Nat.two_pow_pos 63
    | some signature => exact hprims.signatureLength _ _ _ hsign
  simp only [exchangeBuild, Exchange.fields, encodeSize, maxFieldHeader, List.drop_succ_cons,
    List.drop_zero]
  omega

theorem keyed_of_receiveExchange (hprims : prims.Lawful) (hpb : pb.Lawful) {w w₁ w₂ : Wire}
    {proposed : Proposed} {order : Int} {curve cipher hash signed message : Bytes}
    {established : Established} (hsends : Sends prims pb host proposed w w₁ curve cipher hash signed)
    (hread : unencryptedRead.run w₁ = (some message, w₂))
    (hreceive : receiveExchange prims pb host proposed order curve cipher hash signed message =
      .agreed established) :
    ∃ seen : Transcript, seen.outBytes = proposed.outBytes ∧ seen.inBytes = proposed.inBytes ∧
      seen.proposeIn = proposed.proposeIn ∧ established.order = order ∧
      established.chosenCurve = curve ∧ established.chosenCipher = cipher ∧
      established.chosenHash = hash ∧ seen.Keyed prims host established ∧
      w₂.sent = w.sent ++ [[exchangeEncode pb (seen.exchangeOut prims host)]] ∧
      exchangeDecode pb message (host.behind message) = some seen.exchangeIn ∧
      w.inbound = message :: w₂.inbound := by
  obtain ⟨publicBytes, hmade, rfl, exchangeOut, rfl, hwrite⟩ := hsends.sent
  obtain ⟨hpos, -⟩ := exchangeDecode_encode hpb (exchangeBuild_fits hprims host hmade
    (proposed.outBytes ++ proposed.inBytes ++ publicBytes.drop 1)) []
  obtain ⟨hsent, hinbound⟩ := run_unencryptedWrite hpos hwrite rfl
  obtain ⟨hinbound', hsent'⟩ := run_unencryptedRead hread
  rw [receiveExchange] at hreceive
  split at hreceive
  · cases hreceive
  rename_i exchangeIn hdecode
  dsimp only at hreceive
  split at hreceive
  · cases hreceive
  split at hreceive
  · cases hreceive
  rename_i sharedKey hshared
  split at hreceive
  · cases hreceive
  rename_i k1 k2 hstretched
  split at hreceive
  · cases hreceive
    refine ⟨⟨proposed.outBytes, proposed.inBytes, proposed.proposeIn, publicBytes, exchangeIn,
      sharedKey, k1, k2⟩, rfl, rfl, rfl, rfl, rfl, rfl, rfl, ⟨hmade, rfl, rfl, hshared, hstretched,
      ?_, ?_⟩, ?_, hdecode, ?_⟩
    · split <;> rfl
    · split <;> rfl
    · rw [hsent', hsent]
      rfl
    · rw [← hinbound, hinbound']
  · cases hreceive

/-- **A successful run.** -/
structure Transcript.Of (seen : Transcript) (prims : Primitives) (pb : Protobuf) (host : Host)
    (established : Established) : Prop extends seen.Keyed prims host established where
  encoded : proposeEncode pb host.propose = some seen.outBytes
  decoded : proposeDecode pb seen.inBytes (host.behind seen.inBytes) = some seen.proposeIn
  order : established.order = determineOrder prims seen.proposeIn host.propose
  chosen : chosen (chooseAll established.order host.propose seen.proposeIn) =
    some (established.chosenCurve, established.chosenCipher, established.chosenHash)

theorem run_handshake (hprims : prims.Lawful) (hpb : pb.Lawful) {w w' : Wire}
    {established : Established}
    (hrun : (handshake prims pb host).run w = (some established, w')) :
    ∃ seen : Transcript, seen.Of prims pb host established ∧
      w.sent ++ [[seen.outBytes], [exchangeEncode pb (seen.exchangeOut prims host)]] <+: w'.sent ∧
      ∃ message rest, exchangeDecode pb message (host.behind message) = some seen.exchangeIn ∧
        w.inbound = seen.inBytes :: message :: rest := by
  obtain ⟨got, w₁, hproposals, hrun⟩ := run_bind_eq hrun
  cases got with
  | failed => cases hrun
  | crashed => cases hrun
  | exchanged proposed =>
      obtain ⟨hencoded, hdecoded, hsent, hinbound⟩ := run_exchangeProposals hpb hproposals
      obtain ⟨ending, w₂, hnegotiate, hrun⟩ := run_bind_eq hrun
      have hresult : ending.outcome.result = some established := congrArg Prod.fst hrun
      obtain rfl : w₂ = w' := congrArg Prod.snd hrun
      rcases run_negotiate hnegotiate with ⟨outcome, rfl, hnone, -⟩ |
        ⟨curve, cipher, hash, signed, w₃, hsends, ⟨w₄, -, rfl⟩ | ⟨message, w₄, outcome, hread, hreceive, hrest⟩⟩
      · rw [Ending.outcome, hnone] at hresult
        cases hresult
      · cases hresult
      rcases hrest with ⟨hnone, hearly⟩ | ⟨established', confirmed, rfl, rfl, hconfirm⟩
      · rw [hearly, Ending.outcome, hnone] at hresult
        cases hresult
      obtain rfl := run_confirm_agreed hconfirm hresult
      have hfront := sent_isPrefix_run (confirm prims host proposed.proposeIn.rand established) w₄
      rw [hconfirm] at hfront
      obtain ⟨seen, hout, hin, hpropose, horder, rfl, rfl, rfl, hkeyed, hsent', hdecode, hinbound'⟩ :=
        keyed_of_receiveExchange hprims hpb hsends hread hreceive
      have hchosen := hsends.chosen
      rw [← hout] at hencoded hsent
      rw [← hin] at hdecoded hinbound
      rw [← hpropose] at hdecoded hchosen horder
      refine ⟨seen, ⟨hkeyed, hencoded, hdecoded, horder, by rw [horder]; exact hchosen⟩, ?_, message,
        w₄.inbound, hdecode, by rw [hinbound, hinbound']⟩
      rw [hsent', hsent, List.append_assoc] at hfront
      exact hfront

end

/-! ### Both sides -/

section

variable {prims : Primitives} {pb : Protobuf}

/-- `a` and `b` reach the same choice on curve, cipher and hash, or both fail on it. -/
def Alike (prims : Primitives) (a b : Propose) : Prop :=
  ∀ list ∈ [Propose.exchanges, Propose.ciphers, Propose.hashes],
    (selectBest (determineOrder prims b a) (list a) (list b)).Agrees
      (selectBest (determineOrder prims a b) (list b) (list a))

/-- When both succeed, over streams that deliver what the other side sent, each verifies what the other
signed, and the local key of each is the remote key of the other. -/
def Crossed (prims : Primitives) (pb : Protobuf) (a b : Host) : Prop :=
  ∀ (inboundA inboundB : List Bytes) (grantsA grantsB : List Nat)
    (outcomesA outcomesB : List WriteOutcome) (establishedA establishedB : Established)
    (wA wB : Wire),
    (handshake prims pb a).run (.fresh inboundA grantsA outcomesA []) = (some establishedA, wA) →
    (handshake prims pb b).run (.fresh inboundB grantsB outcomesB []) = (some establishedB, wB) →
    inboundA <+: wB.outbound → inboundB <+: wA.outbound →
    establishedA.signed = establishedB.verified ∧ establishedB.signed = establishedA.verified ∧
      establishedA.localStretchedKey = establishedB.remoteStretchedKey ∧
      establishedA.remoteStretchedKey = establishedB.localStretchedKey

theorem determineOrder_ne_zero_iff (hprims : prims.Lawful) (a b : Propose) :
    determineOrder prims b a ≠ 0 ↔ hash prims b.publicKey a.rand ≠ hash prims a.publicKey b.rand := by
  rw [Ne, determineOrder, bytesCompare_eq_zero_iff]
  rw [hash, hash, hprims.digestLength, hprims.digestLength]

theorem selectBest_alike_iff (hprims : prims.Lawful) (a b : Propose) (listA listB : Bytes) :
    (selectBest (determineOrder prims b a) listA listB).Agrees
        (selectBest (determineOrder prims a b) listB listA) ↔
      hash prims b.publicKey a.rand ≠ hash prims a.publicKey b.rand ∨ SameFirst listA listB := by
  rw [determineOrder_swap prims a b, selectBest_agrees_iff, determineOrder_ne_zero_iff hprims]

theorem Choice.Agrees.eq {a b : Choice} {nameA nameB : Bytes} (hagrees : a.Agrees b)
    (ha : a = .picked nameA) (hb : b = .picked nameB) : nameA = nameB := by
  subst ha hb
  rcases hagrees with ⟨name, hA, hB⟩ | ⟨hA, -⟩
  · cases hA
    cases hB
    rfl
  · cases hA

theorem chosen_eq_some {choices : Choice × Choice × Choice} {curve cipher hash : Bytes}
    (hchosen : chosen choices = some (curve, cipher, hash)) :
    choices = (.picked curve, .picked cipher, .picked hash) := by
  rw [chosen.eq_def] at hchosen
  split at hchosen
  · cases hchosen
    rfl
  · cases hchosen

theorem exchange_received (hprims : prims.Lawful) (hpb : pb.Lawful) {a : Host}
    {seenA seenB : Transcript} {establishedA : Established}
    (hA : seenA.Of prims pb a establishedA) {behind : Bytes}
    (hB : exchangeDecode pb (exchangeEncode pb (seenA.exchangeOut prims a)) behind =
      some seenB.exchangeIn) :
    seenB.exchangeIn.epubkey = seenA.publicBytes.drop 1 ∧
      UInt8.ofNat seenB.exchangeIn.epubkey.length :: seenB.exchangeIn.epubkey =
        seenA.publicBytes := by
  obtain ⟨-, hdecode⟩ := exchangeDecode_encode hpb (exchangeBuild_fits hprims a hA.made
    (seenA.outBytes ++ seenA.inBytes ++ seenA.publicBytes.drop 1)) behind
  have hreceived : seenB.exchangeIn = seenA.exchangeOut prims a :=
    Option.some.inj (hB.symm.trans hdecode)
  obtain ⟨point, hpoint, -⟩ := hprims.framed _ _ _ hA.made
  rw [hreceived, Transcript.exchangeOut, exchangeBuild, hpoint]
  exact ⟨rfl, rfl⟩

/-- Over a FIFO stream, the first two messages of one side are the first two the other side takes. -/
theorem received {first second first' second' : Bytes} {inbound rest : List Bytes} {w : Wire}
    (hsent : [[first], [second]] <+: w.sent) (hfifo : inbound <+: w.outbound)
    (hinbound : inbound = first' :: second' :: rest) : first' = first ∧ second' = second := by
  obtain ⟨more, hmore⟩ := hsent
  have houtbound : w.outbound = first :: second :: more.flatten := by
    rw [Duplex.Wire.outbound, ← hmore]
    rfl
  rw [hinbound, houtbound, List.cons_prefix_cons, List.cons_prefix_cons] at hfifo
  exact ⟨hfifo.1, hfifo.2.1⟩

theorem crossed_of_hash_ne (hprims : prims.Lawful) (hpb : pb.Lawful) {a b : Host}
    (hne : hash prims b.propose.publicKey a.propose.rand ≠
      hash prims a.propose.publicKey b.propose.rand) : Crossed prims pb a b := by
  intro inboundA inboundB grantsA grantsB outcomesA outcomesB establishedA establishedB wA wB hrunA
    hrunB hfifoA hfifoB
  obtain ⟨seenA, hA, hsentA, messageA, restA, hdecodeA, hinboundA⟩ := run_handshake hprims hpb hrunA
  obtain ⟨seenB, hB, hsentB, messageB, restB, hdecodeB, hinboundB⟩ := run_handshake hprims hpb hrunB
  -- what each side took is what the other sent
  obtain ⟨hinA, rfl⟩ := received hsentB hfifoA hinboundA
  obtain ⟨hinB, rfl⟩ := received hsentA hfifoB hinboundB
  have hproposeA : seenA.proposeIn = b.propose := by
    have hdecoded := hA.decoded
    rw [hinA, proposeDecode_encode hpb hB.encoded] at hdecoded
    exact (Option.some.inj hdecoded).symm
  have hproposeB : seenB.proposeIn = a.propose := by
    have hdecoded := hB.decoded
    rw [hinB, proposeDecode_encode hpb hA.encoded] at hdecoded
    exact (Option.some.inj hdecoded).symm
  obtain ⟨hepubkeyB, hpublicA⟩ := exchange_received hprims hpb hA hdecodeB
  obtain ⟨hepubkeyA, hpublicB⟩ := exchange_received hprims hpb hB hdecodeA
  -- the orders are opposite and the names the same
  have horder := (determineOrder_ne_zero_iff hprims a.propose b.propose).mpr hne
  have horderA : establishedA.order = determineOrder prims b.propose a.propose := by
    rw [hA.order, hproposeA]
  have horderB : establishedB.order = -establishedA.order := by
    rw [hB.order, hproposeB, horderA]
    exact determineOrder_swap prims _ _
  have hchoicesA := chosen_eq_some hA.chosen
  have hchoicesB := chosen_eq_some hB.chosen
  rw [hproposeA, chooseAll, Prod.mk.injEq, Prod.mk.injEq] at hchoicesA
  rw [hproposeB, horderB, chooseAll, Prod.mk.injEq, Prod.mk.injEq] at hchoicesB
  have hsame (listA listB nameA nameB : Bytes)
      (hpickedA : selectBest establishedA.order listA listB = .picked nameA)
      (hpickedB : selectBest (-establishedA.order) listB listA = .picked nameB) : nameA = nameB :=
    ((selectBest_agrees_iff _ _ _).mpr (Or.inl (by rwa [horderA]))).eq hpickedA hpickedB
  have hcurve := hsame _ _ _ _ hchoicesA.1 hchoicesB.1
  have hcipher := hsame _ _ _ _ hchoicesA.2.1 hchoicesB.2.1
  have hhash := hsame _ _ _ _ hchoicesA.2.2 hchoicesB.2.2
  -- so are the secret and what is stretched from it
  have hshared : seenA.sharedKey = seenB.sharedKey := by
    have hsharedA := hA.shared
    have hsharedB := hB.shared
    rw [hpublicB] at hsharedA
    rw [hpublicA, ← hcurve] at hsharedB
    have hmadeB := hB.made
    rw [← hcurve] at hmadeB
    rw [hprims.agrees _ _ _ _ _ hA.made hmadeB, hsharedB] at hsharedA
    exact (Option.some.inj hsharedA).symm
  have hstretched := hA.stretched
  rw [hcipher, hshared, hB.stretched] at hstretched
  obtain ⟨hk1, hk2⟩ := Prod.mk.inj (Option.some.inj hstretched)
  refine ⟨?_, ?_, ?_, ?_⟩
  · rw [hA.signed, hB.verified, hinA, hinB, hepubkeyB]
  · rw [hB.signed, hA.verified, hinA, hinB, hepubkeyA]
  · rw [hA.localKey, hB.remoteKey, horderB, hk1, hk2, hhash]
    congr 1
    split <;> split <;> first | rfl | omega
  · rw [hA.remoteKey, hB.localKey, horderB, hk1, hk2, hhash]
    congr 1
    split <;> split <;> first | rfl | omega

/-- All three lists start with the same name on both sides. -/
def SameHeads (a b : Supported) : Prop :=
  SameFirst a.exchanges b.exchanges ∧ SameFirst a.ciphers b.ciphers ∧ SameFirst a.hashes b.hashes

theorem alike_iff (hprims : prims.Lawful) (a b : Host) (supportedA supportedB : Supported) :
    Alike prims (a.offering supportedA).propose (b.offering supportedB).propose ↔
      hash prims b.propose.publicKey a.propose.rand ≠ hash prims a.propose.publicKey b.propose.rand ∨
        SameHeads supportedA supportedB := by
  have hlist := selectBest_alike_iff hprims (a.offering supportedA).propose
    (b.offering supportedB).propose
  simp only [Alike, List.forall_mem_cons, List.not_mem_nil, false_implies, implies_true, and_true,
    hlist, ← or_and_left]
  rfl

/-- **Two peers.** For given keys and nonces, whatever lists the two sides offer, they choose alike and
their handshakes cross, if and only if the order hashes differ. With equal hashes they choose alike on
exactly those lists that start with the same names. -/
theorem peers_agree_iff (hprims : prims.Lawful) (hpb : pb.Lawful) (a b : Host) :
    ((∀ supportedA supportedB : Supported,
        Alike prims (a.offering supportedA).propose (b.offering supportedB).propose ∧
          Crossed prims pb (a.offering supportedA) (b.offering supportedB)) ↔
      hash prims b.propose.publicKey a.propose.rand ≠
        hash prims a.propose.publicKey b.propose.rand) ∧
    ∀ supportedA supportedB : Supported,
      Alike prims (a.offering supportedA).propose (b.offering supportedB).propose ↔
        hash prims b.propose.publicKey a.propose.rand ≠
            hash prims a.propose.publicKey b.propose.rand ∨
          SameHeads supportedA supportedB := by
  refine ⟨⟨fun hagree => ?_, fun hne supportedA supportedB => ?_⟩, alike_iff hprims a b⟩
  · have halike := (hagree ⟨name "P-256", [], []⟩ ⟨name "P-384", [], []⟩).1
    rcases (alike_iff hprims a b _ _).mp halike with hne | ⟨⟨first, hfirstA, hfirstB⟩, -⟩
    · exact hne
    · have hnames : (splitList (name "P-256")).head? = (splitList (name "P-384")).head? :=
        hfirstA.trans hfirstB.symm
      exact absurd hnames (by decide +kernel)
  · exact ⟨(alike_iff hprims a b supportedA supportedB).mpr (Or.inl hne),
      crossed_of_hash_ne hprims hpb hne⟩

end

theorem plain_lawful : Primitives.plain.Lawful where
  digestLength data := List.length_replicate
  agrees curve ours theirs publicOurs publicTheirs hours htheirs := by
    cases hours
    cases htheirs
    simp only [Primitives.plain, List.getD_cons_succ, List.getD_cons_zero]
    rw [UInt8.mul_comm]
  framed curve secret publicBytes hmade := by
    cases hmade
    exact ⟨[secret.sum], rfl, Nat.lt_of_sub_eq_succ rfl⟩
  signatureLength privateKey data signature hsign := by
    cases hsign
    exact Nat.lt_of_sub_eq_succ rfl

/-- A side with this key and nonce, and the lists of the repository. -/
def plainHost (key nonce : UInt8) : Host where
  propose :=
    { rand := List.replicate nonceSize nonce
      publicKey := [8, 0, 18, 1, key]
      exchanges := name "P-256,P-384,P-521"
      ciphers := name "AES-256,AES-128,Blowfish"
      hashes := name "SHA256,SHA512" }
  privateKey := [key]
  ephemeral := [key, 3]
  behind _ := []

/-- What each side has received after some rounds in which everything sent is delivered. -/
def delivered (a b : Host) : (rounds : Nat) → List Bytes × List Bytes
  | 0 => ([], [])
  | rounds + 1 =>
      let received := delivered a b rounds
      let run (host : Host) (inbound : List Bytes) : List Bytes :=
        ((handshake Primitives.plain Protobuf.varints host).run (.fresh inbound [] [] [])).2.outbound
      (run b received.2, run a received.1)

theorem peers_agree_three_rounds :
    let a := plainHost 7 1
    let b := plainHost 9 2
    let inbound := delivered a b 3
    ∃ establishedA establishedB wA wB,
      (handshake Primitives.plain Protobuf.varints a).run (.fresh inbound.1 [] [] []) =
        (some establishedA, wA) ∧
      (handshake Primitives.plain Protobuf.varints b).run (.fresh inbound.2 [] [] []) =
        (some establishedB, wB) ∧
      establishedA.signed = establishedB.verified ∧ establishedB.signed = establishedA.verified ∧
      establishedA.localStretchedKey = establishedB.remoteStretchedKey ∧
      establishedA.remoteStretchedKey = establishedB.localStretchedKey := by
  intro a b inbound
  have hsomeA : ((handshake Primitives.plain Protobuf.varints a).run
      (.fresh inbound.1 [] [] [])).1.isSome = true := by
    decide +kernel
  have hsomeB : ((handshake Primitives.plain Protobuf.varints b).run
      (.fresh inbound.2 [] [] [])).1.isSome = true := by
    decide +kernel
  obtain ⟨establishedA, hA⟩ := Option.isSome_iff_exists.mp hsomeA
  obtain ⟨establishedB, hB⟩ := Option.isSome_iff_exists.mp hsomeB
  refine ⟨establishedA, establishedB, _, _, Prod.ext hA rfl, Prod.ext hB rfl, ?_⟩
  have hagree := (peers_agree_iff plain_lawful varints_lawful a b).1.mpr (by decide)
    ⟨name "P-256,P-384,P-521", name "AES-256,AES-128,Blowfish", name "SHA256,SHA512"⟩
    ⟨name "P-256,P-384,P-521", name "AES-256,AES-128,Blowfish", name "SHA256,SHA512"⟩
  exact hagree.2 _ _ [] [] [] [] _ _ _ _ (Prod.ext hA rfl) (Prod.ext hB rfl)
    (by decide +kernel) (by decide +kernel)

/-- Equal keys and nonces, and lists that start with different names. -/
theorem equal_orders_pick_differently :
    let a := (plainHost 7 1).offering ⟨name "P-256,P-384", name "AES-256", name "SHA256"⟩
    let b := (plainHost 7 1).offering ⟨name "P-384,P-256", name "AES-256", name "SHA256"⟩
    ¬ Alike Primitives.plain a.propose b.propose := by
  intro a b halike
  rcases (alike_iff plain_lawful (plainHost 7 1) (plainHost 7 1) _ _).mp halike with
    hne | ⟨⟨first, hfirstA, hfirstB⟩, -⟩
  · exact hne rfl
  · exact absurd (hfirstA.trans hfirstB.symm) (by decide +kernel)

end CLibp2p.Secio
