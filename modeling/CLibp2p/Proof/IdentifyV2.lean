import CLibp2p.Identify.IdentifyV2
import CLibp2p.Proof.Identify
import CLibp2p.Proof.PeerId
import CLibp2p.Proof.ProtobufFields
import CLibp2p.Stream.Loop
import Mathlib.Tactic.IntervalCases

/-!
# What identify makes of the key it was sent

A response that was sent is received whatever the chunks, and every address in it is added once. The
length of the public key is taken from the cursor, so the decoder of the key is told the varint in front
of the key as well, and reads as many bytes behind it.
-/

namespace CLibp2p.IdentifyV2

open Duplex Duplex.Prog Net

/-! ### The channel -/

/-- A loop that wrote everything put everything on the stream. -/
theorem outbound_writeLoop {fuel : Nat} {data : Bytes} {w : Wire}
    (hdone : ((writeLoop fuel data).run w).1 = true) :
    ((writeLoop fuel data).run w).2.outbound = w.outbound ++ data := by
  induction fuel generalizing data w with
  | zero =>
      cases data with
      | nil => exact (List.append_nil _).symm
      | cons byte data => cases hdone
  | succ fuel ih =>
      cases data with
      | nil => exact (List.append_nil _).symm
      | cons byte data =>
          obtain ⟨chunk, hchunk, hsent, hret⟩ := w.write_cases (byte :: data)
          have hrun : (writeLoop (fuel + 1) (byte :: data)).run w =
              (if (w.write (byte :: data)).1 ≤ 0 then .done false
                else writeLoop fuel ((byte :: data).drop (w.write (byte :: data)).1.toNat) : Code Bool).run
                (w.write (byte :: data)).2 := rfl
          rw [hrun] at hdone ⊢
          split at hdone
          · cases hdone
          · rename_i hmore
            have hlength : (w.write (byte :: data)).1 = chunk.length := by
              rcases hret with hfailed | hlength
              · omega
              · exact hlength
            obtain ⟨rest, hrest⟩ := hchunk
            have hdrop : (byte :: data).drop chunk.length = rest := by rw [← hrest, List.drop_left]
            rw [hlength, Int.toNat_natCast, hdrop] at hdone
            rw [if_neg hmore, hlength, Int.toNat_natCast, hdrop, ih hdone, Wire.outbound, Wire.outbound,
              hsent, List.flatten_append, List.append_assoc, List.flatten_singleton, hrest]

theorem outbound_writeAll {data : Bytes} {w : Wire} (hdone : ((writeAll data).run w).1 = true) :
    ((writeAll data).run w).2.outbound = w.outbound ++ data :=
  outbound_writeLoop hdone

/-- The bytes that a response that was sent is made of. -/
theorem outbound_sendResponse {lib : IdentifyLibrary} {peerstore : Peerstore} {w : Wire}
    (hsent : ((sendResponse lib peerstore).run w).1 = true) :
    ∃ body, lib.encode peerstore.fields bufSize = some body ∧
      ((sendResponse lib peerstore).run w).2.outbound =
        w.outbound ++ (lib.varintEncode (UInt64.ofNat body.length) 16 ++ body) := by
  rw [sendResponse] at hsent ⊢
  split at hsent
  · cases hsent
  · rename_i body hencode
    rw [run_bind] at hsent
    split at hsent
    · rename_i hlength
      refine ⟨body, hencode, ?_⟩
      rw [run_bind, if_pos hlength, outbound_writeAll hsent, outbound_writeAll hlength, List.append_assoc]
    · cases hsent

/-- The bytes of a varint are read up to the one whose high bit is off. -/
theorem run_readLengthBytes {more rest : Bytes} {last : UInt8} (hmore : ∀ byte ∈ more, byte &&& 0x80 ≠ 0)
    (hlast : last &&& 0x80 = 0) {room : Nat} (hroom : more.length < room) (got : Bytes) {w : Wire}
    (hlive : w.Live) (hinbound : w.inbound = more ++ last :: rest) :
    ∃ w', (readLengthBytes room got).run w = (some (got ++ (more ++ [last])), w') ∧
      w.Took (more.length + 1) w' ∧ w'.Live := by
  obtain ⟨room, rfl⟩ : ∃ n, room = n + 1 := ⟨room - 1, by omega⟩
  induction more generalizing room got w with
  | nil =>
      obtain ⟨hread, htook, hnext⟩ := hlive.read_one hinbound
      refine ⟨(w.read 1).2, ?_, htook, hnext⟩
      rw [readLengthBytes, run, hread]
      dsimp only
      rw [if_pos hlast]
      rfl
  | cons byte more ih =>
      obtain ⟨hbyte, hbytes⟩ := List.forall_mem_cons.mp hmore
      rw [List.length_cons] at hroom
      obtain ⟨hread, htook, hnext⟩ := hlive.read_one hinbound
      have hrest : (w.read 1).2.inbound = more ++ last :: rest := by
        rw [htook.inbound, hinbound]
        rfl
      obtain ⟨room, rfl⟩ : ∃ n, room = n + 1 := ⟨room - 1, by omega⟩
      have hless : more.length < room + 1 := by omega
      obtain ⟨w', hrun, hmoreTook, hafter⟩ := ih hbytes (got ++ [byte]) hnext hrest room hless
      refine ⟨w', ?_, ?_, hafter⟩
      · rw [readLengthBytes, run, hread]
        dsimp only
        rw [if_neg hbyte, hrun, List.append_assoc]
        rfl
      · have htotal := htook.trans hmoreTook
        rwa [Nat.add_comm 1 (more.length + 1)] at htotal

theorem run_readVarintLength {lib : IdentifyLibrary} (hlawful : lib.Lawful) {value : UInt64} {rest : Bytes}
    {w : Wire} (hlive : w.Live) (hinbound : w.inbound = lib.varintEncode value 16 ++ rest) :
    ∃ w', (readVarintLength lib).run w = (some value.toNat, w') ∧ w'.inbound = rest ∧ w'.asked = w.asked ∧
      w'.Live := by
  obtain ⟨more, last, hencode, hlength, hmore, hlast⟩ := hlawful.encodesLength value 16 (by decide)
  have hread := hlawful.readsLength value 16 (by decide)
  have hsplit : w.inbound = more ++ last :: rest := by rw [hinbound, hencode, List.append_assoc]; rfl
  obtain ⟨w', hrun, htook, hafter⟩ :=
    run_readLengthBytes hmore hlast (show more.length < 16 by omega) [] hlive hsplit
  refine ⟨w', ?_, ?_, htook.asked, hafter⟩
  · rw [readVarintLength, run_bind, hrun, List.nil_append, ← hencode]
    simp only [hread, if_true, run_pure]
  · rw [htook.inbound, hinbound, hencode, List.drop_left' (by rw [List.length_append, List.length_singleton])]

/-! ### The loop over the fields -/

section

variable {lib : FieldLibrary}

/-- The fields whose number the receiver knows, for which it does not look at the wire type. -/
def knownField (lib : FieldLibrary) (fieldNo : Nat) (input : Bytes) (info : IdentifyInfo) :
    Option (IdentifyInfo × Nat) :=
  if 0 < fieldNo ∧ fieldNo < 7 then infoField lib fieldNo wiretypeLengthDelimited input info else none

theorem infoField_of_knownField {fieldNo type : Nat} {input : Bytes} {info : IdentifyInfo}
    {result : IdentifyInfo × Nat} (hknown : knownField lib fieldNo input info = some result) :
    infoField lib fieldNo type input info = some result := by
  rw [knownField] at hknown
  split at hknown
  · rename_i hrange
    obtain ⟨hpos, hsmall⟩ := hrange
    rw [← hknown]
    interval_cases fieldNo <;> rfl
  · cases hknown

theorem infoLoop_fieldStep {out : Bytes} {info info' : IdentifyInfo}
    (hstep : FieldStep lib.toProtobuf (knownField lib) out info info') (before after behind : Bytes)
    (hsize : (before ++ (out ++ after)).length < intBound) (fuel : Nat) :
    infoLoop lib (before ++ (out ++ after) ++ behind) (before ++ (out ++ after)).length (fuel + 1)
        before.length info =
      infoLoop lib (before ++ (out ++ after) ++ behind) (before ++ (out ++ after)).length fuel
        (before ++ out).length info' := by
  obtain ⟨hpos, fieldNo, type, headerBytes, count, hlength, htag, hfield⟩ := hstep
  have htotal : (before ++ (out ++ after)).length = before.length + (out ++ after).length :=
    List.length_append
  have hleft : (out ++ after).length = out.length + after.length := List.length_append
  have hmore : ¬ (before ++ (out ++ after)).length ≤ before.length := by omega
  have hwindow : sizeOfInt (intOfSize ((before ++ (out ++ after)).length - before.length)) =
      (out ++ after).length := by
    rw [htotal, Nat.add_sub_cancel_left]
    exact sizeOfInt_intOfSize (by omega)
  have hnext : before.length + headerBytes + count = (before ++ out).length := by
    rw [List.length_append]
    omega
  have hrest : ((before ++ (out ++ after) ++ behind).drop before.length).take (out ++ after).length =
      out ++ after := by
    rw [List.append_assoc before, List.drop_left, List.take_left]
  rw [infoLoop, if_neg hmore, hwindow, hrest, htag]
  dsimp only
  rw [payloadWindow before (out ++ after) behind (by omega), infoField_of_knownField (hfield after)]
  dsimp only
  rw [hnext]

theorem infoLoop_fieldSteps {out : Bytes} {info info' : IdentifyInfo}
    (hsteps : FieldSteps lib.toProtobuf (knownField lib) out info info') (before behind : Bytes)
    {fuel : Nat} (hfuel : out.length ≤ fuel) (hsize : (before ++ out).length < intBound) :
    infoLoop lib (before ++ out ++ behind) (before ++ out).length fuel before.length info =
      some info' := by
  induction hsteps generalizing before fuel with
  | nil info =>
      have hend : (before ++ []).length ≤ before.length := by rw [List.append_nil]
      cases fuel <;> rw [infoLoop, if_pos hend]
  | @cons out more _ _ _ hstep hrest ih =>
      have hpos := hstep.1
      rw [List.length_append] at hfuel
      obtain ⟨fuel, rfl⟩ : ∃ n, fuel = n + 1 := ⟨fuel - 1, by omega⟩
      rw [infoLoop_fieldStep hstep before more behind hsize fuel, ← List.append_assoc before out more]
      rw [← List.append_assoc] at hsize
      exact ih (before ++ out) (by omega) hsize

/-! ### The fields of a response -/

/-- What the receiver has of a response, where `count` is how many bytes the library took for the key. -/
def Peerstore.received (peerstore : Peerstore) (count : Nat) : IdentifyInfo :=
  ⟨some peerstore.publicKey, count, peerstore.listenAddrs, [], none, 0, some identifyProtocolVersion,
    some identifyAgentVersion⟩

theorem encodable_fields (peerstore : Peerstore) : ∀ entry ∈ peerstore.fields, Encodable entry := by
  intro entry hentry
  rw [Peerstore.fields, List.mem_append, List.mem_append] at hentry
  obtain (hversion | hkey) | haddr := hentry
  · simp only [List.mem_cons, List.not_mem_nil, or_false] at hversion
    obtain rfl | rfl := hversion
    · exact encodable_string (by decide) (by decide) identifyProtocolVersion
    · exact encodable_string (by decide) (by decide) identifyAgentVersion
  · split at hkey
    · cases hkey
    · obtain rfl := List.mem_singleton.mp hkey
      exact encodable_bytes (by decide) (by decide) _
  · obtain ⟨addr, -, rfl⟩ := List.mem_map.mp haddr
    exact encodable_bytes (by decide) (by decide) _

theorem storesAll_versions (hlawful : lib.Lawful) :
    StoresAll lib (knownField lib)
      [(5, .string identifyProtocolVersion.val), (6, .string identifyAgentVersion.val)] .new
      ⟨none, 0, [], [], none, 0, some identifyProtocolVersion, some identifyAgentVersion⟩ := by
  have hprotocol : StoresTo lib (knownField lib) (5, .string identifyProtocolVersion.val) .new
      { IdentifyInfo.new with protocolVersion := some (stringAt identifyProtocolVersion.val) } :=
    storesTo_text hlawful (encodable_string (by decide) (by decide) _) (Or.inr rfl)
      (fun text => { IdentifyInfo.new with protocolVersion := some (stringAt text) }) fun _ => rfl
  have hagent : StoresTo lib (knownField lib) (6, .string identifyAgentVersion.val)
      { IdentifyInfo.new with protocolVersion := some identifyProtocolVersion }
      { IdentifyInfo.new with
        protocolVersion := some identifyProtocolVersion
        agentVersion := some (stringAt identifyAgentVersion.val) } :=
    storesTo_text hlawful (encodable_string (by decide) (by decide) _) (Or.inr rfl)
      (fun text => { IdentifyInfo.new with
        protocolVersion := some identifyProtocolVersion
        agentVersion := some (stringAt text) }) fun _ => rfl
  rw [stringAt_val] at hprotocol hagent
  exact StoresAll.cons hprotocol (StoresAll.cons hagent (StoresAll.nil _))

theorem storesAll_addrs (hlawful : lib.Lawful) (addrs : List CString) (info : IdentifyInfo) :
    StoresAll lib (knownField lib) (addrs.map fun addr => (2, .bytes addr.val)) info
      { info with listenAddrs := info.listenAddrs ++ addrs } := by
  induction addrs generalizing info with
  | nil =>
      rw [List.append_nil]
      exact StoresAll.nil _
  | cons addr addrs ih =>
      have hfirst : StoresTo lib (knownField lib) (2, .bytes addr.val) info
          { info with listenAddrs := info.listenAddrs ++ [stringAt addr.val] } :=
        storesTo_text hlawful (encodable_bytes (by decide) (by decide) _) (Or.inl rfl)
          (fun text => { info with listenAddrs := info.listenAddrs ++ [stringAt text] }) fun _ => rfl
      have hrest := ih { info with listenAddrs := info.listenAddrs ++ [addr] }
      rw [stringAt_val] at hfirst
      rw [List.append_assoc, List.singleton_append] at hrest
      exact StoresAll.cons hfirst hrest

/-- The length of the key counts the varint in front of it. -/
theorem fieldStep_key (hlawful : lib.Lawful) {key out : Bytes} {maxOut : Nat}
    (hencode : lib.encodeLengthDelimited 1 key maxOut = some out) (info : IdentifyInfo) :
    ∃ count, key.length < count ∧ FieldStep lib.toProtobuf (knownField lib) out info
      { info with publicKey := some key, publicKeyLen := count } := by
  obtain ⟨headerBytes, varintLength, hvarint, hlength, -, hreads⟩ :=
    hlawful.decodes 1 key maxOut out (by decide) (by decide) hencode
  refine ⟨varintLength + key.length, by omega, by omega, 1, wiretypeLengthDelimited, headerBytes,
    varintLength + key.length, by omega, fun rest => (hreads rest).1, fun rest => ?_⟩
  have hread : lib.decodeString ((out ++ rest).drop headerBytes) =
      some (key, varintLength + key.length) := by
    rw [hlawful.decodesString]
    exact (hreads rest).2.2
  rw [knownField, if_pos (by decide), infoField, hread]

/-- A response is read to its end, whatever lies behind. -/
theorem fieldSteps_response (hlawful : lib.Lawful) {peerstore : Peerstore}
    (hkey : peerstore.publicKey ≠ []) {body : Bytes} {maxOut : Nat}
    (hencode : lib.encode peerstore.fields maxOut = some body) :
    ∃ count, peerstore.publicKey.length < count ∧
      FieldSteps lib.toProtobuf (knownField lib) body .new (peerstore.received count) := by
  rw [Peerstore.fields, if_neg hkey] at hencode
  obtain ⟨front, addrs, hfront, haddrs, rfl⟩ := encode_append hencode
  obtain ⟨versions, keys, hversions, hkeys, rfl⟩ := encode_append hfront
  obtain ⟨key, empty, hone, hempty, rfl⟩ := encode_cons hkeys
  cases hempty
  obtain ⟨count, hcount, hstep⟩ := fieldStep_key hlawful hone
    ⟨none, 0, [], [], none, 0, some identifyProtocolVersion, some identifyAgentVersion⟩
  have hfirst := (storesAll_versions hlawful).fieldSteps hlawful hversions
  have hlast := (storesAll_addrs hlawful peerstore.listenAddrs
    ⟨some peerstore.publicKey, count, [], [], none, 0, some identifyProtocolVersion,
      some identifyAgentVersion⟩).fieldSteps hlawful haddrs
  refine ⟨count, hcount, (hfirst.append ?_).append hlast⟩
  rw [List.append_nil]
  exact hstep.single

end

/-! ### A response that is received -/

theorem pushAddrs_eq (listenAddrs : List CString) (addrHead : List ParsedAddress) :
    pushAddrs listenAddrs addrHead = (listenAddrs.filterMap multiaddrNewFromString).reverse ++ addrHead := by
  induction listenAddrs generalizing addrHead with
  | nil => rfl
  | cons addr listenAddrs ih =>
      cases hparse : multiaddrNewFromString addr with
      | none =>
          have hstep : pushAddrs (addr :: listenAddrs) addrHead = pushAddrs listenAddrs addrHead := by
            rw [pushAddrs, List.foldl_cons, hparse]
            rfl
          rw [hstep, ih, List.filterMap_cons_none hparse]
      | some ma =>
          have hstep : pushAddrs (addr :: listenAddrs) addrHead =
              pushAddrs listenAddrs (ma :: addrHead) := by
            rw [pushAddrs, List.foldl_cons, hparse]
            rfl
          rw [hstep, ih, List.filterMap_cons_some hparse, List.reverse_cons, List.append_assoc]
          rfl

/-- What `libp2p_identify_receive` makes of a response: it adds every address, and tells the decoder of
the key more bytes than the key has. -/
theorem run_receive {lib : IdentifyLibrary} (hlawful : lib.Lawful) (receiver : Receiver)
    {peerstore : Peerstore} (hkey : peerstore.publicKey ≠ []) {body : Bytes}
    (hencode : lib.encode peerstore.fields bufSize = some body) (peer : Libp2pPeer) {w : Wire}
    (hlive : w.Live) (hinbound : w.inbound = lib.varintEncode (UInt64.ofNat body.length) 16 ++ body) :
    ∃ count w', peerstore.publicKey.length < count ∧
      (receive lib receiver peer).run w =
        ((true, ⟨newPeerId lib.toProtobuf receiver ⟨peerstore.publicKey ++ [0], count⟩ peer.peerId,
          pushAddrs peerstore.listenAddrs peer.addrHead⟩), w') ∧
      w'.asked = w.asked ++ [(⟨peerstore.publicKey ++ [0], count⟩, ())] := by
  have hspace : body.length ≤ bufSize :=
    length_encode_le_maxOut hlawful.toFieldLawful (encodable_fields peerstore) hencode
  obtain ⟨count, hcount, hsteps⟩ := fieldSteps_response hlawful.toFieldLawful hkey hencode
  rw [bufSize] at hspace
  have hsize : (UInt64.ofNat body.length).toNat = body.length := by
    rw [UInt64.toNat_ofNat', Nat.mod_eq_of_lt (by omega)]
  have hloop := infoLoop_fieldSteps hsteps [] (receiver.behind body) (Nat.le_refl _)
    (by rw [List.nil_append, intBound]; omega)
  rw [List.nil_append, List.length_nil] at hloop
  have hne : body ≠ [] := by
    rintro rfl
    rw [List.length_nil, infoLoop, if_pos (Nat.le_refl 0), Option.some_inj] at hloop
    exact absurd (congrArg IdentifyInfo.publicKey hloop) (Option.some_ne_none _).symm
  obtain ⟨w₁, hlength, hbody, hasked, hlive₁⟩ := run_readVarintLength hlawful hlive hinbound
  rw [hsize] at hlength
  obtain ⟨w₂, hread, htook, -⟩ := run_readExactly_live hlive₁ (le_of_eq (congrArg List.length hbody).symm)
  rw [hbody, List.take_length] at hread
  have hproceed : ¬ (body.length = 0 ∨ mallocBound ≤ body.length) := by
    rintro (hzero | hlarge)
    · exact hne (List.length_eq_zero_iff.mp hzero)
    · rw [mallocBound] at hlarge
      omega
  refine ⟨count, (w₂.ask ⟨peerstore.publicKey ++ [0], count⟩).2, hcount, ?_, ?_⟩
  · rw [receive, run_bind, hlength]
    dsimp only
    rw [if_neg hproceed, run_bind, hread]
    dsimp only
    rw [hloop]
    dsimp only
    rw [populate, Peerstore.received]
    dsimp only
    rw [if_pos (by omega)]
    rfl
  · rw [← hasked, ← htook.asked]
    rfl

/-- The receiver on what a sender wrote, with what it is asked along the way. -/
def exchange (lib : IdentifyLibrary) (receiver : Receiver) (peerstore : Peerstore) (peer : Libp2pPeer)
    (outcomes : List WriteOutcome) (grants : List Nat) : (Bool × Libp2pPeer) × Wire :=
  let written := ((sendResponse lib peerstore).run (.fresh [] [] outcomes [])).2.outbound
  (receive lib receiver peer).run (.fresh written grants [] [])

/-- The peer knows of the sender what the sender told: the decoder of the key gets the key and nothing
else, the peer id is that of the key, and every address was added once. -/
structure Identified (lib : IdentifyLibrary) (receiver : Receiver) (peerstore : Peerstore)
    (peer : Libp2pPeer) (result : (Bool × Libp2pPeer) × Wire) : Prop where
  success : result.1.1 = true
  keyCall : ∃ call, result.2.asked.map Prod.fst = [call] ∧
    call.bufferLength = peerstore.publicKey.length ∧ peerstore.publicKey <+: call.buffer
  peerId : ∀ publicKey id,
    peerstore.publicKey = Crypto.publicKeyEncode lib.toProtobuf receiver.ids publicKey →
    Crypto.publicKeyToPeerId receiver.prims lib.toProtobuf receiver.ids publicKey = some id →
    result.1.2.peerId = some id
  addrHead : result.1.2.addrHead.Perm
    (peerstore.listenAddrs.filterMap multiaddrNewFromString ++ peer.addrHead)

/-- A response that was sent is received, and all of its addresses are added. -/
theorem exchange_cases {lib : IdentifyLibrary} (hlawful : lib.Lawful) (receiver : Receiver)
    {peerstore : Peerstore} (hkey : peerstore.publicKey ≠ []) (peer : Libp2pPeer)
    {outcomes : List WriteOutcome}
    (hsent : ((sendResponse lib peerstore).run (.fresh [] [] outcomes [])).1 = true)
    {grants : List Nat} (hgrants : 0 ∉ grants) :
    ∃ count, peerstore.publicKey.length < count ∧
      (exchange lib receiver peerstore peer outcomes grants).2.asked.map Prod.fst =
        [⟨peerstore.publicKey ++ [0], count⟩] ∧
      (exchange lib receiver peerstore peer outcomes grants).1 =
        (true, ⟨newPeerId lib.toProtobuf receiver ⟨peerstore.publicKey ++ [0], count⟩ peer.peerId,
          (peerstore.listenAddrs.filterMap multiaddrNewFromString).reverse ++ peer.addrHead⟩) := by
  obtain ⟨body, hencode, houtbound⟩ := outbound_sendResponse hsent
  have hlive : (Duplex.Wire.fresh ((sendResponse lib peerstore).run (.fresh [] [] outcomes [])).2.outbound
      grants [] [] : Wire).Live := ⟨rfl, rfl, hgrants⟩
  obtain ⟨count, w', hcount, hrun, hasked⟩ :=
    run_receive hlawful receiver hkey hencode peer hlive houtbound
  rw [pushAddrs_eq] at hrun
  refine ⟨count, hcount, ?_, ?_⟩
  · rw [exchange, hrun, hasked]
    rfl
  · rw [exchange, hrun]

/-- The decoder of the key is never told the length of the key. -/
theorem not_identified {lib : IdentifyLibrary} (hlawful : lib.Lawful) (receiver : Receiver)
    {peerstore : Peerstore} (hkey : peerstore.publicKey ≠ []) (peer : Libp2pPeer)
    {outcomes : List WriteOutcome}
    (hsent : ((sendResponse lib peerstore).run (.fresh [] [] outcomes [])).1 = true)
    {grants : List Nat} (hgrants : 0 ∉ grants) :
    ¬ Identified lib receiver peerstore peer (exchange lib receiver peerstore peer outcomes grants) := by
  intro hidentified
  obtain ⟨count, hcount, hasked, -⟩ := exchange_cases hlawful receiver hkey peer hsent hgrants
  obtain ⟨call, hcall, hlength, -⟩ := hidentified.keyCall
  rw [hasked, List.singleton_inj] at hcall
  rw [← hcall] at hlength
  exact absurd hlength (Nat.ne_of_gt hcount)

/-! ### A key that is read past its end -/

theorem identifyLibrary_varints_lawful : IdentifyLibrary.varints.Lawful where
  toFieldLawful := fieldLibrary_varints_lawful
  encodesLength value maxOut hspace := by
    have hvalue : value.toNat < 128 ^ (9 + 1) := by
      have := value.toNat_lt
      omega
    obtain ⟨more, last, hencode, hlength, hmore, hlast⟩ :=
      varintEncode_split (show 9 < maxOut by omega) hvalue
    exact ⟨more, last, hencode, by omega, hmore, hlast⟩
  readsLength value maxOut hspace := by
    obtain ⟨room, rfl⟩ : ∃ n, maxOut = n + 1 := ⟨maxOut - 1, by omega⟩
    have hvalue : value.toNat < 128 ^ (room + 1) :=
      calc value.toNat < 128 ^ 10 := by
            have := value.toNat_lt
            omega
        _ ≤ 128 ^ (room + 1) := Nat.pow_le_pow_right (by decide) hspace
    have hread := varintRead_encode room value.toNat hvalue []
    rw [List.append_nil] at hread
    simp only [IdentifyLibrary.varints, FieldLibrary.varints, Protobuf.varints, hread, UInt64.ofNat_toNat]

/-- A key of 128 bytes, whose protobuf has a length of two bytes. -/
def longKey : Secio.PublicKey := ⟨Secio.keytypeRsa, List.replicate 128 7⟩

def loopback : CString := ⟨"/ip4/127.0.0.1/tcp/4001".toUTF8.toList, by decide +kernel⟩

def longKeyPeerstore : Peerstore := ⟨Crypto.publicKeyEncode .varints .varints longKey, [loopback]⟩

/-- The memory behind a block starts like another field. -/
def dirtyReceiver : Receiver := ⟨.plain, .varints, fun _ => [18]⟩

theorem not_identified_longKey :
    ¬ Identified .varints dirtyReceiver longKeyPeerstore ⟨none, []⟩
      (exchange .varints dirtyReceiver longKeyPeerstore ⟨none, []⟩ [⟨1, false⟩] [1, 2, 3]) :=
  not_identified identifyLibrary_varints_lawful dirtyReceiver (by decide +kernel) ⟨none, []⟩
    (by decide +kernel) (by decide)

/-- The peer id is not set, although the key that was sent has one and all addresses arrive. -/
theorem longKey_not_received :
    ((sendResponse .varints longKeyPeerstore).run (.fresh [] [] [] [])).1 = true ∧
      (exchange .varints dirtyReceiver longKeyPeerstore ⟨none, []⟩ [] []).1.1 = true ∧
      (exchange .varints dirtyReceiver longKeyPeerstore ⟨none, []⟩ [] []).1.2.peerId = none ∧
      ¬ Identified .varints dirtyReceiver longKeyPeerstore ⟨none, []⟩
        (exchange .varints dirtyReceiver longKeyPeerstore ⟨none, []⟩ [] []) := by
  have hpeerId : (exchange .varints dirtyReceiver longKeyPeerstore ⟨none, []⟩ [] []).1.2.peerId = none := by
    decide +kernel
  obtain ⟨id, hid⟩ : ∃ id, Crypto.publicKeyToPeerId .plain .varints .varints longKey = some id :=
    Option.isSome_iff_exists.mp (by decide +kernel)
  refine ⟨by decide +kernel, by decide +kernel, hpeerId, fun hidentified => ?_⟩
  have hset := hidentified.peerId longKey id (by decide +kernel) hid
  rw [hpeerId] at hset
  cases hset

end CLibp2p.IdentifyV2
