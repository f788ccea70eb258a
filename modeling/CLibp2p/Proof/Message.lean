import CLibp2p.Proof.Record
import CLibp2p.Record.Message
import Mathlib.Data.List.ReduceOption

/-!
# When a Kademlia message decodes to itself

The two lists of peers come back in order, and the record too if its key is a string. The one thing that
can go wrong is a peer whose size does not fit into the `int` it is counted in.
-/

namespace CLibp2p.Record

open Duplex Peer

variable {lib : FieldLibrary} {μ : Type} {addrs : MultiaddrBytes μ}

/-! ### Peers -/

/-- The library makes every address of the peer again from its bytes. -/
def RoundTrips (addrs : MultiaddrBytes μ) (peer : SentPeer μ) : Prop :=
  ∀ address ∈ peer.addresses, ∃ a, address = some a ∧ addrs.newFromBytes (addrs.bytes a) = some a

theorem peerStores_addresses {addresses : List μ}
    (htrip : ∀ a ∈ addresses, addrs.newFromBytes (addrs.bytes a) = some a) (peer : SentPeer μ) :
    StoresAll lib (peerField lib addrs) (addresses.map fun address => (2, .bytes (addrs.bytes address)))
      peer { peer with addresses := peer.addresses ++ addresses.map some } := by
  induction addresses generalizing peer with
  | nil =>
      rw [List.map_nil, List.map_nil, List.append_nil]
      exact StoresAll.nil peer
  | cons address addresses ih =>
      obtain ⟨haddress, haddresses⟩ := List.forall_mem_cons.mp htrip
      have hfirst : StoresTo lib (peerField lib addrs) (2, .bytes (addrs.bytes address)) peer
          { peer with addresses := peer.addresses ++ [addrs.newFromBytes (addrs.bytes address)] } :=
        storesTo_bytes (by decide) (by decide) (addrs.bytes address)
          (fun data => { peer with addresses := peer.addresses ++ [addrs.newFromBytes data] })
          fun _ => rfl
      rw [haddress] at hfirst
      have hrest := ih haddresses { peer with addresses := peer.addresses ++ [some address] }
      rw [List.append_assoc, List.singleton_append] at hrest
      exact StoresAll.cons hfirst hrest

theorem RoundTrips.addresses_eq {peer : SentPeer μ} (htrip : RoundTrips addrs peer) :
    peer.addresses.reduceOption.map some = peer.addresses := by
  have hsome : ∀ addresses : List (Option μ), (∀ address ∈ addresses, ∃ a, address = some a ∧
      addrs.newFromBytes (addrs.bytes a) = some a) → addresses.reduceOption.map some = addresses := by
    intro addresses hall
    induction addresses with
    | nil => rfl
    | cons address addresses ih =>
        obtain ⟨⟨a, rfl, -⟩, hrest⟩ := List.forall_mem_cons.mp hall
        rw [List.reduceOption_cons_of_some, List.map_cons, ih hrest]
  exact hsome peer.addresses htrip

theorem peerStores {peer : SentPeer μ} (htrip : RoundTrips addrs peer) :
    StoresAll lib (peerField lib addrs) (peer.fields addrs) .new peer := by
  have haddresses : ∀ a ∈ peer.addresses.reduceOption, addrs.newFromBytes (addrs.bytes a) = some a := by
    intro a ha
    have hmem : some a ∈ peer.addresses := by
      rw [← htrip.addresses_eq]
      exact List.mem_map_of_mem ha
    obtain ⟨b, hb, hback⟩ := htrip (some a) hmem
    cases hb
    exact hback
  have hid : StoresTo lib (peerField lib addrs) (1, .bytes peer.id) .new ⟨peer.id, [], 0⟩ :=
    storesTo_bytes (by decide) (by decide) peer.id (fun data => (⟨data, [], 0⟩ : SentPeer μ))
      fun _ => rfl
  have hlist : StoresAll lib (peerField lib addrs)
      (peer.addresses.reduceOption.map fun address => (2, .bytes (addrs.bytes address)))
      ⟨peer.id, [], 0⟩ ⟨peer.id, [] ++ peer.addresses.reduceOption.map some, 0⟩ :=
    peerStores_addresses haddresses ⟨peer.id, [], 0⟩
  have htype : StoresTo lib (peerField lib addrs) (3, .varint peer.connectionType.toUInt64)
      ⟨peer.id, peer.addresses, 0⟩ ⟨peer.id, peer.addresses, peer.connectionType.toUInt64.toUInt32⟩ :=
    storesTo_varint (by decide) (by decide) peer.connectionType.toUInt64
      (fun value => (⟨peer.id, peer.addresses, value.toUInt32⟩ : SentPeer μ)) fun _ => rfl
  rw [List.nil_append, htrip.addresses_eq] at hlist
  rw [UInt32.toUInt32_toUInt64] at htype
  exact StoresAll.cons hid (hlist.append (StoresAll.cons htype (StoresAll.nil peer)))

def peerSize (addrs : MultiaddrBytes μ) (peer : SentPeer μ) : Nat := encodeSizes (peer.fields addrs)

/-- The size function of the peer counts them in an `int`. -/
theorem peerEncodeSize_eq (peer : SentPeer μ) :
    peerEncodeSize addrs peer = sizeOfInt (intOfSize (peerSize addrs peer)) := by
  have hsize : maxFieldHeader + peer.id.length + maxFieldHeader + (peer.addresses.reduceOption.map
      fun address => maxFieldHeader + (addrs.bytes address).length).sum = peerSize addrs peer := by
    have haddresses : (peer.addresses.reduceOption.map fun address =>
        maxFieldHeader + (addrs.bytes address).length) = ((peer.addresses.reduceOption.map fun address =>
          ((2, .bytes (addrs.bytes address)) : Nat × FieldValue)).map fun field => field.2.size) := by
      rw [List.map_map]
      rfl
    rw [peerSize, SentPeer.fields, encodeSizes, List.map_cons, List.sum_cons, List.map_append,
      List.sum_append, List.map_singleton, List.sum_singleton, ← haddresses, FieldValue.size,
      FieldValue.size]
    omega
  rw [peerEncodeSize, foldl_intOfSize, hsize]

theorem peerFields_encodable (peer : SentPeer μ) : ∀ entry ∈ peer.fields addrs, Encodable entry := by
  refine List.forall_mem_cons.mpr ⟨encodable_bytes (by decide) (by decide) _, ?_⟩
  intro entry hentry
  obtain haddress | htype := List.mem_append.mp hentry
  · obtain ⟨address, -, rfl⟩ := List.mem_map.mp haddress
    exact encodable_bytes (by decide) (by decide) _
  · rw [List.mem_singleton.mp htype]
    exact encodable_varint (by decide) (by decide) _

/-- A peer of less than 2^31 bytes fits into the buffer that is made for it. -/
theorem peerBuffer_isSome (hlawful : lib.Lawful) {peer : SentPeer μ}
    (hsize : peerSize addrs peer < intBound) : (peerBuffer lib addrs peer).isSome := by
  have hcounted : peerEncodeSize addrs peer = peerSize addrs peer := by
    rw [peerEncodeSize_eq, sizeOfInt_intOfSize hsize]
  have hbound : intBound ≤ mallocBound := by decide
  have hmax : mallocBound ≤ 2 ^ 64 := by decide
  obtain ⟨out, hout⟩ := exists_encode hlawful (peerFields_encodable peer)
    (Nat.lt_of_lt_of_le hsize (Nat.le_trans hbound hmax)) (Nat.le_refl (peerSize addrs peer))
  rw [peerBuffer, hcounted, if_pos (Nat.lt_of_lt_of_le hsize hbound), peerEncode, hout]
  rfl

/-- One of up to twice as many has no buffer. -/
theorem peerBuffer_eq_none {peer : SentPeer μ} (hge : intBound ≤ peerSize addrs peer)
    (hlt : peerSize addrs peer < 2 * intBound) : peerBuffer lib addrs peer = none := by
  rw [peerBuffer, if_neg]
  rw [peerEncodeSize_eq]
  exact Nat.not_lt.mpr (sizeOfInt_intOfSize_ge hge hlt)

/-- A buffer that is made holds the peer, and no more than was counted. -/
theorem peerBuffer_spec (hlawful : lib.Lawful) {peer : SentPeer μ} {buffer : Bytes}
    (hbuffer : peerBuffer lib addrs peer = some buffer) :
    buffer.length ≤ peerSize addrs peer ∧
      (RoundTrips addrs peer → ∀ behind, peerDecode lib addrs buffer behind = some peer) := by
  rw [peerBuffer] at hbuffer
  split at hbuffer
  · exact ⟨length_encode_le hlawful (peerFields_encodable peer) hbuffer, fun htrip behind =>
      ((peerStores htrip).fieldSteps hlawful hbuffer).decodeBuffer behind⟩
  · cases hbuffer

/-! ### Messages -/

theorem storesTo_nested {ρ τ : Type} {field : Nat → Bytes → ρ → Option (ρ × Nat)} {heap : Bytes → Bytes}
    {decode : (input behind : Bytes) → Option τ} {fieldNo : Nat} (hpos : 0 < fieldNo)
    (hsmall : fieldNo < 16) {buffer : Bytes} {inner : τ}
    (hdecode : ∀ behind, decode buffer behind = some inner) {record : ρ} (set : τ → ρ)
    (hfield : ∀ input, field fieldNo input record = nestedField lib.toProtobuf heap decode input set) :
    StoresTo lib field (fieldNo, .bytes buffer) record (set inner) := by
  refine ⟨encodable_bytes hpos hsmall buffer, fun input count hread => ?_⟩
  rw [hfield, nestedField, hread]
  dsimp only
  rw [hdecode]
  rfl

theorem peerFields_cons {fieldNo : Nat} {peer : SentPeer μ} {peers : List (SentPeer μ)}
    {fields : List (Nat × FieldValue)} (hfields : peerFields lib addrs fieldNo (peer :: peers) = some fields) :
    ∃ buffer rest, peerBuffer lib addrs peer = some buffer ∧
      peerFields lib addrs fieldNo peers = some rest ∧ fields = (fieldNo, .bytes buffer) :: rest := by
  rw [peerFields, List.mapM_cons] at hfields
  obtain ⟨first, hfirst, hfields⟩ := Option.bind_eq_some_iff.mp hfields
  obtain ⟨rest, hrest, hfields⟩ := Option.bind_eq_some_iff.mp hfields
  obtain ⟨buffer, hbuffer, rfl⟩ := Option.map_eq_some_iff.mp hfirst
  cases hfields
  exact ⟨buffer, rest, hbuffer, hrest, rfl⟩

/-- A list of peers comes back behind the peers that are there, in order. -/
theorem peerFields_stores (hlawful : lib.Lawful) {heap : Bytes → Bytes} {fieldNo : Nat}
    (hpos : 0 < fieldNo) (hsmall : fieldNo < 16) (append : List (SentPeer μ) → KademliaMessage μ)
    (hfield : ∀ before input, messageField lib addrs heap fieldNo input (append before) =
      nestedField lib.toProtobuf heap (peerDecode lib addrs) input fun peer => append (before ++ [peer]))
    {peers : List (SentPeer μ)} (htrip : ∀ peer ∈ peers, RoundTrips addrs peer)
    {fields : List (Nat × FieldValue)} (hfields : peerFields lib addrs fieldNo peers = some fields)
    (before : List (SentPeer μ)) :
    StoresAll lib (messageField lib addrs heap) fields (append before) (append (before ++ peers)) := by
  induction peers generalizing fields before with
  | nil =>
      cases hfields
      rw [List.append_nil]
      exact StoresAll.nil _
  | cons peer peers ih =>
      obtain ⟨hpeer, hpeers⟩ := List.forall_mem_cons.mp htrip
      obtain ⟨buffer, rest, hbuffer, hrest, rfl⟩ := peerFields_cons hfields
      have hstores := storesTo_nested hpos hsmall ((peerBuffer_spec hlawful hbuffer).2 hpeer)
        (fun peer => append (before ++ [peer])) (hfield before)
      have hmore := ih hpeers hrest (before ++ [peer])
      rw [List.append_assoc, List.singleton_append] at hmore
      exact StoresAll.cons hstores hmore

theorem peerFields_isSome_iff {fieldNo : Nat} {peers : List (SentPeer μ)} :
    (peerFields lib addrs fieldNo peers).isSome ↔ ∀ peer ∈ peers, (peerBuffer lib addrs peer).isSome := by
  induction peers with
  | nil => simp [peerFields]
  | cons peer peers ih =>
      rw [List.forall_mem_cons, ← ih, peerFields, peerFields, List.mapM_cons]
      cases peerBuffer lib addrs peer with
      | none => simp
      | some buffer =>
          cases peers.mapM fun peer =>
              (peerBuffer lib addrs peer).map fun buffer => (fieldNo, FieldValue.bytes buffer) <;> simp

def peerSizes (addrs : MultiaddrBytes μ) (peers : List (SentPeer μ)) : Nat :=
  (peers.map fun peer => maxFieldHeader + peerSize addrs peer).sum

theorem encodeSizes_peerFields_le (hlawful : lib.Lawful) {fieldNo : Nat} {peers : List (SentPeer μ)}
    {fields : List (Nat × FieldValue)} (hfields : peerFields lib addrs fieldNo peers = some fields) :
    encodeSizes fields ≤ peerSizes addrs peers := by
  induction peers generalizing fields with
  | nil =>
      cases hfields
      exact Nat.le_refl 0
  | cons peer peers ih =>
      obtain ⟨buffer, rest, hbuffer, hrest, rfl⟩ := peerFields_cons hfields
      exact Nat.add_le_add (Nat.add_le_add_left (peerBuffer_spec hlawful hbuffer).1 _) (ih hrest)

def recordSize (record : Option Libp2pRecord) : Nat :=
  (record.toList.map fun record => maxFieldHeader + recordEncodeSize record).sum

theorem exists_recordFields (hlawful : lib.Lawful) {record : Option Libp2pRecord}
    (hsize : recordSize record < 2 ^ 64) :
    ∃ fields, recordFields lib record = some fields ∧ encodeSizes fields ≤ recordSize record := by
  cases record with
  | none => exact ⟨[], rfl, Nat.le_refl 0⟩
  | some record =>
      have hmax : recordEncodeSize record < 2 ^ 64 := by
        rw [recordSize, Option.toList_some, List.map_singleton, List.sum_singleton] at hsize
        omega
      obtain ⟨buffer, hbuffer⟩ := exists_recordEncode hlawful record (Nat.le_refl _) hmax
      refine ⟨[(3, .bytes buffer)], by rw [recordFields, hbuffer]; rfl, ?_⟩
      have hlength := length_encode_le hlawful (recordStores hlawful record).encodable hbuffer
      exact Nat.add_le_add_right (Nat.add_le_add_left hlength _) 0

theorem recordFields_stores (hlawful : lib.Lawful) {heap : Bytes → Bytes} {record : Option Libp2pRecord}
    (hkey : ∀ r, record = some r → 0 ∉ r.key) {fields : List (Nat × FieldValue)}
    (hfields : recordFields lib record = some fields) {message : KademliaMessage μ}
    (hnone : message.record = none) :
    StoresAll lib (messageField lib addrs heap) fields message { message with record } := by
  cases record with
  | none =>
      cases hfields
      rw [← hnone]
      exact StoresAll.nil message
  | some record =>
      obtain ⟨buffer, hbuffer, rfl⟩ := Option.map_eq_some_iff.mp hfields
      have hdecode : ∀ behind, recordDecode lib buffer behind = some record := by
        intro behind
        rw [recordDecode_encode hlawful hbuffer, cString_eq_self_iff.mpr (hkey record rfl)]
      exact StoresAll.cons (storesTo_nested (by decide) (by decide) hdecode
        (fun record => { message with record := some record }) fun _ => rfl) (StoresAll.nil _)

def messageSize (addrs : MultiaddrBytes μ) (message : KademliaMessage μ) : Nat :=
  maxFieldHeader + maxFieldHeader + encodeSizes (message.key.toList.map fun key => (2, .bytes key)) +
    recordSize message.record + peerSizes addrs message.closerPeers +
    peerSizes addrs message.providerPeers

theorem messageFields_eq {message : KademliaMessage μ} {fields : List (Nat × FieldValue)}
    (hfields : message.fields lib addrs = some fields) :
    ∃ record closers providers, recordFields lib message.record = some record ∧
      peerFields lib addrs 8 message.closerPeers = some closers ∧
      peerFields lib addrs 9 message.providerPeers = some providers ∧
      fields = (1, .varint message.messageType.toUInt64) :: (message.key.toList.map fun key => (2, .bytes key)) ++
        record ++ closers ++ providers ++ [(10, .varint message.clusterLevelRaw.toInt64.toUInt64)] := by
  obtain ⟨record, hrecord, hfields⟩ := Option.bind_eq_some_iff.mp hfields
  obtain ⟨closers, hclosers, hfields⟩ := Option.bind_eq_some_iff.mp hfields
  obtain ⟨providers, hproviders, hfields⟩ := Option.bind_eq_some_iff.mp hfields
  cases hfields
  exact ⟨record, closers, providers, hrecord, hclosers, hproviders, rfl⟩

theorem toInt32_toInt64 (x : Int32) : x.toInt64.toUInt64.toUInt32.toInt32 = x := by
  apply Int32.toBitVec_inj.mp
  ext i hi
  have hlow : i < 64 := by omega
  simp [BitVec.getElem_signExtend, hi, hlow]

theorem messageFields_stores (hlawful : lib.Lawful) {heap : Bytes → Bytes} {message : KademliaMessage μ}
    (hkey : ∀ record, message.record = some record → 0 ∉ record.key)
    (hclosers : ∀ peer ∈ message.closerPeers, RoundTrips addrs peer)
    (hproviders : ∀ peer ∈ message.providerPeers, RoundTrips addrs peer)
    {fields : List (Nat × FieldValue)} (hfields : message.fields lib addrs = some fields) :
    StoresAll lib (messageField lib addrs heap) fields .new message := by
  obtain ⟨record, closers, providers, hrecord, hcloserFields, hproviderFields, rfl⟩ :=
    messageFields_eq hfields
  obtain ⟨type, key, inner, closerPeers, providerPeers, clusterLevelRaw⟩ := message
  dsimp only at *
  have htype : StoresTo lib (messageField lib addrs heap) (1, .varint type.toUInt64) .new
      ⟨type.toUInt64.toUInt32, none, none, [], [], 0⟩ :=
    storesTo_varint (by decide) (by decide) type.toUInt64
      (fun value => (⟨value.toUInt32, none, none, [], [], 0⟩ : KademliaMessage μ)) fun _ => rfl
  rw [UInt32.toUInt32_toUInt64] at htype
  have hkeyFields : StoresAll lib (messageField lib addrs heap)
      (key.toList.map fun key => (2, .bytes key)) ⟨type, none, none, [], [], 0⟩
      ⟨type, key, none, [], [], 0⟩ := by
    cases key with
    | none => exact StoresAll.nil _
    | some key =>
        exact StoresAll.cons (storesTo_bytes (by decide) (by decide) key
          (fun key => (⟨type, some key, none, [], [], 0⟩ : KademliaMessage μ)) fun _ => rfl)
          (StoresAll.nil _)
  have hrecordFields : StoresAll lib (messageField lib addrs heap) record
      ⟨type, key, none, [], [], 0⟩ ⟨type, key, inner, [], [], 0⟩ :=
    recordFields_stores hlawful hkey hrecord rfl
  have hcloserPeers : StoresAll lib (messageField lib addrs heap) closers
      ⟨type, key, inner, [], [], 0⟩ ⟨type, key, inner, closerPeers, [], 0⟩ :=
    peerFields_stores hlawful (by decide) (by decide) (fun peers => ⟨type, key, inner, peers, [], 0⟩)
      (fun _ _ => rfl) hclosers hcloserFields []
  have hproviderPeers : StoresAll lib (messageField lib addrs heap) providers
      ⟨type, key, inner, closerPeers, [], 0⟩ ⟨type, key, inner, closerPeers, providerPeers, 0⟩ :=
    peerFields_stores hlawful (by decide) (by decide)
      (fun peers => ⟨type, key, inner, closerPeers, peers, 0⟩) (fun _ _ => rfl) hproviders
      hproviderFields []
  have hlevel : StoresTo lib (messageField lib addrs heap)
      (10, .varint clusterLevelRaw.toInt64.toUInt64) ⟨type, key, inner, closerPeers, providerPeers, 0⟩
      ⟨type, key, inner, closerPeers, providerPeers,
        clusterLevelRaw.toInt64.toUInt64.toUInt32.toInt32⟩ :=
    storesTo_varint (by decide) (by decide) clusterLevelRaw.toInt64.toUInt64 (fun value =>
      (⟨type, key, inner, closerPeers, providerPeers, value.toUInt32.toInt32⟩ : KademliaMessage μ))
      fun _ => rfl
  rw [toInt32_toInt64] at hlevel
  exact ((((StoresAll.cons htype hkeyFields).append hrecordFields).append hcloserPeers).append
    hproviderPeers).append (StoresAll.cons hlevel (StoresAll.nil _))

theorem encodeSizes_messageFields_le (hlawful : lib.Lawful) {message : KademliaMessage μ}
    (hsize : messageSize addrs message < 2 ^ 64) {fields : List (Nat × FieldValue)}
    (hfields : message.fields lib addrs = some fields) :
    encodeSizes fields ≤ messageSize addrs message := by
  obtain ⟨record, closers, providers, hrecord, hclosers, hproviders, rfl⟩ := messageFields_eq hfields
  have hrecordMax : recordSize message.record < 2 ^ 64 := by
    rw [messageSize] at hsize
    omega
  obtain ⟨record', hrecord', hrecordSize⟩ := exists_recordFields hlawful hrecordMax
  obtain rfl : record' = record := Option.some.inj (hrecord'.symm.trans hrecord)
  have hclosersSize := encodeSizes_peerFields_le hlawful hclosers
  have hprovidersSize := encodeSizes_peerFields_le hlawful hproviders
  simp only [encodeSizes, List.map_append, List.sum_append, List.map_cons, List.sum_cons, List.map_nil,
    List.sum_nil, FieldValue.size, messageSize] at *
  omega

/-- The fields of a message are there if its peers fit into their buffers. -/
theorem messageFields_isSome_iff (hlawful : lib.Lawful) {message : KademliaMessage μ}
    (hrecordMax : recordSize message.record < 2 ^ 64) :
    (message.fields lib addrs).isSome ↔
      ∀ peer ∈ message.closerPeers ++ message.providerPeers, (peerBuffer lib addrs peer).isSome := by
  obtain ⟨record, hrecord, -⟩ := exists_recordFields hlawful hrecordMax
  have hcloserFields : (peerFields lib addrs 8 message.closerPeers).isSome ↔
      ∀ peer ∈ message.closerPeers, (peerBuffer lib addrs peer).isSome := peerFields_isSome_iff
  have hproviderFields : (peerFields lib addrs 9 message.providerPeers).isSome ↔
      ∀ peer ∈ message.providerPeers, (peerBuffer lib addrs peer).isSome := peerFields_isSome_iff
  rw [List.forall_mem_append, ← hcloserFields, ← hproviderFields, KademliaMessage.fields, hrecord]
  cases peerFields lib addrs 8 message.closerPeers <;>
    cases peerFields lib addrs 9 message.providerPeers <;> simp

/-- **Kademlia messages.** A message decodes to itself exactly if each of its peers fits into the buffer
whose size is counted in an `int`. One of less than 2^31 bytes does, and one of up to twice as many does not. -/
theorem messageDecode_eq_iff (hlawful : lib.Lawful) (message : KademliaMessage μ)
    (hkey : ∀ record, message.record = some record → 0 ∉ record.key)
    (hclosers : ∀ peer ∈ message.closerPeers, RoundTrips addrs peer)
    (hproviders : ∀ peer ∈ message.providerPeers, RoundTrips addrs peer) {maxOut : Nat}
    (hspace : messageSize addrs message ≤ maxOut) (hmax : maxOut < 2 ^ 64) :
    ((∃ out, messageEncode lib addrs message maxOut = some out ∧
        ∀ heap behind, messageDecode lib addrs heap out behind = some message) ↔
      ∀ peer ∈ message.closerPeers ++ message.providerPeers, (peerBuffer lib addrs peer).isSome) ∧
      ∀ peer ∈ message.closerPeers ++ message.providerPeers,
        (peerSize addrs peer < intBound → (peerBuffer lib addrs peer).isSome) ∧
          (intBound ≤ peerSize addrs peer → peerSize addrs peer < 2 * intBound →
            peerBuffer lib addrs peer = none) := by
  refine ⟨?_, fun peer _ => ⟨peerBuffer_isSome hlawful, peerBuffer_eq_none⟩⟩
  have hrecordMax : recordSize message.record < 2 ^ 64 := by
    rw [messageSize] at hspace
    omega
  rw [← messageFields_isSome_iff hlawful hrecordMax, Option.isSome_iff_exists]
  constructor
  · rintro ⟨out, hencode, -⟩
    obtain ⟨fields, hfields, -⟩ := Option.bind_eq_some_iff.mp hencode
    exact ⟨fields, hfields⟩
  · rintro ⟨fields, hfields⟩
    have hstores : ∀ heap, StoresAll lib (messageField lib addrs heap) fields .new message :=
      fun heap => messageFields_stores hlawful hkey hclosers hproviders hfields
    have hsize := encodeSizes_messageFields_le hlawful (Nat.lt_of_le_of_lt hspace hmax) hfields
    obtain ⟨out, hout⟩ := exists_encode hlawful (hstores id).encodable hmax (Nat.le_trans hsize hspace)
    refine ⟨out, by rw [messageEncode, hfields, Option.bind_some, hout], fun heap behind => ?_⟩
    exact ((hstores heap).fieldSteps hlawful hout).decodeBuffer behind

/-! ### Two messages -/

/-- Addresses that are their bytes. -/
def plainAddresses : MultiaddrBytes Bytes := ⟨id, some⟩

def somePeers : KademliaMessage Bytes :=
  ⟨1, some [9], some ⟨[7], [1], [], [], []⟩, [⟨[1], [some [4], some [5]], 2⟩, ⟨[2], [], 0⟩],
    [⟨[3], [some [6]], 1⟩], -1⟩

theorem messageDecode_eq_iff_somePeers :
    ∃ out, messageEncode .varints plainAddresses somePeers 400 = some out ∧
      ∀ heap behind, messageDecode .varints plainAddresses heap out behind = some somePeers := by
  have hkey : ∀ record, somePeers.record = some record → 0 ∉ record.key := by
    intro record hrecord
    cases hrecord
    decide
  have hclosers : ∀ peer ∈ somePeers.closerPeers, RoundTrips plainAddresses peer := by
    simp [somePeers, RoundTrips, plainAddresses]
  have hproviders : ∀ peer ∈ somePeers.providerPeers, RoundTrips plainAddresses peer := by
    simp [somePeers, RoundTrips, plainAddresses]
  have hspace : messageSize plainAddresses somePeers ≤ 400 := by decide
  obtain ⟨hdecodes, hfits⟩ := messageDecode_eq_iff fieldLibrary_varints_lawful somePeers hkey hclosers hproviders
    hspace (by decide)
  have hsizes : ∀ peer ∈ somePeers.closerPeers ++ somePeers.providerPeers,
      peerSize plainAddresses peer < intBound := by
    decide
  exact hdecodes.mpr fun peer hpeer => (hfits peer hpeer).1 (hsizes peer hpeer)

def onePeer (id : Bytes) : KademliaMessage Bytes := ⟨1, none, none, [⟨id, [], 0⟩], [], 0⟩

theorem messageEncode_onePeer {id : Bytes} (hlength : id.length + 22 = intBound) (maxOut : Nat) :
    messageEncode .varints plainAddresses (onePeer id) maxOut = none := by
  have hsize : peerSize plainAddresses ⟨id, [], 0⟩ = intBound := by
    rw [← hlength]
    simp [peerSize, SentPeer.fields, encodeSizes, FieldValue.size, maxFieldHeader]
    omega
  have hnone : peerBuffer .varints plainAddresses ⟨id, [], 0⟩ = none :=
    peerBuffer_eq_none (Nat.le_of_eq hsize.symm) (by rw [hsize]; decide)
  have hclosers : peerFields .varints plainAddresses 8 [⟨id, [], 0⟩] = none := by
    rw [peerFields, List.mapM_cons, hnone]
    rfl
  have hfields : (onePeer id).fields .varints plainAddresses = none := by
    rw [KademliaMessage.fields, onePeer, hclosers]
    rfl
  rw [messageEncode, hfields, Option.bind_none]

/-- A peer whose id makes it 2^31 bytes keeps its message from being encoded. -/
theorem messageDecode_eq_fails :
    ¬ ∃ maxOut out, messageEncode .varints plainAddresses
        (onePeer (List.replicate (intBound - 22) 0)) maxOut = some out := by
  rintro ⟨maxOut, out, hencode⟩
  have hlength : (List.replicate (intBound - 22) (0 : UInt8)).length + 22 = intBound := by
    rw [List.length_replicate]
    decide
  rw [messageEncode_onePeer hlength] at hencode
  cases hencode

end CLibp2p.Record
