import CLibp2p.Proof.Message
import CLibp2p.Proof.SecioMessages
import Mathlib.Algebra.Order.BigOperators.Group.List
import Mathlib.Algebra.Order.Group.Nat

/-!
# Buffers of the size that is asked for

Each size function counts as much as its encoder can need, also where the encoder puts one message into
another. A size that an `int` cannot hold is the one thing that they get wrong.
-/

namespace CLibp2p.Record

open Duplex Peer Secio

variable {lib : FieldLibrary} {μ : Type}

/-- The size of a message, counted without an `int` on the way. -/
def messageTotal (addrs : MultiaddrBytes μ) (message : KademliaMessage μ) : Nat :=
  maxFieldHeader + maxFieldHeader + ((message.key.getD []).length + maxFieldHeader) +
    (maxFieldHeader + (message.record.map recordEncodeSize).getD 0) +
    peerSizes addrs message.closerPeers + peerSizes addrs message.providerPeers

/-- Into a buffer of this size something is encoded, and it fits. -/
def EncodesInto (encode : (maxOut : Nat) → Option Bytes) (size : Nat) : Prop :=
  ∃ out, encode size = some out ∧ out.length ≤ size

variable {addrs : MultiaddrBytes μ}

theorem peerEncodeSize_of_lt {peer : SentPeer μ} (hsize : peerSize addrs peer < intBound) :
    peerEncodeSize addrs peer = peerSize addrs peer := by
  rw [peerEncodeSize_eq, sizeOfInt_intOfSize hsize]

theorem fields_encodesInto (hlawful : lib.Lawful) {fields : List (Nat × FieldValue)}
    (hencodable : ∀ entry ∈ fields, Encodable entry) {size : Nat} (hspace : encodeSizes fields ≤ size)
    (hmax : size < intBound) : EncodesInto (lib.encode fields) size := by
  obtain ⟨out, hout⟩ := exists_encode hlawful hencodable (Nat.lt_trans hmax (by decide)) hspace
  exact ⟨out, hout, length_encode_le_maxOut hlawful hencodable hout⟩

/-! ### One level -/

theorem recordFields_encodable (record : Libp2pRecord) : ∀ entry ∈ record.fields, Encodable entry := by
  intro entry hentry
  simp only [Libp2pRecord.fields, List.mem_cons, List.not_mem_nil, or_false] at hentry
  rcases hentry with rfl | rfl | rfl | rfl | rfl <;> exact encodable_bytes (by decide) (by decide) _

theorem record_encodesInto (hlawful : lib.Lawful) {record : Libp2pRecord}
    (hsize : recordEncodeSize record < intBound) :
    EncodesInto (recordEncode lib record) (recordEncodeSize record) :=
  fields_encodesInto hlawful (recordFields_encodable record) (Nat.le_refl _) hsize

theorem peer_encodesInto (hlawful : lib.Lawful) {peer : SentPeer μ}
    (hsize : peerSize addrs peer < intBound) :
    EncodesInto (peerEncode lib addrs peer) (peerEncodeSize addrs peer) := by
  rw [peerEncodeSize_of_lt hsize]
  exact fields_encodesInto hlawful (peerFields_encodable peer) (Nat.le_refl _) hsize

/-- A proposal, whose encoder is always given a buffer of that size. -/
theorem propose_encodesInto (hlawful : lib.Lawful) {propose : Propose}
    (hsize : encodeSize propose.fields < intBound) :
    EncodesInto (fun _ => proposeEncode lib.toProtobuf propose) (encodeSize propose.fields) := by
  have hfields : ∀ entry ∈ propose.fields, 0 < entry.1 ∧ entry.1 < 16 := by
    intro entry hentry
    simp only [Propose.fields, List.mem_cons, List.not_mem_nil, or_false] at hentry
    rcases hentry with rfl | rfl | rfl | rfl | rfl <;>
      exact ⟨Nat.succ_pos _, by dsimp only; omega⟩
  have hcomplete := encodeFields_complete hlawful.toLawful hfields (Nat.le_refl _)
    (Nat.lt_trans hsize (by decide))
  have hlength := length_encodeFields_le hlawful.toLawful propose.fields (encodeSize propose.fields)
  rw [EncodesInto, proposeEncode]
  generalize encodeFields lib.toProtobuf propose.fields (encodeSize propose.fields) = written at *
  obtain ⟨out, complete⟩ := written
  obtain rfl : complete = true := hcomplete
  exact ⟨out, rfl, hlength⟩

/-! ### Messages inside messages -/

theorem peerFields_all_encodable {fieldNo : Nat} (hpos : 0 < fieldNo) (hsmall : fieldNo < 16)
    {peers : List (SentPeer μ)} {fields : List (Nat × FieldValue)}
    (hfields : peerFields lib addrs fieldNo peers = some fields) :
    ∀ entry ∈ fields, Encodable entry := by
  induction peers generalizing fields with
  | nil =>
      cases hfields
      exact List.forall_mem_nil _
  | cons peer peers ih =>
      obtain ⟨buffer, rest, -, hrest, rfl⟩ := peerFields_cons hfields
      exact List.forall_mem_cons.mpr ⟨encodable_bytes hpos hsmall buffer, ih hrest⟩

theorem messageFields_encodable {message : KademliaMessage μ} {fields : List (Nat × FieldValue)}
    (hfields : message.fields lib addrs = some fields) : ∀ entry ∈ fields, Encodable entry := by
  obtain ⟨record, closers, providers, hrecord, hclosers, hproviders, rfl⟩ := messageFields_eq hfields
  have hkey : ∀ entry ∈ message.key.toList.map fun key => ((2, .bytes key) : Nat × FieldValue),
      Encodable entry := by
    intro entry hentry
    obtain ⟨key, -, rfl⟩ := List.mem_map.mp hentry
    exact encodable_bytes (by decide) (by decide) key
  have hinner : ∀ entry ∈ record, Encodable entry := by
    cases hmessage : message.record with
    | none =>
        rw [hmessage] at hrecord
        cases hrecord
        exact List.forall_mem_nil _
    | some inner =>
        rw [hmessage] at hrecord
        obtain ⟨buffer, -, rfl⟩ := Option.map_eq_some_iff.mp hrecord
        exact List.forall_mem_singleton.mpr (encodable_bytes (by decide) (by decide) buffer)
  simp only [List.forall_mem_append, List.forall_mem_cons]
  exact ⟨⟨⟨⟨⟨encodable_varint (by decide) (by decide) _, hkey⟩, hinner⟩,
    peerFields_all_encodable (by decide) (by decide) hclosers⟩,
    peerFields_all_encodable (by decide) (by decide) hproviders⟩,
    encodable_varint (by decide) (by decide) _, List.forall_mem_nil _⟩

theorem peerSize_le_of_mem (addrs : MultiaddrBytes μ) {peers : List (SentPeer μ)} {peer : SentPeer μ}
    (hpeer : peer ∈ peers) :
    peerSize addrs peer ≤ peerSizes addrs peers := by
  have hle : maxFieldHeader + peerSize addrs peer ≤ peerSizes addrs peers :=
    List.le_sum_of_mem (List.mem_map_of_mem hpeer)
  exact Nat.le_trans (Nat.le_add_left _ _) hle

theorem sum_peerEncodeSize {peers : List (SentPeer μ)} (hsize : peerSizes addrs peers < intBound) :
    (peers.map fun peer => maxFieldHeader + peerEncodeSize addrs peer).sum = peerSizes addrs peers := by
  rw [peerSizes]
  refine congrArg List.sum (List.map_congr_left fun peer hpeer => ?_)
  rw [peerEncodeSize_of_lt (Nat.lt_of_le_of_lt (peerSize_le_of_mem addrs hpeer) hsize)]

theorem messageEncodeSize_of_lt {message : KademliaMessage μ}
    (hsize : messageTotal addrs message < intBound) :
    messageEncodeSize addrs message = messageTotal addrs message := by
  have hclosers : peerSizes addrs message.closerPeers < intBound := by
    rw [messageTotal] at hsize
    omega
  have hproviders : peerSizes addrs message.providerPeers < intBound := by
    rw [messageTotal] at hsize
    omega
  rw [messageEncodeSize, sum_peerEncodeSize hclosers, sum_peerEncodeSize hproviders, ← messageTotal]
  exact Nat.mod_eq_of_lt (Nat.lt_trans hsize (by decide))

theorem messageSize_le_messageTotal (addrs : MultiaddrBytes μ) (message : KademliaMessage μ) :
    messageSize addrs message ≤ messageTotal addrs message := by
  have hkey : encodeSizes (message.key.toList.map fun key => (2, .bytes key)) ≤
      (message.key.getD []).length + maxFieldHeader := by
    cases message.key with
    | none => exact Nat.zero_le _
    | some key =>
        have hone : encodeSizes ((some key).toList.map fun key => (2, .bytes key)) =
            maxFieldHeader + key.length := rfl
        rw [hone, Nat.add_comm]
        exact Nat.le_refl _
  have hrecord : recordSize message.record ≤
      maxFieldHeader + (message.record.map recordEncodeSize).getD 0 := by
    cases message.record with
    | none => exact Nat.zero_le _
    | some record => exact Nat.le_refl _
  rw [messageSize, messageTotal]
  omega

theorem message_encodesInto (hlawful : lib.Lawful) {message : KademliaMessage μ}
    (hsize : messageTotal addrs message < intBound) :
    EncodesInto (messageEncode lib addrs message) (messageEncodeSize addrs message) := by
  have hrecordMax : recordSize message.record < 2 ^ 64 := by
    have hle := messageSize_le_messageTotal addrs message
    have hbound : intBound ≤ 2 ^ 64 := by decide
    rw [messageSize] at hle
    omega
  have hbuffers : ∀ peer ∈ message.closerPeers ++ message.providerPeers,
      (peerBuffer lib addrs peer).isSome := by
    intro peer hpeer
    refine peerBuffer_isSome hlawful (Nat.lt_of_le_of_lt ?_ hsize)
    rw [messageTotal]
    rcases List.mem_append.mp hpeer with hcloser | hprovider
    · have hle := peerSize_le_of_mem addrs hcloser
      omega
    · have hle := peerSize_le_of_mem addrs hprovider
      omega
  obtain ⟨fields, hfields⟩ :=
    Option.isSome_iff_exists.mp ((messageFields_isSome_iff hlawful hrecordMax).mpr hbuffers)
  have hmessage : messageEncode lib addrs message = lib.encode fields := by
    funext maxOut
    rw [messageEncode, hfields, Option.bind_some]
  have hle := messageSize_le_messageTotal addrs message
  have hspace : encodeSizes fields ≤ messageTotal addrs message :=
    Nat.le_trans (encodeSizes_messageFields_le hlawful
      (Nat.lt_of_le_of_lt hle (Nat.lt_trans hsize (by decide))) hfields) hle
  rw [messageEncodeSize_of_lt hsize, hmessage]
  exact fields_encodesInto hlawful (messageFields_encodable hfields) hspace hsize

/-- **Buffers of the size that is asked for.** A message, a record, a peer and a proposal of less than
2^31 bytes are encoded into buffers of exactly the sizes that their size functions return. -/
theorem encodesInto_encodeSize (hlawful : lib.Lawful) (addrs : MultiaddrBytes μ) :
    (∀ message, messageTotal addrs message < intBound →
        EncodesInto (messageEncode lib addrs message) (messageEncodeSize addrs message)) ∧
      (∀ record, recordEncodeSize record < intBound →
        EncodesInto (recordEncode lib record) (recordEncodeSize record)) ∧
      (∀ peer, peerSize addrs peer < intBound →
        EncodesInto (peerEncode lib addrs peer) (peerEncodeSize addrs peer)) ∧
      ∀ propose : Propose, encodeSize propose.fields < intBound →
        EncodesInto (fun _ => proposeEncode lib.toProtobuf propose) (encodeSize propose.fields) :=
  ⟨fun _ => message_encodesInto hlawful, fun _ => record_encodesInto hlawful,
    fun _ => peer_encodesInto hlawful, fun _ => propose_encodesInto hlawful⟩

theorem encodesInto_encodeSize_somePeers :
    EncodesInto (messageEncode .varints plainAddresses somePeers)
      (messageEncodeSize plainAddresses somePeers) :=
  (encodesInto_encodeSize fieldLibrary_varints_lawful plainAddresses).1 somePeers (by decide)

end CLibp2p.Record
