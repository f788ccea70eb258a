import CLibp2p.Crypto.Key
import CLibp2p.Identify.Identify
import CLibp2p.Proof.Message
import CLibp2p.Proof.ProtobufReach

/-!
# When a decoder sees only its buffer

A decoder bounds a tag by the size of the whole buffer, so a tag at its end that wants one more byte takes it
from behind. Then the bound on the payload is below zero, which is no bound in a `size_t`. Everything else is
bounded as it should be: without such a tag no decoder depends on what lies behind its buffer.
-/

namespace CLibp2p

open Duplex

/-! ### Payloads that are accepted -/

theorem exists_lengthDelimited {pb : Protobuf} (hlawful : pb.Lawful) :
    ∃ payload : Bytes, payload.length ≤ maxFieldHeader ∧ ∀ rest,
      pb.decodeLengthDelimited (payload ++ rest) = some ([], payload.length) := by
  obtain ⟨out, hout⟩ := hlawful.encodes 1 [] maxFieldHeader (by decide) (by decide) (by decide) (by decide)
  obtain ⟨headerBytes, varintLength, -, hlength, -, hreads⟩ :=
    hlawful.decodes 1 [] maxFieldHeader out (by decide) (by decide) hout
  have hfits := hlawful.fits 1 [] maxFieldHeader out hout
  rw [List.length_nil, Nat.add_zero] at hlength
  have hdrop : (out.drop headerBytes).length = varintLength := by
    rw [List.length_drop]
    omega
  refine ⟨out.drop headerBytes, by omega, fun rest => ?_⟩
  rw [← List.drop_append_of_le_length (by omega), (hreads rest).2.2, hdrop, List.length_nil, Nat.add_zero]

theorem exists_varint {lib : FieldLibrary} (hlawful : lib.Lawful) :
    ∃ payload : Bytes, 0 < payload.length ∧ payload.length ≤ maxFieldHeader ∧ ∀ rest,
      lib.varintDecode (payload ++ rest) = (0, payload.length) := by
  obtain ⟨out, hout⟩ :=
    hlawful.varintEncodes 1 0 maxFieldHeader (by decide) (by decide) (by decide) (by decide)
  obtain ⟨headerBytes, varintLength, hpos, hlength, hreads⟩ :=
    hlawful.varintDecodes 1 0 maxFieldHeader out (by decide) (by decide) hout
  have hfits := hlawful.varintFits 1 0 maxFieldHeader out hout
  have hdrop : (out.drop headerBytes).length = varintLength := by
    rw [List.length_drop]
    omega
  refine ⟨out.drop headerBytes, by omega, by omega, fun rest => ?_⟩
  rw [← List.drop_append_of_le_length (by omega), (hreads rest).2, hdrop]

section

variable {lib : FieldLibrary} {ρ : Type}

/-- Some payload is read by this handler, whatever follows it. -/
def Readable (read : Bytes → Option (ρ × Nat)) : Prop :=
  ∃ payload : Bytes, payload.length ≤ maxFieldHeader ∧ ∀ rest, ∃ result, read (payload ++ rest) = some result

theorem readable_lengthDelimited (hlawful : lib.Lawful) (set : Bytes → ρ) :
    Readable fun input => lengthDelimited lib.toProtobuf input set := by
  obtain ⟨payload, hlength, hread⟩ := exists_lengthDelimited hlawful.toLawful
  refine ⟨payload, hlength, fun rest => ⟨(set [], payload.length), ?_⟩⟩
  dsimp only
  rw [lengthDelimited, hread]

theorem readable_stringField (hlawful : lib.Lawful) (set : Bytes → ρ) :
    Readable fun input => stringField lib input set := by
  obtain ⟨payload, hlength, hread⟩ := exists_lengthDelimited hlawful.toLawful
  refine ⟨payload, hlength, fun rest => ⟨(set [], payload.length), ?_⟩⟩
  dsimp only
  rw [stringField, hlawful.decodesString, hread]

theorem readable_varintField (hlawful : lib.Lawful) (set : UInt64 → ρ) :
    Readable fun input => varintField lib.toProtobuf input set := by
  obtain ⟨payload, hpos, hlength, hread⟩ := exists_varint hlawful
  obtain ⟨count, hcount⟩ : ∃ n, payload.length = n + 1 := ⟨payload.length - 1, by omega⟩
  refine ⟨payload, hlength, fun rest => ⟨(set 0, count + 1), ?_⟩⟩
  dsimp only
  rw [varintField, hread, hcount]
  rfl

theorem readable_skip (record : ρ) : Readable fun _ => some (record, 0) :=
  ⟨[], by decide, fun _ => ⟨_, rfl⟩⟩

/-- A decoder that gives back what it has read. -/
theorem prefixOnly_iff_of_readable {field : (fieldNo : Nat) → Bytes → ρ → Option (ρ × Nat)} {start : ρ}
    {accepts : (fieldNo : Nat) → ρ → Prop} (htags : lib.ReadsTags) {input : Bytes}
    (hsize : input.length < mallocBound)
    (hreadable : ∀ fieldNo record, accepts fieldNo record →
      Readable fun input => field fieldNo input record)
    (haccepts : ∀ fieldNo input record result, field fieldNo input record = some result →
      accepts fieldNo record) :
    PrefixOnly (fun input behind => decodeBuffer lib.toProtobuf field input behind start) input ↔
      ¬ CutOff lib.toProtobuf field start accepts input := by
  have hiff := prefixOnly_iff start accepts some htags hsize
    (fun fieldNo record haccepted => by
      obtain ⟨payload, hlength, hread⟩ := hreadable fieldNo record haccepted
      refine ⟨payload, hlength, fun rest => ?_⟩
      obtain ⟨result, hresult⟩ := hread rest
      exact ⟨result, hresult, rfl⟩)
    fun fieldNo input record result hread _ => haccepts fieldNo input record result hread
  rw [← hiff]
  simp only [Option.bind_fun_some]

/-- One that accepts every field number. -/
theorem prefixOnly_iff_of_all_readable {field : (fieldNo : Nat) → Bytes → ρ → Option (ρ × Nat)}
    {start : ρ} (htags : lib.ReadsTags) {input : Bytes} (hsize : input.length < mallocBound)
    (hreadable : ∀ fieldNo record, Readable fun input => field fieldNo input record) :
    PrefixOnly (fun input behind => decodeBuffer lib.toProtobuf field input behind start) input ↔
      ¬ CutOff lib.toProtobuf field start (fun _ _ => True) input :=
  prefixOnly_iff_of_readable htags hsize (fun fieldNo record _ => hreadable fieldNo record)
    fun _ _ _ _ _ => trivial

end

/-! ### The decoders without messages inside -/

section

variable {lib : FieldLibrary} {μ : Type} {addrs : Peer.MultiaddrBytes μ}

theorem recordField_readable (hlawful : lib.Lawful) (fieldNo : Nat) (record : Record.Libp2pRecord) :
    Readable fun input => Record.recordField lib fieldNo input record := by
  match fieldNo with
  | 1 => exact readable_stringField hlawful _
  | 2 | 3 | 4 | 5 => exact readable_lengthDelimited hlawful _
  | 0 | _ + 6 => exact readable_skip record

theorem peerField_readable (hlawful : lib.Lawful) (fieldNo : Nat) (peer : Peer.SentPeer μ) :
    Readable fun input => Peer.peerField lib addrs fieldNo input peer := by
  match fieldNo with
  | 1 | 2 => exact readable_lengthDelimited hlawful _
  | 3 => exact readable_varintField hlawful _
  | 0 | _ + 4 => exact readable_skip peer

theorem publicKeyField_readable (hlawful : lib.Lawful) (fieldNo : Nat) (record : Secio.PublicKey) :
    Readable fun input => Secio.publicKeyField lib.toProtobuf fieldNo input record := by
  match fieldNo with
  | 1 => exact readable_varintField hlawful _
  | 2 => exact readable_lengthDelimited hlawful _
  | 0 | _ + 3 => exact readable_skip record

theorem privateKeyField_readable (hlawful : lib.Lawful) (fieldNo : Nat) (record : Crypto.PrivateKey) :
    Readable fun input => Crypto.privateKeyField lib.toProtobuf fieldNo input record := by
  match fieldNo with
  | 1 => exact readable_varintField hlawful _
  | 2 => exact readable_lengthDelimited hlawful _
  | 0 | _ + 3 => exact readable_skip record

theorem exchangeField_readable (hlawful : lib.Lawful) (fieldNo : Nat) (record : Secio.Exchange) :
    Readable fun input => Secio.exchangeField lib.toProtobuf fieldNo input record := by
  match fieldNo with
  | 1 | 2 => exact readable_lengthDelimited hlawful _
  | 0 | _ + 3 => exact readable_skip record

theorem identifyField_readable (hlawful : lib.Lawful) (fieldNo : Nat) (identify : Identify) :
    Readable fun input => identifyField lib fieldNo input identify := by
  match fieldNo with
  | 1 | 2 | 3 | 4 | 5 | 6 | 0 | _ + 7 => exact readable_stringField hlawful _

/-- A proposal has to have some field that is known. -/
def ProposeAccepts (fieldNo : Nat) (record : Secio.Propose × Bool) : Prop :=
  record.2 = true ∨ 1 ≤ fieldNo ∧ fieldNo ≤ 5

def proposeFinish (record : Secio.Propose × Bool) : Option Secio.Propose :=
  if record.2 then some record.1 else none

theorem proposeDecode_eq (pb : Protobuf) (input behind : Bytes) :
    Secio.proposeDecode pb input behind =
      (decodeBuffer pb (Secio.proposeField pb) input behind (⟨[], [], [], [], []⟩, false)).bind
        proposeFinish := by
  rw [Secio.proposeDecode]
  rcases decodeBuffer pb (Secio.proposeField pb) input behind (⟨[], [], [], [], []⟩, false) with
    - | ⟨propose, - | -⟩ <;> rfl

theorem proposeKnown_readable (hlawful : lib.Lawful) (set : Bytes → Secio.Propose) :
    ∃ payload : Bytes, payload.length ≤ maxFieldHeader ∧ ∀ rest, ∃ result,
      lengthDelimited lib.toProtobuf (payload ++ rest) (fun data => (set data, true)) = some result ∧
        (proposeFinish result.1).isSome := by
  obtain ⟨payload, hlength, hread⟩ := exists_lengthDelimited hlawful.toLawful
  refine ⟨payload, hlength, fun rest => ⟨((set [], true), payload.length), ?_, rfl⟩⟩
  rw [lengthDelimited, hread]

theorem proposeField_readable (hlawful : lib.Lawful) (fieldNo : Nat) (record : Secio.Propose × Bool)
    (haccepts : ProposeAccepts fieldNo record) :
    ∃ payload : Bytes, payload.length ≤ maxFieldHeader ∧ ∀ rest, ∃ result,
      Secio.proposeField lib.toProtobuf fieldNo (payload ++ rest) record = some result ∧
        (proposeFinish result.1).isSome := by
  match fieldNo with
  | 1 | 2 | 3 | 4 | 5 => exact proposeKnown_readable hlawful _
  | 0 | _ + 6 =>
      obtain hsome | hknown := haccepts
      · refine ⟨[], by decide, fun rest => ⟨(record, 0), rfl, ?_⟩⟩
        rw [proposeFinish, hsome]
        rfl
      · omega

theorem proposeField_accepts {pb : Protobuf} (fieldNo : Nat) (input : Bytes)
    (record : Secio.Propose × Bool) (result : (Secio.Propose × Bool) × Nat)
    (hread : Secio.proposeField pb fieldNo input record = some result)
    (hfinish : (proposeFinish result.1).isSome) : ProposeAccepts fieldNo record := by
  match fieldNo with
  | 1 | 2 | 3 | 4 | 5 => exact Or.inr ⟨by decide, by decide⟩
  | 0 | _ + 6 =>
      cases hread
      refine Or.inl ?_
      by_contra hnone
      rw [proposeFinish, if_neg hnone] at hfinish
      cases hfinish

end

/-! ### The decoder of messages with messages inside -/

section

variable {lib : FieldLibrary} {ρ τ : Type}

theorem decodeBuffer_eq_of_readable {pb : Protobuf}
    {field : (fieldNo : Nat) → Bytes → ρ → Option (ρ × Nat)} {start : ρ} {input : Bytes}
    (htags : pb.ReadsTags) (hcut : ¬ CutOff pb field start (fun _ _ => True) input)
    (behind behind' : Bytes) :
    decodeBuffer pb field input behind start = decodeBuffer pb field input behind' start := by
  have heq := decodeBuffer_eq_of_not_cutOff some htags (fun _ _ _ _ _ _ => trivial) hcut
    behind behind'
  rwa [Option.bind_fun_some, Option.bind_fun_some] at heq

theorem readable_nestedField (hlawful : lib.Lawful) (heap : Bytes → Bytes)
    {decode : (input behind : Bytes) → Option τ} (hempty : ∀ behind, ∃ inner, decode [] behind = some inner)
    (set : τ → ρ) : Readable fun input => Record.nestedField lib.toProtobuf heap decode input set := by
  obtain ⟨payload, hlength, hread⟩ := exists_lengthDelimited hlawful.toLawful
  refine ⟨payload, hlength, fun rest => ?_⟩
  obtain ⟨inner, hinner⟩ := hempty (heap (payload ++ rest))
  refine ⟨(set inner, payload.length), ?_⟩
  dsimp only
  rw [Record.nestedField, hread]
  dsimp only
  rw [hinner, Option.map_some]

theorem nestedField_eq {pb : Protobuf} {decode : (input behind : Bytes) → Option τ} {input : Bytes}
    {heap heap' : Bytes → Bytes}
    (hdecode : ∀ buffer count, pb.decodeLengthDelimited input = some (buffer, count) →
      decode buffer (heap input) = decode buffer (heap' input)) (set : τ → ρ) :
    Record.nestedField pb heap decode input set = Record.nestedField pb heap' decode input set := by
  rw [Record.nestedField, Record.nestedField]
  cases hread : pb.decodeLengthDelimited input with
  | none => rfl
  | some result =>
      dsimp only
      rw [hdecode result.1 result.2 hread]

theorem nestedField_eq_none {pb : Protobuf} {decode : (input behind : Bytes) → Option τ}
    {input buffer : Bytes} {count : Nat} {heap : Bytes → Bytes}
    (hread : pb.decodeLengthDelimited input = some (buffer, count))
    (hnone : decode buffer (heap input) = none) (set : τ → ρ) :
    Record.nestedField pb heap decode input set = none := by
  rw [Record.nestedField, hread]
  dsimp only
  rw [hnone, Option.map_none]

end

namespace Record

variable {lib : FieldLibrary} {μ : Type} {addrs : Peer.MultiaddrBytes μ}

theorem messageField_readable (hlawful : lib.Lawful) (heap : Bytes → Bytes) {fieldNo : Nat}
    (hknown : 1 ≤ fieldNo ∧ fieldNo ≤ 10) (message : KademliaMessage μ) :
    Readable fun input => messageField lib addrs heap fieldNo input message := by
  match fieldNo with
  | 1 | 10 => exact readable_varintField hlawful _
  | 2 => exact readable_lengthDelimited hlawful _
  | 3 => exact readable_nestedField hlawful heap (fun _ => ⟨.new, rfl⟩) _
  | 8 | 9 => exact readable_nestedField hlawful heap (fun _ => ⟨.new, rfl⟩) _
  | 4 | 5 | 6 | 7 => exact readable_skip message
  | 0 | _ + 11 => omega

theorem messageField_known {heap : Bytes → Bytes} {fieldNo : Nat} {input : Bytes}
    {message : KademliaMessage μ} {result : KademliaMessage μ × Nat}
    (hread : messageField lib addrs heap fieldNo input message = some result) :
    1 ≤ fieldNo ∧ fieldNo ≤ 10 := by
  unfold messageField at hread
  split at hread
  · cases hread
  · omega

/-- The decoder of this record or peer looks behind its copy. -/
def NestedCutOff (lib : FieldLibrary) (addrs : Peer.MultiaddrBytes μ) (fieldNo : Nat) (buffer : Bytes) :
    Prop :=
  (fieldNo = 3 ∧ CutOff lib.toProtobuf (recordField lib) .new (fun _ _ => True) buffer) ∨
    (fieldNo = 8 ∨ fieldNo = 9) ∧
      CutOff lib.toProtobuf (Peer.peerField lib addrs) .new (fun _ _ => True) buffer

theorem messageField_congr {fieldNo : Nat} {input : Bytes} {heap heap' : Bytes → Bytes}
    (hrecord : fieldNo = 3 → ∀ buffer count, lib.decodeLengthDelimited input = some (buffer, count) →
      recordDecode lib buffer (heap input) = recordDecode lib buffer (heap' input))
    (hpeer : fieldNo = 8 ∨ fieldNo = 9 → ∀ buffer count,
      lib.decodeLengthDelimited input = some (buffer, count) →
      Peer.peerDecode lib addrs buffer (heap input) = Peer.peerDecode lib addrs buffer (heap' input))
    (message : KademliaMessage μ) :
    messageField lib addrs heap fieldNo input message =
      messageField lib addrs heap' fieldNo input message := by
  match fieldNo with
  | 3 => exact nestedField_eq (hrecord rfl) _
  | 8 => exact nestedField_eq (hpeer (Or.inl rfl)) _
  | 9 => exact nestedField_eq (hpeer (Or.inr rfl)) _
  | 0 | 1 | 2 | 4 | 5 | 6 | 7 | 10 | _ + 11 => rfl

theorem nestedDecode_eq (htags : lib.ReadsTags) {fieldNo : Nat} {buffer : Bytes}
    (hcut : ¬ NestedCutOff lib addrs fieldNo buffer) (behind behind' : Bytes) :
    (fieldNo = 3 → recordDecode lib buffer behind = recordDecode lib buffer behind') ∧
      (fieldNo = 8 ∨ fieldNo = 9 →
        Peer.peerDecode lib addrs buffer behind = Peer.peerDecode lib addrs buffer behind') :=
  ⟨fun hthree => decodeBuffer_eq_of_readable htags (fun hrecord => hcut (Or.inl ⟨hthree, hrecord⟩)) _ _,
    fun hpeer => decodeBuffer_eq_of_readable htags (fun hpeers => hcut (Or.inr ⟨hpeer, hpeers⟩)) _ _⟩

theorem messageField_eq (htags : lib.ReadsTags) {fieldNo : Nat} {input : Bytes}
    (hnested : ∀ buffer count, lib.decodeLengthDelimited input = some (buffer, count) →
      ¬ NestedCutOff lib addrs fieldNo buffer) (heap heap' : Bytes → Bytes) (message : KademliaMessage μ) :
    messageField lib addrs heap fieldNo input message =
      messageField lib addrs heap' fieldNo input message := by
  refine messageField_congr (fun hthree buffer count hread => ?_) (fun hpeer buffer count hread => ?_) message
  · exact (nestedDecode_eq htags (hnested buffer count hread) _ _).1 hthree
  · exact (nestedDecode_eq htags (hnested buffer count hread) _ _).2 hpeer

/-- Bytes behind the copy, as many as wanted, with which this record or peer cannot be decoded. -/
theorem NestedCutOff.exists_none (htags : lib.ReadsTags) {fieldNo : Nat} {input buffer : Bytes}
    {count : Nat} (hcut : NestedCutOff lib addrs fieldNo buffer)
    (hread : lib.decodeLengthDelimited input = some (buffer, count)) (size : Nat) :
    ∃ behind, size ≤ behind.length ∧ ∀ (heap : Bytes → Bytes) (message : KademliaMessage μ),
      heap input = behind → messageField lib addrs heap fieldNo input message = none := by
  obtain ⟨rfl, hcut⟩ | ⟨hpeer, hcut⟩ := hcut
  · obtain ⟨behind, hlength, hnone⟩ := hcut.exists_none htags size
    refine ⟨behind, hlength, fun heap message hheap => ?_⟩
    exact nestedField_eq_none hread (by rw [hheap]; exact hnone) _
  · obtain ⟨behind, hlength, hnone⟩ := hcut.exists_none htags size
    refine ⟨behind, hlength, fun heap message hheap => ?_⟩
    obtain rfl | rfl := hpeer
    · exact nestedField_eq_none hread (by rw [hheap]; exact hnone) _
    · exact nestedField_eq_none hread (by rw [hheap]; exact hnone) _

/-- Then some heap keeps the whole message from being decoded. -/
theorem NestedCutOff.exists_heap (htags : lib.ReadsTags) {input buffer : Bytes} {heap : Bytes → Bytes}
    {pos fieldNo type headerBytes count : Nat} {message : KademliaMessage μ}
    (hreached : Reached lib.toProtobuf (messageField lib addrs heap) input .new pos message)
    (htag : lib.decodeFieldAndType (input.drop pos) = some (fieldNo, type, headerBytes))
    (hbuffer : lib.decodeLengthDelimited (input.drop (pos + headerBytes)) = some (buffer, count))
    (hcut : NestedCutOff lib addrs fieldNo buffer) (size : Nat) :
    ∃ heap', (∀ rest, heap' rest = heap rest ∨ size ≤ (heap' rest).length) ∧
      ∀ behind, messageDecode lib addrs heap' input behind = none := by
  obtain ⟨behind, hlength, hnone⟩ := hcut.exists_none htags hbuffer size
  obtain ⟨hheader, -, -⟩ := htags.consumes _ _ _ _ htag
  have hpos := lt_length_of_tag htags htag
  -- the same heap, but for what lies behind this one copy
  let heap' : Bytes → Bytes := fun rest =>
    if rest = input.drop (pos + headerBytes) then behind else heap rest
  have hother : ∀ rest, rest ≠ input.drop (pos + headerBytes) → heap' rest = heap rest :=
    fun rest hne => if_neg hne
  have hthere : heap' (input.drop (pos + headerBytes)) = behind := if_pos rfl
  refine ⟨heap', fun rest => ?_, ?_⟩
  · by_cases hrest : rest = input.drop (pos + headerBytes)
    · rw [hrest, hthere]
      exact Or.inr hlength
    · exact Or.inl (hother rest hrest)
  · have hsame : ∀ fieldNo rest (message : KademliaMessage μ),
        (input.drop (pos + headerBytes)).length < rest.length →
        messageField lib addrs heap fieldNo rest message =
          messageField lib addrs heap' fieldNo rest message := by
      intro fieldNo rest message hlong
      have hrest := hother rest fun heq => by
        rw [heq] at hlong
        omega
      exact messageField_congr (fun _ _ _ _ => by rw [hrest]) (fun _ _ _ _ => by rw [hrest]) message
    have hreached' := hreached.congr hsame (by rw [List.length_drop]; omega)
    exact hreached'.decodeBuffer_field htags htag (hnone heap' message hthere)

/-- The buffer of the message ends within a tag, or that of a record or peer in a message which is otherwise
read to its end. -/
def MessageCutOff (lib : FieldLibrary) (addrs : Peer.MultiaddrBytes μ) (input : Bytes) : Prop :=
  ∃ heap, (∀ rest, input.length ≤ (heap rest).length) ∧
    (CutOff lib.toProtobuf (messageField lib addrs heap) .new
        (fun fieldNo _ => 1 ≤ fieldNo ∧ fieldNo ≤ 10) input ∨
      (∃ pos message fieldNo type headerBytes buffer count,
        Reached lib.toProtobuf (messageField lib addrs heap) input .new pos message ∧
        lib.decodeFieldAndType (input.drop pos) = some (fieldNo, type, headerBytes) ∧
        lib.decodeLengthDelimited (input.drop (pos + headerBytes)) = some (buffer, count) ∧
        NestedCutOff lib addrs fieldNo buffer) ∧
      ∃ pos message, Reached lib.toProtobuf (messageField lib addrs heap) input .new pos message ∧
        input.length ≤ pos)

/-- Whatever lies behind the buffer and behind the copies of what is inside. -/
def MessagePrefixOnly (lib : FieldLibrary) (addrs : Peer.MultiaddrBytes μ) (input : Bytes) : Prop :=
  ∀ heap heap', (∀ rest, input.length ≤ (heap rest).length) →
    (∀ rest, input.length ≤ (heap' rest).length) → ∀ behind behind', input.length ≤ behind.length →
    input.length ≤ behind'.length →
    messageDecode lib addrs heap input behind = messageDecode lib addrs heap' input behind'

/-- Without such a tag, what is decoded once is decoded always. -/
theorem messageDecode_eq_some (htags : lib.ReadsTags) {input : Bytes}
    (hcut : ¬ MessageCutOff lib addrs input) {heap : Bytes → Bytes}
    (hheap : ∀ rest, input.length ≤ (heap rest).length) {behind : Bytes} {message : KademliaMessage μ}
    (hdecode : messageDecode lib addrs heap input behind = some message) (heap' : Bytes → Bytes)
    (behind' : Bytes) : messageDecode lib addrs heap' input behind' = some message := by
  rw [messageDecode] at hdecode
  obtain ⟨pos, record, hreached, hend | ⟨hpos, hnone⟩ | hfield⟩ :=
    exists_stop htags (messageField lib addrs heap) input .new
  · rw [hreached.decodeBuffer_end htags hend] at hdecode
    obtain rfl := Option.some.inj hdecode
    have hother : ∀ pos record, Reached lib.toProtobuf (messageField lib addrs heap) input .new pos record →
        Reached lib.toProtobuf (messageField lib addrs heap') input .new pos record := by
      intro pos' record' hreached'
      induction hreached' with
      | start => exact .start
      | field hbefore htag hread ih =>
          refine ih.field htag ?_
          rw [← messageField_eq htags (fun buffer count hbuffer hnested => ?_) heap heap', hread]
          exact hcut ⟨heap, hheap, Or.inr ⟨⟨_, _, _, _, _, buffer, count, hbefore, htag, hbuffer, hnested⟩,
            pos, record, hreached, hend⟩⟩
    exact (hother pos record hreached).decodeBuffer_end htags hend behind'
  · rw [hreached.decodeBuffer_cut htags hpos hnone] at hdecode
    split at hdecode
    · cases hdecode
    · rename_i fieldNo type headerBytes htag
      obtain ⟨result, hread, -⟩ := Option.map_eq_some_iff.mp hdecode
      exact absurd ⟨heap, hheap, Or.inl ⟨pos, record, hreached, hpos, hnone, behind.take pos, fieldNo, type,
        headerBytes, List.length_take_le _ _, htag, messageField_known hread⟩⟩ hcut
  · obtain ⟨fieldNo, type, headerBytes, htag, hfield⟩ := hfield
    rw [hreached.decodeBuffer_field htags htag hfield] at hdecode
    cases hdecode

theorem messagePrefixOnly_iff (hlawful : lib.Lawful) (htags : lib.ReadsTags) {input : Bytes}
    (hsize : input.length < mallocBound) :
    MessagePrefixOnly lib addrs input ↔ ¬ MessageCutOff lib addrs input := by
  constructor
  · rintro hprefix ⟨heap, hheap, hcut | ⟨hnested, pos', message', hreached', hend⟩⟩
    · have hone : PrefixOnly (messageDecode lib addrs heap) input ↔
          ¬ CutOff lib.toProtobuf (messageField lib addrs heap) .new
            (fun fieldNo _ => 1 ≤ fieldNo ∧ fieldNo ≤ 10) input :=
        prefixOnly_iff_of_readable htags hsize
          (fun fieldNo message hknown => messageField_readable hlawful heap hknown message)
          fun _ _ _ _ => messageField_known
      exact hone.mp (fun behind behind' => hprefix heap heap hheap hheap behind behind') hcut
    · obtain ⟨pos, message, fieldNo, type, headerBytes, buffer, count, hreached, htag, hbuffer, hcut⟩ :=
        hnested
      obtain ⟨heap', hheap', hnone⟩ := hcut.exists_heap htags hreached htag hbuffer input.length
      have hlong : ∀ rest, input.length ≤ (heap' rest).length := by
        intro rest
        obtain hsame | hlong := hheap' rest
        · rw [hsame]
          exact hheap rest
        · exact hlong
      have hzeros : input.length ≤ (List.replicate input.length (0 : UInt8)).length :=
        Nat.le_of_eq List.length_replicate.symm
      have heq := hprefix heap heap' hheap hlong _ _ hzeros hzeros
      rw [hnone, messageDecode, hreached'.decodeBuffer_end htags hend] at heq
      cases heq
  · intro hcut heap heap' hheap hheap' behind behind' _ _
    refine Option.ext fun message => ⟨fun hdecode => ?_, fun hdecode => ?_⟩
    · exact messageDecode_eq_some htags hcut hheap hdecode heap' behind'
    · exact messageDecode_eq_some htags hcut hheap' hdecode heap behind

end Record

/-! ### All decoders -/

/-- **Only the buffer.** What lies behind its buffer matters to a decoder exactly if the buffer ends within a
tag that can be completed to a field the decoder takes: any for most of them, a known one for a proposal
without fields before it, one of the numbers 1 to 10 for a message, where the same goes for the copies of the
record and the peers in it. -/
theorem decoders_prefixOnly_iff {lib : FieldLibrary} {μ : Type} {addrs : Peer.MultiaddrBytes μ}
    (hlawful : lib.Lawful) (htags : lib.ReadsTags) (uninitialized : Int32) {input : Bytes}
    (hsize : input.length < mallocBound) :
    (Record.MessagePrefixOnly lib addrs input ↔ ¬ Record.MessageCutOff lib addrs input) ∧
    (PrefixOnly (Record.recordDecode lib) input ↔
      ¬ CutOff lib.toProtobuf (Record.recordField lib) .new (fun _ _ => True) input) ∧
    (PrefixOnly (Peer.peerDecode lib addrs) input ↔
      ¬ CutOff lib.toProtobuf (Peer.peerField lib addrs) .new (fun _ _ => True) input) ∧
    (PrefixOnly (Secio.publicKeyDecode lib.toProtobuf) input ↔
      ¬ CutOff lib.toProtobuf (Secio.publicKeyField lib.toProtobuf) ⟨Secio.keytypeInvalid, []⟩
        (fun _ _ => True) input) ∧
    (PrefixOnly (Crypto.privateKeyDecode lib.toProtobuf) input ↔
      ¬ CutOff lib.toProtobuf (Crypto.privateKeyField lib.toProtobuf) ⟨Secio.keytypeInvalid, []⟩
        (fun _ _ => True) input) ∧
    (PrefixOnly (Secio.proposeDecode lib.toProtobuf) input ↔
      ¬ CutOff lib.toProtobuf (Secio.proposeField lib.toProtobuf) (⟨[], [], [], [], []⟩, false)
        ProposeAccepts input) ∧
    (PrefixOnly (Secio.exchangeDecode lib.toProtobuf) input ↔
      ¬ CutOff lib.toProtobuf (Secio.exchangeField lib.toProtobuf) ⟨[], []⟩ (fun _ _ => True) input) ∧
    (PrefixOnly (identifyDecode lib uninitialized) input ↔
      ¬ CutOff lib.toProtobuf (identifyField lib) (.new uninitialized) (fun _ _ => True) input) := by
  have hpropose := prefixOnly_iff (⟨[], [], [], [], []⟩, false) ProposeAccepts proposeFinish htags hsize
    (proposeField_readable hlawful) proposeField_accepts
  refine ⟨Record.messagePrefixOnly_iff hlawful htags hsize, ?_, ?_, ?_, ?_, ?_, ?_, ?_⟩
  · exact prefixOnly_iff_of_all_readable htags hsize (recordField_readable hlawful)
  · exact prefixOnly_iff_of_all_readable htags hsize (peerField_readable hlawful)
  · exact prefixOnly_iff_of_all_readable htags hsize (publicKeyField_readable hlawful)
  · exact prefixOnly_iff_of_all_readable htags hsize (privateKeyField_readable hlawful)
  · rw [← hpropose]
    simp only [PrefixOnly, proposeDecode_eq]
  · exact prefixOnly_iff_of_all_readable htags hsize (exchangeField_readable hlawful)
  · exact prefixOnly_iff_of_all_readable htags hsize (identifyField_readable hlawful)

/-! ### A lone byte of a tag -/

def loneTag : Bytes := [10, 1, 65, 146]

theorem decoders_prefixOnly_iff_loneTag :
    (Record.MessagePrefixOnly .varints Record.plainAddresses loneTag ↔
      ¬ Record.MessageCutOff .varints Record.plainAddresses loneTag) ∧
    (PrefixOnly (Record.recordDecode .varints) loneTag ↔
      ¬ CutOff .varints (Record.recordField .varints) .new (fun _ _ => True) loneTag) ∧
    (PrefixOnly (Peer.peerDecode .varints Record.plainAddresses) loneTag ↔
      ¬ CutOff .varints (Peer.peerField .varints Record.plainAddresses) .new (fun _ _ => True) loneTag) ∧
    (PrefixOnly (Secio.publicKeyDecode .varints) loneTag ↔
      ¬ CutOff .varints (Secio.publicKeyField .varints) ⟨Secio.keytypeInvalid, []⟩ (fun _ _ => True)
        loneTag) ∧
    (PrefixOnly (Crypto.privateKeyDecode .varints) loneTag ↔
      ¬ CutOff .varints (Crypto.privateKeyField .varints) ⟨Secio.keytypeInvalid, []⟩ (fun _ _ => True)
        loneTag) ∧
    (PrefixOnly (Secio.proposeDecode .varints) loneTag ↔
      ¬ CutOff .varints (Secio.proposeField .varints) (⟨[], [], [], [], []⟩, false) ProposeAccepts
        loneTag) ∧
    (PrefixOnly (Secio.exchangeDecode .varints) loneTag ↔
      ¬ CutOff .varints (Secio.exchangeField .varints) ⟨[], []⟩ (fun _ _ => True) loneTag) ∧
    (PrefixOnly (identifyDecode .varints 0) loneTag ↔
      ¬ CutOff .varints (identifyField .varints) (.new 0) (fun _ _ => True) loneTag) :=
  decoders_prefixOnly_iff fieldLibrary_varints_lawful varints_readsTags 0 (by decide)

/-- With one byte more it is the tag of the value, which then is what lies behind. -/
theorem decoders_prefixOnly_fails :
    Record.recordDecode .varints loneTag [0, 1, 66, 0] = some ⟨[65], [66], [], [], []⟩ ∧
      Record.recordDecode .varints loneTag [0, 1, 67, 0] = some ⟨[65], [67], [], [], []⟩ ∧
      ¬ PrefixOnly (Record.recordDecode .varints) loneTag := by
  have hfirst : Record.recordDecode .varints loneTag [0, 1, 66, 0] = some ⟨[65], [66], [], [], []⟩ := by
    decide
  have hsecond : Record.recordDecode .varints loneTag [0, 1, 67, 0] = some ⟨[65], [67], [], [], []⟩ := by
    decide
  refine ⟨hfirst, hsecond, fun hprefix => ?_⟩
  have hsame := hprefix [0, 1, 66, 0] [0, 1, 67, 0] (by decide) (by decide)
  rw [hfirst, hsecond] at hsame
  exact absurd hsame (by decide)

end CLibp2p
