import CLibp2p.Proof.PrefixOnly

/-!
# When an unknown field is skipped

A decoder that does not know a number goes on right behind the tag, so it reads the payload of such a field as
fields of the message. That does no harm exactly if these fields leave the record as it is. The decoder of
Kademlia messages takes most unknown numbers for an error instead.
-/

namespace CLibp2p

open Duplex

/-- What a payload is depends on the bytes that are read for it alone. -/
structure FieldLibrary.ReadsPayloads (lib : FieldLibrary) : Prop where
  lengthDelimited : ∀ input data count, lib.decodeLengthDelimited input = some (data, count) →
    count ≤ input.length ∧ ∀ rest, lib.decodeLengthDelimited (input.take count ++ rest) = some (data, count)
  varint : ∀ input value count, 0 < count → lib.varintDecode input = (value, count) →
    count ≤ input.length ∧ ∀ rest, lib.varintDecode (input.take count ++ rest) = (value, count)

theorem varints_readsPayloads : FieldLibrary.varints.ReadsPayloads where
  lengthDelimited input data count hread := by
    simp only [FieldLibrary.varints, Protobuf.varints] at hread
    split at hread
    · rename_i length varintLength hlength
      split at hread
      · rename_i hspace
        cases hread
        obtain ⟨-, hle, hwhole⟩ := varintRead_consumes hlength
        refine ⟨by omega, fun rest => ?_⟩
        have htake : input.take (varintLength + length) ++ rest =
            input.take varintLength ++ ((input.drop varintLength).take length ++ rest) := by
          rw [List.take_add, List.append_assoc]
        have hdrop : (input.take varintLength ++ ((input.drop varintLength).take length ++ rest)).drop
            varintLength = (input.drop varintLength).take length ++ rest :=
          List.drop_left' (List.length_take_of_le hle)
        have hdata : ((input.drop varintLength).take length).length = length :=
          List.length_take_of_le (by rw [List.length_drop]; exact hspace)
        simp only [FieldLibrary.varints, Protobuf.varints, htake, hwhole, hdrop]
        rw [if_pos, List.take_left' hdata]
        rw [List.length_append, List.length_append, List.length_take_of_le hle, hdata]
        omega
      · cases hread
    · cases hread
  varint input value count hpos hread := by
    simp only [FieldLibrary.varints, Protobuf.varints] at hread
    split at hread
    · rename_i number varintLength hnumber
      cases hread
      obtain ⟨-, hle, hwhole⟩ := varintRead_consumes hnumber
      refine ⟨hle, fun rest => ?_⟩
      simp only [FieldLibrary.varints, Protobuf.varints, hwhole]
    · cases hread
      exact absurd hpos (Nat.lt_irrefl 0)

/-! ### Handlers that look at what they take -/

section

variable {lib : FieldLibrary} {ρ τ : Type} {input : Bytes}

/-- What is read here does not depend on what lies behind the bytes that are taken. -/
def LocalAt (read : Bytes → Option (ρ × Nat)) (input : Bytes) : Prop :=
  ∀ result, read input = some result → result.2 ≤ input.length ∧ ∀ rest,
    read (input.take result.2 ++ rest) = some result

theorem localAt_lengthDelimited (hpayloads : lib.ReadsPayloads) (set : Bytes → ρ) :
    LocalAt (fun input => lengthDelimited lib.toProtobuf input set) input := by
  intro result hresult
  dsimp only at hresult
  rw [lengthDelimited] at hresult
  split at hresult
  · cases hresult
  · rename_i data count hread
    cases hresult
    obtain ⟨hle, hwhole⟩ := hpayloads.lengthDelimited _ _ _ hread
    refine ⟨hle, fun rest => ?_⟩
    dsimp only
    rw [lengthDelimited, hwhole]

theorem localAt_stringField (hlawful : lib.Lawful) (hpayloads : lib.ReadsPayloads) (set : Bytes → ρ) :
    LocalAt (fun input => stringField lib input set) input := by
  intro result hresult
  dsimp only at hresult
  rw [stringField, hlawful.decodesString] at hresult
  split at hresult
  · cases hresult
  · rename_i data count hread
    cases hresult
    obtain ⟨hle, hwhole⟩ := hpayloads.lengthDelimited _ _ _ hread
    refine ⟨hle, fun rest => ?_⟩
    dsimp only
    rw [stringField, hlawful.decodesString, hwhole]

theorem localAt_varintField (hpayloads : lib.ReadsPayloads) (set : UInt64 → ρ) :
    LocalAt (fun input => varintField lib.toProtobuf input set) input := by
  intro result hresult
  dsimp only at hresult
  rw [varintField] at hresult
  rcases hread : lib.varintDecode input with ⟨value, - | count⟩
  · rw [hread] at hresult
    cases hresult
  · rw [hread] at hresult
    cases hresult
    obtain ⟨hle, hwhole⟩ := hpayloads.varint _ _ _ (Nat.succ_pos count) hread
    refine ⟨hle, fun rest => ?_⟩
    dsimp only
    rw [varintField, hwhole]
    rfl

theorem localAt_skip (record : ρ) : LocalAt (fun _ => some (record, 0)) input := by
  intro result hresult
  cases hresult
  exact ⟨Nat.zero_le _, fun _ => rfl⟩

theorem localAt_nestedField (hpayloads : lib.ReadsPayloads) {heap : Bytes → Bytes}
    {decode : (input behind : Bytes) → Option τ}
    (hdecode : ∀ buffer count, lib.decodeLengthDelimited input = some (buffer, count) →
      ∀ behind behind', decode buffer behind = decode buffer behind') (set : τ → ρ) :
    LocalAt (fun input => Record.nestedField lib.toProtobuf heap decode input set) input := by
  intro result hresult
  dsimp only at hresult
  rw [Record.nestedField] at hresult
  split at hresult
  · cases hresult
  · rename_i buffer count hread
    obtain ⟨inner, hinner, rfl⟩ := Option.map_eq_some_iff.mp hresult
    obtain ⟨hle, hwhole⟩ := hpayloads.lengthDelimited _ _ _ hread
    refine ⟨hle, fun rest => ?_⟩
    dsimp only
    rw [Record.nestedField, hwhole]
    dsimp only
    rw [hdecode buffer count hread _ (heap input), hinner, Option.map_some]

end

/-! ### The payload as fields -/

section

variable {pb : Protobuf} {ρ : Type} {field : (fieldNo : Nat) → Bytes → ρ → Option (ρ × Nat)}
  {input : Bytes} {start : ρ} {pos : Nat} {record : ρ}

/-- Whole fields are gone over without looking behind the buffer. -/
theorem FieldSteps.reached {out : Bytes} {record' : ρ} (hsteps : FieldSteps pb field out record record')
    {before after : Bytes} (hreached : Reached pb field (before ++ (out ++ after)) start before.length record) :
    Reached pb field (before ++ (out ++ after)) start (before ++ out).length record' := by
  induction hsteps generalizing before with
  | nil record => rwa [List.append_nil]
  | @cons out more _ _ _ hstep hrest ih =>
      obtain ⟨-, fieldNo, type, headerBytes, count, hlength, htag, hfield⟩ := hstep
      rw [← List.append_assoc before out more]
      rw [List.append_assoc out more after, ← List.append_assoc before out] at hreached ⊢
      refine ih ?_
      have hnext : (before ++ out).length = before.length + headerBytes + count := by
        rw [List.length_append]
        omega
      have hdrop : ((before ++ out) ++ (more ++ after)).drop before.length = out ++ (more ++ after) := by
        rw [List.append_assoc, List.drop_left]
      have htag' : pb.decodeFieldAndType (((before ++ out) ++ (more ++ after)).drop before.length) =
          some (fieldNo, type, headerBytes) := by rw [hdrop, htag]
      rw [hnext]
      exact hreached.field htag' (by rw [← List.drop_drop, hdrop, hfield])

theorem fieldStep_of_tag (htags : pb.ReadsTags) {fieldNo type headerBytes : Nat} {result : ρ × Nat}
    (htag : pb.decodeFieldAndType (input.drop pos) = some (fieldNo, type, headerBytes))
    (hread : field fieldNo (input.drop (pos + headerBytes)) record = some result)
    (hlocal : LocalAt (fun input => field fieldNo input record) (input.drop (pos + headerBytes))) :
    headerBytes + result.2 ≤ (input.drop pos).length ∧
      FieldStep pb field ((input.drop pos).take (headerBytes + result.2)) record result.1 := by
  obtain ⟨hpos, hheader, hwhole⟩ := htags.consumes _ _ _ _ htag
  obtain ⟨hle, hfield⟩ := hlocal result hread
  rw [← List.drop_drop] at hle hfield
  have hlength : headerBytes + result.2 ≤ (input.drop pos).length := by
    rw [List.length_drop] at hle
    omega
  have htake : (input.drop pos).take (headerBytes + result.2) =
      (input.drop pos).take headerBytes ++ ((input.drop pos).drop headerBytes).take result.2 :=
    List.take_add
  refine ⟨hlength, ?_, fieldNo, type, headerBytes, result.2, ?_, fun rest => ?_, fun rest => ?_⟩
  · rw [List.length_take_of_le hlength]
    omega
  · rw [List.length_take_of_le hlength]
  · rw [htake, List.append_assoc, hwhole]
  · rw [htake, List.append_assoc, List.drop_left' (List.length_take_of_le hheader)]
    exact hfield rest

/-- If nothing behind the buffer changes the record that was reached in it, what is left of the buffer is whole
fields that leave it as it is. -/
theorem Reached.fieldSteps (htags : pb.ReadsTags) {before payload : Bytes}
    (hreached : Reached pb field (before ++ payload) start before.length record)
    (hlocal : ∀ pos other fieldNo type headerBytes,
      Reached pb field (before ++ payload) start pos other →
      pb.decodeFieldAndType ((before ++ payload).drop pos) = some (fieldNo, type, headerBytes) →
      LocalAt (fun input => field fieldNo input other) ((before ++ payload).drop (pos + headerBytes)))
    (hdecode : ∀ behind, CLibp2p.decodeBuffer pb field (before ++ payload) behind start = some record) :
    FieldSteps pb field payload record record := by
  obtain ⟨pos, record', hreached', ⟨hle, hsteps⟩, hend | ⟨hpos, hnone⟩ | ⟨_, _, _, htag, hfield⟩⟩ :=
    hreached.exists_stop htags
      (fun pos other => (before.length ≤ pos ∧ pos ≤ (before ++ payload).length) ∧
        FieldSteps pb field (((before ++ payload).take pos).drop before.length) record other)
      (by
        rintro pos other fieldNo type headerBytes result hreached ⟨⟨hfrom, hto⟩, hsteps⟩ htag hread
        obtain ⟨hlength, hstep⟩ :=
          fieldStep_of_tag htags htag hread (hlocal _ _ _ _ _ hreached htag)
        have hsplit : ((before ++ payload).take (pos + headerBytes + result.2)).drop before.length =
            ((before ++ payload).take pos).drop before.length ++
              ((before ++ payload).drop pos).take (headerBytes + result.2) := by
          rw [Nat.add_assoc, List.take_add, List.drop_append_of_le_length]
          rw [List.length_take_of_le hto]
          exact hfrom
        rw [List.length_drop] at hlength
        refine ⟨⟨by omega, by omega⟩, ?_⟩
        rw [hsplit]
        exact hsteps.append hstep.single)
      ⟨⟨Nat.le_refl _, by rw [List.length_append]; omega⟩, by
        rw [List.take_left, List.drop_length]
        exact FieldSteps.nil record⟩
  · have hsame := hdecode []
    rw [hreached'.decodeBuffer_end htags hend] at hsame
    obtain rfl := Option.some.inj hsame
    rwa [List.take_of_length_le hend, List.drop_left] at hsteps
  · obtain ⟨behind, -, hfails⟩ := hreached'.exists_none htags hpos hnone 0
    rw [hdecode behind] at hfails
    cases hfails
  · have hfails := hreached'.decodeBuffer_field htags htag hfield []
    rw [hdecode []] at hfails
    cases hfails

end

/-! ### Insertion between encoded fields -/

section

variable {lib : FieldLibrary} {ρ : Type} {field : (fieldNo : Nat) → Bytes → ρ → Option (ρ × Nat)}
  {start record : ρ} {before : List (Nat × FieldValue)} {maxOut fieldNo type : Nat}
  {first tag payload : Bytes}

/-- In every encoded message that begins with these fields, `unknown` makes no difference behind them. -/
def Skips (lib : FieldLibrary) (field : (fieldNo : Nat) → Bytes → ρ → Option (ρ × Nat))
    (decode : (input behind : Bytes) → Option ρ) (start : ρ) (before : List (Nat × FieldValue))
    (maxOut : Nat) (unknown : Bytes) : Prop :=
  ∀ after record, StoresAll lib field (before ++ after) start record →
    ∀ first second, lib.encode before maxOut = some first →
    lib.encode (before ++ after) maxOut = some (first ++ second) →
    ∀ behind, decode (first ++ unknown ++ second) behind = decode (first ++ second) behind

def IsTag (pb : Protobuf) (tag : Bytes) (fieldNo type : Nat) : Prop :=
  ∀ rest, pb.decodeFieldAndType (tag ++ rest) = some (fieldNo, type, tag.length)

theorem IsTag.fieldStep (htags : lib.ReadsTags) (htag : IsTag lib.toProtobuf tag fieldNo type)
    (hunknown : ∀ input, field fieldNo input record = some (record, 0)) :
    FieldStep lib.toProtobuf field tag record record :=
  ⟨(htags.consumes _ _ _ _ (htag [])).1, fieldNo, type, tag.length, 0, rfl, htag,
    fun _ => hunknown _⟩

theorem skips_of_fieldSteps (hlawful : lib.Lawful) (htags : lib.ReadsTags)
    (hbefore : StoresAll lib field before start record) (htag : IsTag lib.toProtobuf tag fieldNo type)
    (hunknown : ∀ input, field fieldNo input record = some (record, 0))
    (hpayload : FieldSteps lib.toProtobuf field payload record record) (maxOut : Nat) :
    Skips lib field (fun input behind => decodeBuffer lib.toProtobuf field input behind start) start before
      maxOut (tag ++ payload) := by
  intro after record'' hall first second hfirst hencode behind
  obtain ⟨record', hbefore', hafter⟩ := hall.split
  obtain ⟨first', second', hfirst', hsecond, hout⟩ := encode_append hencode
  obtain rfl : first = first' := Option.some.inj (hfirst.symm.trans hfirst')
  obtain rfl : second = second' := List.append_cancel_left hout
  have hfirstSteps := hbefore.fieldSteps hlawful hfirst
  have hfirstSteps' := hbefore'.fieldSteps hlawful hfirst
  obtain rfl : record = record' := Option.some.inj
    ((hfirstSteps.decodeBuffer []).symm.trans (hfirstSteps'.decodeBuffer []))
  have hsecondSteps := hafter.fieldSteps hlawful hsecond
  have hinserted := FieldSteps.cons (htag.fieldStep htags hunknown) hpayload
  dsimp only
  rw [((hfirstSteps.append hinserted).append hsecondSteps).decodeBuffer behind,
    (hfirstSteps.append hsecondSteps).decodeBuffer behind]

/-- With no field behind it, it is read as if it were not there. -/
theorem Skips.decode_last (hlawful : lib.Lawful) (hbefore : StoresAll lib field before start record)
    (hfirst : lib.encode before maxOut = some first) {unknown : Bytes}
    (hskips : Skips lib field (fun input behind => decodeBuffer lib.toProtobuf field input behind start)
      start before maxOut unknown) (behind : Bytes) :
    decodeBuffer lib.toProtobuf field (first ++ unknown) behind start = some record := by
  have hlast := hskips [] record (by rwa [List.append_nil]) first [] hfirst
    (by rwa [List.append_nil, List.append_nil]) behind
  dsimp only at hlast
  rwa [List.append_nil, List.append_nil,
    (hbefore.fieldSteps hlawful hfirst).decodeBuffer behind] at hlast

theorem reached_payload (hlawful : lib.Lawful) (htags : lib.ReadsTags)
    (hbefore : StoresAll lib field before start record) (hfirst : lib.encode before maxOut = some first)
    (htag : IsTag lib.toProtobuf tag fieldNo type)
    (hunknown : ∀ input, field fieldNo input record = some (record, 0)) :
    Reached lib.toProtobuf field ((first ++ tag) ++ payload) start (first ++ tag).length record := by
  have hsteps := (hbefore.fieldSteps hlawful hfirst).append (htag.fieldStep htags hunknown).single
  have hreached : Reached lib.toProtobuf field ([] ++ ((first ++ tag) ++ payload)) start
    ([] : Bytes).length start := .start
  exact hsteps.reached hreached

/-- Behind every beginning of an encoded message, this field is skipped exactly if its payload, read as fields,
leaves the record as it is. -/
def SkippedIff (lib : FieldLibrary) (field : (fieldNo : Nat) → Bytes → ρ → Option (ρ × Nat))
    (decode : (input behind : Bytes) → Option ρ) (start : ρ) (tag payload : Bytes) : Prop :=
  ∀ before record, StoresAll lib field before start record →
    ∀ maxOut, (lib.encode before maxOut).isSome →
      (Skips lib field decode start before maxOut (tag ++ payload) ↔
        FieldSteps lib.toProtobuf field payload record record)

theorem skippedIff (hlawful : lib.Lawful) (htags : lib.ReadsTags)
    (hlocal : ∀ fieldNo record input, LocalAt (fun input => field fieldNo input record) input)
    (htag : IsTag lib.toProtobuf tag fieldNo type)
    (hunknown : ∀ record input, field fieldNo input record = some (record, 0)) :
    SkippedIff lib field (fun input behind => decodeBuffer lib.toProtobuf field input behind start) start tag
      payload := by
  intro before record hbefore maxOut hsome
  obtain ⟨first, hfirst⟩ := Option.isSome_iff_exists.mp hsome
  constructor
  · intro hskips
    refine (reached_payload hlawful htags hbefore hfirst htag (hunknown record)).fieldSteps htags
      (fun _ _ _ _ _ _ _ => hlocal _ _ _) fun behind => ?_
    rw [List.append_assoc]
    exact hskips.decode_last hlawful hbefore hfirst behind
  · exact fun hpayload =>
      skips_of_fieldSteps hlawful htags hbefore htag (hunknown record) hpayload maxOut

end

/-! ### The decoders -/

section

variable {lib : FieldLibrary} {μ : Type} {addrs : Peer.MultiaddrBytes μ}

theorem recordField_localAt (hlawful : lib.Lawful) (hpayloads : lib.ReadsPayloads) (fieldNo : Nat)
    (record : Record.Libp2pRecord) (input : Bytes) :
    LocalAt (fun input => Record.recordField lib fieldNo input record) input := by
  match fieldNo with
  | 1 => exact localAt_stringField hlawful hpayloads _
  | 2 | 3 | 4 | 5 => exact localAt_lengthDelimited hpayloads _
  | 0 | _ + 6 => exact localAt_skip record

theorem peerField_localAt (hpayloads : lib.ReadsPayloads) (fieldNo : Nat) (peer : Peer.SentPeer μ)
    (input : Bytes) : LocalAt (fun input => Peer.peerField lib addrs fieldNo input peer) input := by
  match fieldNo with
  | 1 | 2 => exact localAt_lengthDelimited hpayloads _
  | 3 => exact localAt_varintField hpayloads _
  | 0 | _ + 4 => exact localAt_skip peer

theorem publicKeyField_localAt (hpayloads : lib.ReadsPayloads) (fieldNo : Nat) (record : Secio.PublicKey)
    (input : Bytes) :
    LocalAt (fun input => Secio.publicKeyField lib.toProtobuf fieldNo input record) input := by
  match fieldNo with
  | 1 => exact localAt_varintField hpayloads _
  | 2 => exact localAt_lengthDelimited hpayloads _
  | 0 | _ + 3 => exact localAt_skip record

theorem privateKeyField_localAt (hpayloads : lib.ReadsPayloads) (fieldNo : Nat)
    (record : Crypto.PrivateKey) (input : Bytes) :
    LocalAt (fun input => Crypto.privateKeyField lib.toProtobuf fieldNo input record) input := by
  match fieldNo with
  | 1 => exact localAt_varintField hpayloads _
  | 2 => exact localAt_lengthDelimited hpayloads _
  | 0 | _ + 3 => exact localAt_skip record

theorem exchangeField_localAt (hpayloads : lib.ReadsPayloads) (fieldNo : Nat) (record : Secio.Exchange)
    (input : Bytes) :
    LocalAt (fun input => Secio.exchangeField lib.toProtobuf fieldNo input record) input := by
  match fieldNo with
  | 1 | 2 => exact localAt_lengthDelimited hpayloads _
  | 0 | _ + 3 => exact localAt_skip record

namespace Record

theorem messageField_localAt (hpayloads : lib.ReadsPayloads) (htags : lib.ReadsTags) {fieldNo : Nat}
    {input : Bytes}
    (hnested : ∀ buffer count, lib.decodeLengthDelimited input = some (buffer, count) →
      ¬ NestedCutOff lib addrs fieldNo buffer) (heap : Bytes → Bytes) (message : KademliaMessage μ) :
    LocalAt (fun input => messageField lib addrs heap fieldNo input message) input := by
  match fieldNo with
  | 1 | 10 => exact localAt_varintField hpayloads _
  | 2 => exact localAt_lengthDelimited hpayloads _
  | 3 =>
      refine localAt_nestedField hpayloads (fun buffer count hread behind behind' => ?_) _
      exact (nestedDecode_eq htags (hnested buffer count hread) behind behind').1 rfl
  | 8 =>
      refine localAt_nestedField hpayloads (fun buffer count hread behind behind' => ?_) _
      exact (nestedDecode_eq htags (hnested buffer count hread) behind behind').2 (Or.inl rfl)
  | 9 =>
      refine localAt_nestedField hpayloads (fun buffer count hread behind behind' => ?_) _
      exact (nestedDecode_eq htags (hnested buffer count hread) behind behind').2 (Or.inr rfl)
  | 4 | 5 | 6 | 7 => exact localAt_skip message
  | 0 | _ + 11 => exact fun result hresult => by cases hresult

/-- A message is kept by no unknown field but those with the numbers 4 to 7. -/
theorem messageSkips_iff (hlawful : lib.Lawful) (htags : lib.ReadsTags) (hpayloads : lib.ReadsPayloads)
    {before : List (Nat × FieldValue)} {message : KademliaMessage μ}
    (hbefore : ∀ heap, StoresAll lib (messageField lib addrs heap) before .new message) {maxOut : Nat}
    {first tag payload : Bytes} (hfirst : lib.encode before maxOut = some first) {fieldNo type : Nat}
    (htag : IsTag lib.toProtobuf tag fieldNo type)
    (hunknown : fieldNo < 1 ∨ 3 < fieldNo ∧ fieldNo < 8 ∨ 10 < fieldNo) :
    (∀ heap, Skips lib (messageField lib addrs heap) (messageDecode lib addrs heap) .new before maxOut
        (tag ++ payload)) ↔
      (3 < fieldNo ∧ fieldNo < 8) ∧
        ∀ heap, FieldSteps lib.toProtobuf (messageField lib addrs heap) payload message message := by
  have hskip : 3 < fieldNo ∧ fieldNo < 8 → ∀ heap input,
      messageField lib addrs heap fieldNo input message = some (message, 0) := by
    rintro ⟨hthree, height⟩ heap input
    match fieldNo with
    | 4 | 5 | 6 | 7 => rfl
  constructor
  · intro hskips
    have hdecode : ∀ heap behind,
        messageDecode lib addrs heap (first ++ (tag ++ payload)) behind = some message :=
      fun heap => (hskips heap).decode_last hlawful (hbefore heap) hfirst
    have hbetween : 3 < fieldNo ∧ fieldNo < 8 := by
      by_contra hout
      have hreached : Reached lib.toProtobuf (messageField lib addrs id)
          ([] ++ (first ++ (tag ++ payload))) .new ([] ++ first).length message :=
        ((hbefore id).fieldSteps hlawful hfirst).reached .start
      have herror : messageField lib addrs id fieldNo
          ((first ++ (tag ++ payload)).drop (first.length + tag.length)) message = none := by
        unfold messageField
        rw [if_pos (by omega)]
      have hfails := hreached.decodeBuffer_field htags
        (by rw [List.nil_append, List.nil_append, List.drop_left]; exact htag payload) herror []
      have hsome := hdecode id []
      rw [messageDecode] at hsome
      rw [List.nil_append, hsome] at hfails
      cases hfails
    refine ⟨hbetween, fun heap => ?_⟩
    have hreached : Reached lib.toProtobuf (messageField lib addrs heap) ((first ++ tag) ++ payload) .new
        (first ++ tag).length message :=
      reached_payload hlawful htags (hbefore heap) hfirst htag (hskip hbetween heap)
    refine hreached.fieldSteps htags (fun pos other number kind headerBytes hother hnext => ?_) ?_
    · refine messageField_localAt hpayloads htags (fun buffer count hbuffer hcut => ?_) heap other
      obtain ⟨heap', -, hnone⟩ := hcut.exists_heap htags hother hnext hbuffer 0
      have hsome := hdecode heap' []
      rw [← List.append_assoc, hnone] at hsome
      cases hsome
    · intro behind
      rw [List.append_assoc]
      exact hdecode heap behind
  · rintro ⟨hbetween, hsteps⟩ heap
    exact skips_of_fieldSteps hlawful htags (hbefore heap) htag (hskip hbetween heap) (hsteps heap) maxOut

end Record

end

/-- **Unknown fields.** A field that the decoder does not know is skipped exactly if its payload, read as fields,
leaves the record as it is, and in a message only if its number is one of 4 to 7. -/
theorem decoders_skip_iff {lib : FieldLibrary} {μ : Type} {addrs : Peer.MultiaddrBytes μ}
    (hlawful : lib.Lawful) (htags : lib.ReadsTags) (hpayloads : lib.ReadsPayloads) {fieldNo type : Nat}
    {tag : Bytes} (htag : IsTag lib.toProtobuf tag fieldNo type) (payload : Bytes) :
    ((fieldNo < 1 ∨ 3 < fieldNo ∧ fieldNo < 8 ∨ 10 < fieldNo) → ∀ before message,
      (∀ heap, StoresAll lib (Record.messageField lib addrs heap) before .new message) →
      ∀ maxOut, (lib.encode before maxOut).isSome →
        ((∀ heap, Skips lib (Record.messageField lib addrs heap) (Record.messageDecode lib addrs heap) .new
            before maxOut (tag ++ payload)) ↔
          (3 < fieldNo ∧ fieldNo < 8) ∧ ∀ heap,
            FieldSteps lib.toProtobuf (Record.messageField lib addrs heap) payload message message)) ∧
    (fieldNo < 1 ∨ 5 < fieldNo →
      SkippedIff lib (Record.recordField lib) (Record.recordDecode lib) .new tag payload) ∧
    (fieldNo < 1 ∨ 3 < fieldNo →
      SkippedIff lib (Peer.peerField lib addrs) (Peer.peerDecode lib addrs) .new tag payload) ∧
    (fieldNo < 1 ∨ 2 < fieldNo →
      SkippedIff lib (Secio.publicKeyField lib.toProtobuf) (Secio.publicKeyDecode lib.toProtobuf)
        ⟨Secio.keytypeInvalid, []⟩ tag payload ∧
      SkippedIff lib (Crypto.privateKeyField lib.toProtobuf) (Crypto.privateKeyDecode lib.toProtobuf)
        ⟨Secio.keytypeInvalid, []⟩ tag payload ∧
      SkippedIff lib (Secio.exchangeField lib.toProtobuf) (Secio.exchangeDecode lib.toProtobuf) ⟨[], []⟩ tag
        payload) := by
  refine ⟨?_, fun hunknown => ?_, fun hunknown => ?_, fun hunknown => ⟨?_, ?_, ?_⟩⟩
  · intro hunknown before message hbefore maxOut hsome
    obtain ⟨first, hfirst⟩ := Option.isSome_iff_exists.mp hsome
    exact Record.messageSkips_iff hlawful htags hpayloads hbefore hfirst htag hunknown
  · refine skippedIff hlawful htags (recordField_localAt hlawful hpayloads) htag ?_
    match fieldNo with
    | 0 | _ + 6 => exact fun _ _ => rfl
    | 1 | 2 | 3 | 4 | 5 => omega
  · refine skippedIff hlawful htags (peerField_localAt hpayloads) htag ?_
    match fieldNo with
    | 0 | _ + 4 => exact fun _ _ => rfl
    | 1 | 2 | 3 => omega
  · refine skippedIff hlawful htags (publicKeyField_localAt hpayloads) htag ?_
    match fieldNo with
    | 0 | _ + 3 => exact fun _ _ => rfl
    | 1 | 2 => omega
  · refine skippedIff hlawful htags (privateKeyField_localAt hpayloads) htag ?_
    match fieldNo with
    | 0 | _ + 3 => exact fun _ _ => rfl
    | 1 | 2 => omega
  · refine skippedIff hlawful htags (exchangeField_localAt hpayloads) htag ?_
    match fieldNo with
    | 0 | _ + 3 => exact fun _ _ => rfl
    | 1 | 2 => omega

/-! ### A record with a field too many -/

/-- The tag of a length-delimited field 6, and its content: the key `A` of a record. -/
def newField : Bytes := [50] ++ [3, 10, 1, 65]

theorem isTag_newField : IsTag .varints [50] 6 2 := fun _ => rfl

theorem decoders_skip_iff_newField :
    ((6 < 1 ∨ 3 < 6 ∧ 6 < 8 ∨ 10 < 6) → ∀ before message,
      (∀ heap, StoresAll .varints (Record.messageField .varints Record.plainAddresses heap) before .new
        message) →
      ∀ maxOut, (FieldLibrary.varints.encode before maxOut).isSome →
        ((∀ heap, Skips .varints (Record.messageField .varints Record.plainAddresses heap)
            (Record.messageDecode .varints Record.plainAddresses heap) .new before maxOut newField) ↔
          (3 < 6 ∧ 6 < 8) ∧ ∀ heap, FieldSteps .varints
            (Record.messageField .varints Record.plainAddresses heap) [3, 10, 1, 65] message message)) ∧
    (6 < 1 ∨ 5 < 6 → SkippedIff .varints (Record.recordField .varints) (Record.recordDecode .varints) .new
      [50] [3, 10, 1, 65]) ∧
    (6 < 1 ∨ 3 < 6 → SkippedIff .varints (Peer.peerField .varints Record.plainAddresses)
      (Peer.peerDecode .varints Record.plainAddresses) .new [50] [3, 10, 1, 65]) ∧
    (6 < 1 ∨ 2 < 6 →
      SkippedIff .varints (Secio.publicKeyField .varints) (Secio.publicKeyDecode .varints)
        ⟨Secio.keytypeInvalid, []⟩ [50] [3, 10, 1, 65] ∧
      SkippedIff .varints (Crypto.privateKeyField .varints) (Crypto.privateKeyDecode .varints)
        ⟨Secio.keytypeInvalid, []⟩ [50] [3, 10, 1, 65] ∧
      SkippedIff .varints (Secio.exchangeField .varints) (Secio.exchangeDecode .varints) ⟨[], []⟩ [50]
        [3, 10, 1, 65]) :=
  decoders_skip_iff fieldLibrary_varints_lawful varints_readsTags varints_readsPayloads isTag_newField
    [3, 10, 1, 65]

/-- Between the key and the value of a record it makes another key of it. -/
theorem decoders_skip_fails :
    let key : Bytes := [10, 1, 66]
    let others : Bytes := [18, 1, 67, 26, 0, 34, 0, 42, 0]
    Record.recordEncode .varints ⟨[66], [67], [], [], []⟩ 100 = some (key ++ others) ∧
      Record.recordDecode .varints (key ++ others) [] = some ⟨[66], [67], [], [], []⟩ ∧
      Record.recordDecode .varints (key ++ newField ++ others) [] = some ⟨[65], [67], [], [], []⟩ := by
  decide

end CLibp2p
