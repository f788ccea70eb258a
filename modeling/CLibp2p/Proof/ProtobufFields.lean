import CLibp2p.Protobuf.Fields

/-!
# Reading fields that are all there

`FieldStep` says that the loop of a decoder takes these bytes as one field, whatever follows them, and
`FieldSteps` strings such fields together. A buffer that is so read to its end gives the same record
whatever lies behind it. What the library encodes, field after field, is read so.
-/

namespace CLibp2p

open Duplex

section

variable {pb : Protobuf} {ρ : Type} {field : (fieldNo : Nat) → Bytes → ρ → Option (ρ × Nat)}

/-- The loop takes `out` as one field, which turns `record` into `record'`. -/
def FieldStep (pb : Protobuf) (field : (fieldNo : Nat) → Bytes → ρ → Option (ρ × Nat)) (out : Bytes)
    (record record' : ρ) : Prop :=
  0 < out.length ∧ ∃ fieldNo type headerBytes count, headerBytes + count = out.length ∧
    (∀ rest, pb.decodeFieldAndType (out ++ rest) = some (fieldNo, type, headerBytes)) ∧
    ∀ rest, field fieldNo ((out ++ rest).drop headerBytes) record = some (record', count)

inductive FieldSteps (pb : Protobuf) (field : (fieldNo : Nat) → Bytes → ρ → Option (ρ × Nat)) :
    Bytes → ρ → ρ → Prop
  | nil (record : ρ) : FieldSteps pb field [] record record
  | cons {out more : Bytes} {record record' record'' : ρ} (first : FieldStep pb field out record record')
      (rest : FieldSteps pb field more record' record'') :
      FieldSteps pb field (out ++ more) record record''

theorem FieldStep.single {out : Bytes} {record record' : ρ} (hstep : FieldStep pb field out record record') :
    FieldSteps pb field out record record' := by
  have hsteps := FieldSteps.cons hstep (FieldSteps.nil record')
  rwa [List.append_nil] at hsteps

theorem FieldSteps.append {first second : Bytes} {record record' record'' : ρ}
    (hfirst : FieldSteps pb field first record record')
    (hsecond : FieldSteps pb field second record' record'') :
    FieldSteps pb field (first ++ second) record record'' := by
  induction hfirst with
  | nil => exact hsecond
  | cons hstep hrest ih =>
      rw [List.append_assoc]
      exact FieldSteps.cons hstep (ih hsecond)

/-- What the loop reads a tag from: the rest of the buffer, and as much behind it as it has read. -/
theorem tagWindow (before rest behind : Bytes) :
    ((before ++ rest ++ behind).drop before.length).take (before ++ rest).length =
      rest ++ behind.take before.length := by
  have hsize : (before ++ rest).length - rest.length = before.length := by
    rw [List.length_append, Nat.add_sub_cancel]
  rw [List.append_assoc, List.drop_left, List.take_append, hsize,
    List.take_of_length_le (by rw [List.length_append]; omega)]

/-- What it reads a payload from: the rest of the buffer, if the tag lies in the buffer. -/
theorem payloadWindow (before rest behind : Bytes) {headerBytes : Nat}
    (hheader : headerBytes ≤ rest.length) :
    ((before ++ rest ++ behind).drop (before.length + headerBytes)).take
        (sizeLeft (before ++ rest).length (before.length + headerBytes)) = rest.drop headerBytes := by
  have hsize : (before ++ rest).length = before.length + rest.length := List.length_append
  rw [sizeLeft, if_pos (by omega), List.append_assoc, ← List.drop_drop, List.drop_left,
    List.drop_append_of_le_length hheader, List.take_left']
  rw [List.length_drop]
  omega

theorem FieldStep.decodeLoop {out : Bytes} {record record' : ρ}
    (hstep : FieldStep pb field out record record') (before after behind : Bytes) (fuel : Nat) :
    CLibp2p.decodeLoop pb field (before ++ (out ++ after) ++ behind) (before ++ (out ++ after)).length
        (fuel + 1) before.length record =
      CLibp2p.decodeLoop pb field (before ++ (out ++ after) ++ behind) (before ++ (out ++ after)).length
        fuel (before ++ out).length record' := by
  obtain ⟨hpos, fieldNo, type, headerBytes, count, hlength, htag, hfield⟩ := hstep
  have hmore : ¬ (before ++ (out ++ after)).length ≤ before.length := by
    rw [List.length_append, List.length_append]
    omega
  have hheader : headerBytes ≤ (out ++ after).length := by
    rw [List.length_append]
    omega
  have hnext : before.length + headerBytes + count = (before ++ out).length := by
    rw [List.length_append]
    omega
  rw [CLibp2p.decodeLoop, if_neg hmore, tagWindow, List.append_assoc, htag]
  dsimp only
  rw [payloadWindow before (out ++ after) behind hheader, hfield]
  dsimp only
  rw [hnext]

theorem FieldSteps.decodeLoop {out : Bytes} {record record' : ρ}
    (hsteps : FieldSteps pb field out record record') (before behind : Bytes) {fuel : Nat}
    (hfuel : out.length ≤ fuel) :
    CLibp2p.decodeLoop pb field (before ++ out ++ behind) (before ++ out).length fuel before.length
      record = some record' := by
  induction hsteps generalizing before fuel with
  | nil record =>
      have hend : (before ++ []).length ≤ before.length := by rw [List.append_nil]
      cases fuel <;> rw [CLibp2p.decodeLoop, if_pos hend]
  | @cons out more _ _ _ hstep hrest ih =>
      have hpos := hstep.1
      rw [List.length_append] at hfuel
      obtain ⟨fuel, rfl⟩ : ∃ n, fuel = n + 1 := ⟨fuel - 1, by omega⟩
      rw [hstep.decodeLoop before more behind fuel, ← List.append_assoc before out more]
      exact ih (before ++ out) (by omega)

/-- A buffer of whole fields is read to its end, whatever lies behind. -/
theorem FieldSteps.decodeBuffer {out : Bytes} {record record' : ρ}
    (hsteps : FieldSteps pb field out record record') (behind : Bytes) :
    CLibp2p.decodeBuffer pb field out behind record = some record' :=
  hsteps.decodeLoop [] behind (Nat.le_refl _)

/-! ### Encoded fields -/

theorem fieldStep_lengthDelimited (hlawful : pb.Lawful) {fieldNo maxOut : Nat} {data out : Bytes}
    {record record' : ρ} (hpos : 0 < fieldNo) (hsmall : fieldNo < 16)
    (hencode : pb.encodeLengthDelimited fieldNo data maxOut = some out)
    (hfield : ∀ input count, pb.decodeLengthDelimited input = some (data, count) →
      field fieldNo input record = some (record', count)) :
    FieldStep pb field out record record' := by
  obtain ⟨headerBytes, varintLength, hvarint, hlength, -, hreads⟩ :=
    hlawful.decodes fieldNo data maxOut out hpos hsmall hencode
  exact ⟨by omega, fieldNo, wiretypeLengthDelimited, headerBytes, varintLength + data.length, by omega,
    fun rest => (hreads rest).1, fun rest => hfield _ _ (hreads rest).2.2⟩

end

section

variable {lib : FieldLibrary} {ρ : Type} {field : (fieldNo : Nat) → Bytes → ρ → Option (ρ × Nat)}

def FieldLibrary.Reads (lib : FieldLibrary) (value : FieldValue) (input : Bytes) (count : Nat) : Prop :=
  match value with
  | .varint value => 0 < count ∧ lib.varintDecode input = (value, count)
  | .bytes data => lib.decodeLengthDelimited input = some (data, count)
  | .string text => lib.decodeString input = some (text, count)

/-- What the encoders take for granted of a field: a number whose tag is one byte, and a string without a
zero byte. -/
def Encodable (entry : Nat × FieldValue) : Prop :=
  0 < entry.1 ∧ entry.1 < 16 ∧ ∀ text, entry.2 = .string text → 0 ∉ text

theorem encodable_varint {fieldNo : Nat} (hpos : 0 < fieldNo) (hsmall : fieldNo < 16) (value : UInt64) :
    Encodable (fieldNo, .varint value) :=
  ⟨hpos, hsmall, fun text htext => by cases htext⟩

theorem encodable_bytes {fieldNo : Nat} (hpos : 0 < fieldNo) (hsmall : fieldNo < 16) (data : Bytes) :
    Encodable (fieldNo, .bytes data) :=
  ⟨hpos, hsmall, fun text htext => by cases htext⟩

theorem fieldStep_encodeField (hlawful : lib.Lawful) {entry : Nat × FieldValue} {maxOut : Nat}
    {out : Bytes} {record record' : ρ} (hencodable : Encodable entry)
    (hencode : lib.encodeField entry.1 entry.2 maxOut = some out)
    (hfield : ∀ input count, lib.Reads entry.2 input count →
      field entry.1 input record = some (record', count)) :
    FieldStep lib.toProtobuf field out record record' := by
  obtain ⟨fieldNo, value⟩ := entry
  obtain ⟨hpos, hsmall, htext⟩ := hencodable
  cases value with
  | varint value =>
      obtain ⟨headerBytes, varintLength, hvarint, hlength, hreads⟩ :=
        hlawful.varintDecodes fieldNo value maxOut out hpos hsmall hencode
      exact ⟨by omega, fieldNo, wiretypeVarint, headerBytes, varintLength, by omega,
        fun rest => (hreads rest).1, fun rest => hfield _ _ ⟨hvarint, (hreads rest).2⟩⟩
  | bytes data => exact fieldStep_lengthDelimited hlawful.toLawful hpos hsmall hencode hfield
  | string text =>
      have hencode' : lib.encodeLengthDelimited fieldNo text maxOut = some out := by
        rw [← hlawful.encodesString fieldNo text maxOut (htext text rfl)]
        exact hencode
      refine fieldStep_lengthDelimited hlawful.toLawful hpos hsmall hencode' ?_
      intro input count hread
      exact hfield input count (by rw [FieldLibrary.Reads, hlawful.decodesString, hread])

theorem length_encodeField_le (hlawful : lib.Lawful) {entry : Nat × FieldValue} {maxOut : Nat}
    {out : Bytes} (hencodable : Encodable entry)
    (hencode : lib.encodeField entry.1 entry.2 maxOut = some out) : out.length ≤ entry.2.size := by
  obtain ⟨fieldNo, value⟩ := entry
  obtain ⟨hpos, hsmall, htext⟩ := hencodable
  cases value with
  | varint value => exact hlawful.varintHeader fieldNo value maxOut out hpos hsmall hencode
  | bytes data => exact hlawful.header fieldNo data maxOut out hpos hsmall hencode
  | string text =>
      refine hlawful.header fieldNo text maxOut out hpos hsmall ?_
      rw [← hlawful.encodesString fieldNo text maxOut (htext text rfl)]
      exact hencode

theorem exists_encodeField (hlawful : lib.Lawful) {entry : Nat × FieldValue} {maxOut : Nat}
    (hencodable : Encodable entry) (hmax : maxOut < 2 ^ 64) (hspace : entry.2.size ≤ maxOut) :
    ∃ out, lib.encodeField entry.1 entry.2 maxOut = some out := by
  obtain ⟨fieldNo, value⟩ := entry
  obtain ⟨hpos, hsmall, htext⟩ := hencodable
  cases value with
  | varint value => exact hlawful.varintEncodes fieldNo value maxOut hpos hsmall hmax hspace
  | bytes data => exact hlawful.encodes fieldNo data maxOut hpos hsmall hmax hspace
  | string text =>
      obtain ⟨out, hout⟩ := hlawful.encodes fieldNo text maxOut hpos hsmall hmax hspace
      exact ⟨out, (hlawful.encodesString fieldNo text maxOut (htext text rfl)).trans hout⟩

theorem encode_cons {entry : Nat × FieldValue} {fields : List (Nat × FieldValue)} {maxOut : Nat}
    {out : Bytes} (hencode : lib.encode (entry :: fields) maxOut = some out) :
    ∃ first more, lib.encodeField entry.1 entry.2 maxOut = some first ∧
      lib.encode fields (maxOut - first.length) = some more ∧ out = first ++ more := by
  rw [FieldLibrary.encode] at hencode
  split at hencode
  · cases hencode
  · rename_i first hfirst
    obtain ⟨more, hmore, rfl⟩ := Option.map_eq_some_iff.mp hencode
    exact ⟨first, more, hfirst, hmore, rfl⟩

theorem encode_append {before after : List (Nat × FieldValue)} {maxOut : Nat} {out : Bytes}
    (hencode : lib.encode (before ++ after) maxOut = some out) :
    ∃ first second, lib.encode before maxOut = some first ∧
      lib.encode after (maxOut - first.length) = some second ∧ out = first ++ second := by
  induction before generalizing maxOut out with
  | nil => exact ⟨[], out, rfl, hencode, rfl⟩
  | cons entry before ih =>
      obtain ⟨out, more, hout, hmore, rfl⟩ := encode_cons hencode
      obtain ⟨first, second, hfirst, hsecond, rfl⟩ := ih hmore
      refine ⟨out ++ first, second, ?_, ?_, (List.append_assoc _ _ _).symm⟩
      · rw [FieldLibrary.encode, hout]
        dsimp only
        rw [hfirst, Option.map_some]
      · rw [List.length_append, Nat.sub_add_eq]
        exact hsecond

theorem length_encode_le (hlawful : lib.Lawful) {fields : List (Nat × FieldValue)}
    (hencodable : ∀ entry ∈ fields, Encodable entry) {maxOut : Nat} {out : Bytes}
    (hencode : lib.encode fields maxOut = some out) : out.length ≤ encodeSizes fields := by
  induction fields generalizing maxOut out with
  | nil =>
      cases hencode
      exact Nat.le_refl 0
  | cons entry fields ih =>
      obtain ⟨hentry, hfields⟩ := List.forall_mem_cons.mp hencodable
      obtain ⟨first, more, hfirst, hmore, rfl⟩ := encode_cons hencode
      rw [List.length_append]
      exact Nat.add_le_add (length_encodeField_le hlawful hentry hfirst) (ih hfields hmore)

theorem length_encodeField_le_maxOut (hlawful : lib.Lawful) {entry : Nat × FieldValue} {maxOut : Nat}
    {out : Bytes} (hencodable : Encodable entry)
    (hencode : lib.encodeField entry.1 entry.2 maxOut = some out) : out.length ≤ maxOut := by
  obtain ⟨fieldNo, value⟩ := entry
  obtain ⟨-, -, htext⟩ := hencodable
  cases value with
  | varint value => exact hlawful.varintFits fieldNo value maxOut out hencode
  | bytes data => exact hlawful.fits fieldNo data maxOut out hencode
  | string text =>
      refine hlawful.fits fieldNo text maxOut out ?_
      rw [← hlawful.encodesString fieldNo text maxOut (htext text rfl)]
      exact hencode

/-- What is encoded fits the buffer. -/
theorem length_encode_le_maxOut (hlawful : lib.Lawful) {fields : List (Nat × FieldValue)}
    (hencodable : ∀ entry ∈ fields, Encodable entry) {maxOut : Nat} {out : Bytes}
    (hencode : lib.encode fields maxOut = some out) : out.length ≤ maxOut := by
  induction fields generalizing maxOut out with
  | nil =>
      cases hencode
      exact Nat.zero_le _
  | cons entry fields ih =>
      obtain ⟨hentry, hfields⟩ := List.forall_mem_cons.mp hencodable
      obtain ⟨first, more, hfirst, hmore, rfl⟩ := encode_cons hencode
      have hhead := length_encodeField_le_maxOut hlawful hentry hfirst
      have htail := ih hfields hmore
      rw [List.length_append]
      omega

/-- A buffer of the size that is counted is large enough, and so is a larger one. -/
theorem exists_encode (hlawful : lib.Lawful) {fields : List (Nat × FieldValue)}
    (hencodable : ∀ entry ∈ fields, Encodable entry) {maxOut : Nat} (hmax : maxOut < 2 ^ 64)
    (hspace : encodeSizes fields ≤ maxOut) : ∃ out, lib.encode fields maxOut = some out := by
  induction fields generalizing maxOut with
  | nil => exact ⟨[], rfl⟩
  | cons entry fields ih =>
      obtain ⟨hentry, hfields⟩ := List.forall_mem_cons.mp hencodable
      have hsizes : encodeSizes (entry :: fields) = entry.2.size + encodeSizes fields := rfl
      obtain ⟨first, hfirst⟩ := exists_encodeField hlawful hentry hmax (by omega)
      have hlength := length_encodeField_le hlawful hentry hfirst
      have hleft : encodeSizes fields ≤ maxOut - first.length := by omega
      obtain ⟨more, hmore⟩ := ih hfields (by omega) hleft
      refine ⟨first ++ more, ?_⟩
      rw [FieldLibrary.encode, hfirst]
      dsimp only
      rw [hmore]
      rfl

/-- The handler turns `record` into `record'` with this field. -/
def StoresTo (lib : FieldLibrary) (field : (fieldNo : Nat) → Bytes → ρ → Option (ρ × Nat))
    (entry : Nat × FieldValue) (record record' : ρ) : Prop :=
  Encodable entry ∧ ∀ input count, lib.Reads entry.2 input count →
    field entry.1 input record = some (record', count)

inductive StoresAll (lib : FieldLibrary) (field : (fieldNo : Nat) → Bytes → ρ → Option (ρ × Nat)) :
    List (Nat × FieldValue) → ρ → ρ → Prop
  | nil (record : ρ) : StoresAll lib field [] record record
  | cons {entry : Nat × FieldValue} {fields : List (Nat × FieldValue)} {record record' record'' : ρ}
      (first : StoresTo lib field entry record record')
      (rest : StoresAll lib field fields record' record'') :
      StoresAll lib field (entry :: fields) record record''

theorem StoresAll.append {first second : List (Nat × FieldValue)} {record record' record'' : ρ}
    (hfirst : StoresAll lib field first record record')
    (hsecond : StoresAll lib field second record' record'') :
    StoresAll lib field (first ++ second) record record'' := by
  induction hfirst with
  | nil => exact hsecond
  | cons hstores hrest ih => exact StoresAll.cons hstores (ih hsecond)

theorem StoresAll.split {first second : List (Nat × FieldValue)} {record record'' : ρ}
    (hstores : StoresAll lib field (first ++ second) record record'') :
    ∃ record', StoresAll lib field first record record' ∧ StoresAll lib field second record' record'' := by
  induction first generalizing record with
  | nil => exact ⟨record, StoresAll.nil record, hstores⟩
  | cons entry first ih =>
      cases hstores with
      | cons hentry hrest =>
          obtain ⟨record', hfirst, hsecond⟩ := ih hrest
          exact ⟨record', StoresAll.cons hentry hfirst, hsecond⟩

theorem StoresAll.encodable {fields : List (Nat × FieldValue)} {record record' : ρ}
    (hstores : StoresAll lib field fields record record') : ∀ entry ∈ fields, Encodable entry := by
  induction hstores with
  | nil => exact fun entry hentry => absurd hentry List.not_mem_nil
  | cons hstores hrest ih => exact List.forall_mem_cons.mpr ⟨hstores.1, ih⟩

theorem StoresAll.fieldSteps {fields : List (Nat × FieldValue)} {record record' : ρ}
    (hstores : StoresAll lib field fields record record') (hlawful : lib.Lawful) {maxOut : Nat}
    {out : Bytes} (hencode : lib.encode fields maxOut = some out) :
    FieldSteps lib.toProtobuf field out record record' := by
  induction hstores generalizing maxOut out with
  | nil record =>
      cases hencode
      exact FieldSteps.nil record
  | cons hentry hrest ih =>
      obtain ⟨first, more, hfirst, hmore, rfl⟩ := encode_cons hencode
      exact FieldSteps.cons (fieldStep_encodeField hlawful hentry.1 hfirst hentry.2) (ih hmore)

theorem storesTo_bytes {fieldNo : Nat} (hpos : 0 < fieldNo) (hsmall : fieldNo < 16) (data : Bytes)
    {record : ρ} (set : Bytes → ρ)
    (hfield : ∀ input, field fieldNo input record = lengthDelimited lib.toProtobuf input set) :
    StoresTo lib field (fieldNo, .bytes data) record (set data) := by
  refine ⟨encodable_bytes hpos hsmall data, fun input count hread => ?_⟩
  rw [hfield, lengthDelimited, hread]

theorem storesTo_varint {fieldNo : Nat} (hpos : 0 < fieldNo) (hsmall : fieldNo < 16) (value : UInt64)
    {record : ρ} (set : UInt64 → ρ)
    (hfield : ∀ input, field fieldNo input record = varintField lib.toProtobuf input set) :
    StoresTo lib field (fieldNo, .varint value) record (set value) := by
  refine ⟨encodable_varint hpos hsmall value, ?_⟩
  rintro input count ⟨hcount, hread⟩
  obtain ⟨count, rfl⟩ : ∃ n, count = n + 1 := ⟨count - 1, by omega⟩
  rw [hfield, varintField, hread]
  rfl

/-- A string is decoded as its bytes are, so bytes are too. -/
theorem storesTo_text (hlawful : lib.Lawful) {entry : Nat × FieldValue} {data : Bytes}
    (hentry : Encodable entry) (hvalue : entry.2 = .bytes data ∨ entry.2 = .string data)
    {record : ρ} (set : Bytes → ρ)
    (hfield : ∀ input, field entry.1 input record = stringField lib input set) :
    StoresTo lib field entry record (set data) := by
  refine ⟨hentry, fun input count hread => ?_⟩
  have htext : lib.decodeString input = some (data, count) := by
    obtain hbytes | hstring := hvalue
    · rw [hbytes] at hread
      rw [hlawful.decodesString]
      exact hread
    · rw [hstring] at hread
      exact hread
  rw [hfield, stringField, htext]

end

end CLibp2p
