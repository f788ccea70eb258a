import CLibp2p.Protobuf
import Mathlib.Data.List.TakeWhile

/-!
# Messages, field by field

What the hand-written encoders and decoders of the repository share. An encoder writes field after field.
A decoder loops over tags and skips the tag of a field it does not know. It bounds the tag by the size of
the whole buffer and not by what is left of it, so what it does may depend on the memory behind.
-/

namespace CLibp2p

open Duplex

def wiretypeVarint : Nat := 0

/-- The rest of the library. A string is what stands before its zero byte, and `decodeString` puts a zero
byte behind the data. -/
structure FieldLibrary extends Protobuf where
  encodeVarint : (fieldNo : Nat) → (value : UInt64) → (maxOut : Nat) → Option Bytes
  encodeString : (fieldNo : Nat) → (text : Bytes) → (maxOut : Nat) → Option Bytes
  decodeString : Bytes → Option (Bytes × Nat)

structure FieldLibrary.Lawful (lib : FieldLibrary) : Prop extends lib.toProtobuf.Lawful where
  varintFits : ∀ fieldNo value maxOut out, lib.encodeVarint fieldNo value maxOut = some out →
    out.length ≤ maxOut
  varintHeader : ∀ fieldNo value maxOut out, 0 < fieldNo → fieldNo < 16 →
    lib.encodeVarint fieldNo value maxOut = some out → out.length ≤ maxFieldHeader
  varintEncodes : ∀ fieldNo value maxOut, 0 < fieldNo → fieldNo < 16 → maxOut < 2 ^ 64 →
    maxFieldHeader ≤ maxOut → ∃ out, lib.encodeVarint fieldNo value maxOut = some out
  varintDecodes : ∀ fieldNo value maxOut out, 0 < fieldNo → fieldNo < 16 →
    lib.encodeVarint fieldNo value maxOut = some out →
    ∃ headerBytes varintLength, 0 < varintLength ∧ out.length = headerBytes + varintLength ∧ ∀ rest,
      lib.decodeFieldAndType (out ++ rest) = some (fieldNo, wiretypeVarint, headerBytes) ∧
      lib.varintDecode ((out ++ rest).drop headerBytes) = (value, varintLength)
  encodesString : ∀ fieldNo text maxOut, 0 ∉ text →
    lib.encodeString fieldNo text maxOut = lib.encodeLengthDelimited fieldNo text maxOut
  decodesString : lib.decodeString = lib.decodeLengthDelimited

/-! ### Encoding -/

inductive FieldValue where
  | varint (value : UInt64)
  | bytes (data : Bytes)
  | string (text : Bytes)
deriving Repr, DecidableEq

/-- What the size functions of the repository count for a field. -/
def FieldValue.size : FieldValue → Nat
  | .varint _ => maxFieldHeader
  | .bytes data => maxFieldHeader + data.length
  | .string text => maxFieldHeader + text.length

def encodeSizes (fields : List (Nat × FieldValue)) : Nat :=
  (fields.map fun field => field.2.size).sum

namespace FieldLibrary

def encodeField (lib : FieldLibrary) (fieldNo : Nat) (value : FieldValue) (maxOut : Nat) :
    Option Bytes :=
  match value with
  | .varint value => lib.encodeVarint fieldNo value maxOut
  | .bytes data => lib.encodeLengthDelimited fieldNo data maxOut
  | .string text => lib.encodeString fieldNo text maxOut

/-- Field after field, each with the space that is left. -/
def encode (lib : FieldLibrary) : (fields : List (Nat × FieldValue)) → (maxOut : Nat) → Option Bytes
  | [], _ => some []
  | (fieldNo, value) :: fields, maxOut =>
      match lib.encodeField fieldNo value maxOut with
      | none => none
      | some out => (lib.encode fields (maxOut - out.length)).map fun more => out ++ more

end FieldLibrary

/-! ### Decoding -/

/-- `in_size - pos`, in a `size_t`. -/
def sizeLeft (size pos : Nat) : Nat := if pos ≤ size then size - pos else size + 2 ^ 64 - pos

/-- The loop of the decoders, over the first `size` bytes of `memory`. `field` takes the bytes after a tag
and gives the record with the field set and how many of the bytes it took. A library that takes nothing
leaves the loop without end. -/
def decodeLoop {ρ : Type} (pb : Protobuf) (field : (fieldNo : Nat) → Bytes → ρ → Option (ρ × Nat))
    (memory : Bytes) (size : Nat) : (fuel pos : Nat) → ρ → Option ρ
  | 0, pos, record => if size ≤ pos then some record else none
  | fuel + 1, pos, record =>
      if size ≤ pos then some record
      else match pb.decodeFieldAndType ((memory.drop pos).take size) with
        | none => none
        | some (fieldNo, _, headerBytes) =>
            let pos := pos + headerBytes
            match field fieldNo ((memory.drop pos).take (sizeLeft size pos)) record with
            | none => none
            | some (record, count) => decodeLoop pb field memory size fuel (pos + count) record

/-- The loop over a whole buffer, with the memory behind it. -/
def decodeBuffer {ρ : Type} (pb : Protobuf) (field : (fieldNo : Nat) → Bytes → ρ → Option (ρ × Nat))
    (input behind : Bytes) (record : ρ) : Option ρ :=
  decodeLoop pb field (input ++ behind) input.length input.length 0 record

def lengthDelimited {ρ : Type} (pb : Protobuf) (input : Bytes) (set : Bytes → ρ) : Option (ρ × Nat) :=
  match pb.decodeLengthDelimited input with
  | none => none
  | some (data, count) => some (set data, count)

/-- A varint field, for which `protobuf_decode_varint` fails if nothing was read. -/
def varintField {ρ : Type} (pb : Protobuf) (input : Bytes) (set : UInt64 → ρ) : Option (ρ × Nat) :=
  match pb.varintDecode input with
  | (_, 0) => none
  | (value, count) => some (set value, count)

def stringField {ρ : Type} (lib : FieldLibrary) (input : Bytes) (set : Bytes → ρ) : Option (ρ × Nat) :=
  match lib.decodeString input with
  | none => none
  | some (text, count) => some (set text, count)

/-- What `strlen` counts of the bytes before a zero byte. -/
def cString (text : Bytes) : Bytes := text.takeWhile (· ≠ 0)

/-! ### The wire format -/

def FieldLibrary.varints : FieldLibrary where
  toProtobuf := .varints
  encodeVarint fieldNo value maxOut :=
    let out := varintEncode 10 (8 * fieldNo + wiretypeVarint) ++ varintEncode 10 value.toNat
    if out.length ≤ maxOut then some out else none
  encodeString fieldNo text maxOut :=
    Protobuf.varints.encodeLengthDelimited fieldNo (cString text) maxOut
  decodeString := Protobuf.varints.decodeLengthDelimited

theorem cString_eq_self_iff {text : Bytes} : cString text = text ↔ 0 ∉ text := by
  rw [cString, List.takeWhile_eq_self_iff]
  constructor
  · intro hall hzero
    exact absurd rfl (of_decide_eq_true (hall 0 hzero))
  · intro hzero byte hbyte
    exact decide_eq_true fun heq => hzero (heq ▸ hbyte)

theorem fieldLibrary_varints_lawful : FieldLibrary.varints.Lawful where
  toLawful := varints_lawful
  varintFits fieldNo value maxOut out hencode := by
    simp only [FieldLibrary.varints] at hencode
    split at hencode
    · rename_i hspace
      cases hencode
      exact hspace
    · cases hencode
  varintHeader fieldNo value maxOut out hpos hsmall hencode := by
    have htag : (varintEncode 10 (8 * fieldNo + wiretypeVarint)).length = 1 := by
      rw [varintEncode_small 9 (by rw [wiretypeVarint]; omega)]
      rfl
    have hvalue := varintEncode_length_le 10 value.toNat
    simp only [FieldLibrary.varints] at hencode
    split at hencode
    · cases hencode
      rw [List.length_append, htag, maxFieldHeader]
      omega
    · cases hencode
  varintEncodes fieldNo value maxOut hpos hsmall hmax hspace := by
    have htag : (varintEncode 10 (8 * fieldNo + wiretypeVarint)).length = 1 := by
      rw [varintEncode_small 9 (by rw [wiretypeVarint]; omega)]
      rfl
    have hvalue := varintEncode_length_le 10 value.toNat
    refine ⟨_, if_pos ?_⟩
    rw [List.length_append, htag]
    rw [maxFieldHeader] at hspace
    omega
  varintDecodes fieldNo value maxOut out hpos hsmall hencode := by
    simp only [FieldLibrary.varints] at hencode
    split at hencode
    · cases hencode
      refine ⟨_, _, varintEncode_length_pos 9 _, List.length_append, fun rest => ⟨?_, ?_⟩⟩
      · have htag := varintRead_encode_ten (n := 8 * fieldNo + wiretypeVarint)
          (by rw [wiretypeVarint]; omega) (varintEncode 10 value.toNat ++ rest)
        rw [List.append_assoc]
        simp only [FieldLibrary.varints, Protobuf.varints, htag]
        rw [wiretypeVarint, show (8 * fieldNo + 0) / 8 = fieldNo by omega,
          show (8 * fieldNo + 0) % 8 = 0 by omega]
      · rw [List.append_assoc, List.drop_left]
        simp only [FieldLibrary.varints, Protobuf.varints, varintRead_encode_ten value.toNat_lt rest,
          UInt64.ofNat_toNat]
    · cases hencode
  encodesString fieldNo text maxOut htext := by
    simp only [FieldLibrary.varints, cString_eq_self_iff.mpr htext]
  decodesString := rfl

end CLibp2p
