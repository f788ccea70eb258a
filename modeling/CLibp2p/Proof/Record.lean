import CLibp2p.Proof.ProtobufFields
import CLibp2p.Record.Record

/-!
# When a record decodes to itself

Four fields are decoded with the size that was sent. The key is decoded as a string, so it loses what
stands behind its first zero byte.
-/

namespace CLibp2p.Record

open Duplex

variable {lib : FieldLibrary}

theorem recordStores (hlawful : lib.Lawful) (record : Libp2pRecord) :
    StoresAll lib (recordField lib) record.fields .new { record with key := cString record.key } :=
  .cons (storesTo_text hlawful (encodable_bytes (by decide) (by decide) record.key) (Or.inl rfl)
    _ fun _ => rfl) <|
  .cons (storesTo_bytes (by decide) (by decide) record.value _ fun _ => rfl) <|
  .cons (storesTo_bytes (by decide) (by decide) record.author _ fun _ => rfl) <|
  .cons (storesTo_bytes (by decide) (by decide) record.signature _ fun _ => rfl) <|
  .cons (storesTo_bytes (by decide) (by decide) record.timeReceived _ fun _ => rfl) <|
  .nil _

/-- What becomes of a record that was encoded. -/
theorem recordDecode_encode (hlawful : lib.Lawful) {record : Libp2pRecord} {maxOut : Nat} {out : Bytes}
    (hencode : recordEncode lib record maxOut = some out) (behind : Bytes) :
    recordDecode lib out behind = some { record with key := cString record.key } :=
  ((recordStores hlawful record).fieldSteps hlawful hencode).decodeBuffer behind

theorem exists_recordEncode (hlawful : lib.Lawful) (record : Libp2pRecord) {maxOut : Nat}
    (hspace : recordEncodeSize record ≤ maxOut) (hmax : maxOut < 2 ^ 64) :
    ∃ out, recordEncode lib record maxOut = some out :=
  exists_encode hlawful (recordStores hlawful record).encodable hmax hspace

/-- **Records.** A record decodes to itself exactly if its key has no zero byte. -/
theorem recordDecode_eq_iff (hlawful : lib.Lawful) (record : Libp2pRecord) {maxOut : Nat}
    (hspace : recordEncodeSize record ≤ maxOut) (hmax : maxOut < 2 ^ 64) (behind : Bytes) :
    ∃ out, recordEncode lib record maxOut = some out ∧
      (recordDecode lib out behind = some record ↔ 0 ∉ record.key) := by
  obtain ⟨out, hout⟩ := exists_recordEncode hlawful record hspace hmax
  refine ⟨out, hout, ?_⟩
  rw [recordDecode_encode hlawful hout, Option.some.injEq, ← cString_eq_self_iff]
  constructor
  · exact congrArg Libp2pRecord.key
  · intro hkey
    rw [hkey]

theorem recordDecode_eq_iff_key :
    ∃ out, recordEncode .varints ⟨[7, 0], [1], [2], [3], [4]⟩ 100 = some out ∧
      (recordDecode .varints out [9] = some ⟨[7, 0], [1], [2], [3], [4]⟩ ↔ 0 ∉ ([7, 0] : Bytes)) := by
  have hspace : recordEncodeSize ⟨[7, 0], [1], [2], [3], [4]⟩ ≤ 100 := by decide
  exact recordDecode_eq_iff fieldLibrary_varints_lawful _ hspace (by decide) [9]

/-- A multihash as the key, with a zero byte in its digest. -/
theorem recordDecode_eq_fails :
    ∃ out, recordEncode .varints ⟨[18, 3, 5, 0, 6], [1], [], [], []⟩ 100 = some out ∧
      recordDecode .varints out [] ≠ some ⟨[18, 3, 5, 0, 6], [1], [], [], []⟩ :=
  ⟨[10, 5, 18, 3, 5, 0, 6, 18, 1, 1, 26, 0, 34, 0, 42, 0], by decide, by decide⟩

end CLibp2p.Record
