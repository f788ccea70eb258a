import CLibp2p.Stream.Bytes

/-!
# The protobuf library

The library is not part of the repository, so its calls are a parameter. `Protobuf.Lawful` is what the
code relies on: encoding a length-delimited field fails only for lack of space, and an encoded field
decodes to itself. `Protobuf.varints` is the wire format written out, and it is lawful.
-/

namespace CLibp2p

open Duplex

/-- `decodeFieldAndType` gives the field number, the wire type and how many bytes it read,
`varintDecode` the value and how many bytes it read, `decodeLengthDelimited` the data and how many bytes
it read. -/
structure Protobuf where
  encodeLengthDelimited : (fieldNo : Nat) → (data : Bytes) → (maxOut : Nat) → Option Bytes
  decodeFieldAndType : Bytes → Option (Nat × Nat × Nat)
  varintDecode : Bytes → UInt64 × Nat
  decodeLengthDelimited : Bytes → Option (Bytes × Nat)

def wiretypeLengthDelimited : Nat := 2

/-- The most bytes that tag and length of a field take. -/
def maxFieldHeader : Nat := 11

structure Protobuf.Lawful (pb : Protobuf) : Prop where
  fits : ∀ fieldNo data maxOut out, pb.encodeLengthDelimited fieldNo data maxOut = some out →
    out.length ≤ maxOut
  header : ∀ fieldNo data maxOut out, 0 < fieldNo → fieldNo < 16 →
    pb.encodeLengthDelimited fieldNo data maxOut = some out →
    out.length ≤ maxFieldHeader + data.length
  encodes : ∀ fieldNo data maxOut, 0 < fieldNo → fieldNo < 16 → maxOut < 2 ^ 64 →
    maxFieldHeader + data.length ≤ maxOut →
    ∃ out, pb.encodeLengthDelimited fieldNo data maxOut = some out
  decodes : ∀ fieldNo data maxOut out, 0 < fieldNo → fieldNo < 16 →
    pb.encodeLengthDelimited fieldNo data maxOut = some out →
    ∃ headerBytes varintLength, 0 < varintLength ∧
      out.length = headerBytes + varintLength + data.length ∧
      out.drop (headerBytes + varintLength) = data ∧ ∀ rest,
        pb.decodeFieldAndType (out ++ rest) = some (fieldNo, wiretypeLengthDelimited, headerBytes) ∧
        pb.varintDecode ((out ++ rest).drop headerBytes) =
          (UInt64.ofNat data.length, varintLength) ∧
        pb.decodeLengthDelimited ((out ++ rest).drop headerBytes) =
          some (data, varintLength + data.length)

/-! ### The wire format -/

/-- Seven bits a byte, the high bit on all but the last. -/
def varintEncode : (fuel n : Nat) → Bytes
  | 0, _ => []
  | fuel + 1, n =>
      if n < 128 then [UInt8.ofNat n]
      else UInt8.ofNat (n % 128 + 128) :: varintEncode fuel (n / 128)

/-- The value and how many bytes it takes. -/
def varintRead : Bytes → Option (Nat × Nat)
  | [] => none
  | byte :: rest =>
      if byte < 128 then some (byte.toNat, 1)
      else match varintRead rest with
        | some (value, count) => some (byte.toNat - 128 + 128 * value, count + 1)
        | none => none

def Protobuf.varints : Protobuf where
  encodeLengthDelimited fieldNo data maxOut :=
    let out := varintEncode 10 (8 * fieldNo + wiretypeLengthDelimited) ++
      (varintEncode 10 data.length ++ data)
    if data.length < 2 ^ 64 ∧ out.length ≤ maxOut then some out else none
  decodeFieldAndType input :=
    match varintRead input with
    | some (tag, count) => some (tag / 8, tag % 8, count)
    | none => none
  varintDecode input :=
    match varintRead input with
    | some (value, count) => (UInt64.ofNat value, count)
    | none => (0, 0)
  decodeLengthDelimited input :=
    match varintRead input with
    | some (length, count) =>
        if length ≤ input.length - count then
          some ((input.drop count).take length, count + length)
        else none
    | none => none

theorem varintEncode_length_pos (fuel n : Nat) : 0 < (varintEncode (fuel + 1) n).length := by
  rw [varintEncode]
  split
  · exact Nat.one_pos
  · exact Nat.succ_pos _

theorem varintEncode_length_le (fuel n : Nat) : (varintEncode fuel n).length ≤ fuel := by
  induction fuel generalizing n with
  | zero => exact Nat.le_refl 0
  | succ fuel ih =>
      rw [varintEncode]
      split
      · rw [List.length_singleton]
        omega
      · rw [List.length_cons]
        exact Nat.succ_le_succ (ih _)

theorem varintRead_small {n : Nat} (hsmall : n < 128) (rest : Bytes) :
    varintRead ([UInt8.ofNat n] ++ rest) = some (n, [UInt8.ofNat n].length) := by
  have hbyte : (UInt8.ofNat n).toNat = n := by
    rw [UInt8.toNat_ofNat', Nat.mod_eq_of_lt (by omega)]
  have hlast : UInt8.ofNat n < 128 := by
    rw [UInt8.lt_iff_toNat_lt, hbyte]
    exact hsmall
  rw [List.singleton_append, varintRead, if_pos hlast, hbyte]
  rfl

theorem varintEncode_small (fuel : Nat) {n : Nat} (hsmall : n < 128) :
    varintEncode (fuel + 1) n = [UInt8.ofNat n] := by
  rw [varintEncode, if_pos hsmall]

/-- Reading undoes encoding, whatever follows. -/
theorem varintRead_encode (fuel n : Nat) (hn : n < 128 ^ (fuel + 1)) (rest : Bytes) :
    varintRead (varintEncode (fuel + 1) n ++ rest) =
      some (n, (varintEncode (fuel + 1) n).length) := by
  induction fuel generalizing n with
  | zero =>
      rw [varintEncode_small 0 (by omega)]
      exact varintRead_small (by omega) rest
  | succ fuel ih =>
      by_cases hsmall : n < 128
      · rw [varintEncode_small _ hsmall]
        exact varintRead_small hsmall rest
      · have hbyte : (UInt8.ofNat (n % 128 + 128)).toNat = n % 128 + 128 := by
          rw [UInt8.toNat_ofNat', Nat.mod_eq_of_lt (by omega)]
        have hmore : ¬ UInt8.ofNat (n % 128 + 128) < 128 := by
          rw [UInt8.lt_iff_toNat_lt, hbyte]
          exact Nat.not_lt.mpr (Nat.le_add_left 128 _)
        have hrest : n / 128 < 128 ^ (fuel + 1) := by
          rw [Nat.div_lt_iff_lt_mul (by decide), ← Nat.pow_succ]
          exact hn
        have hvalue : n % 128 + 128 - 128 + 128 * (n / 128) = n := by omega
        rw [varintEncode, if_neg hsmall, List.cons_append, varintRead, if_neg hmore,
          ih (n / 128) hrest, List.length_cons]
        dsimp only
        rw [hbyte, hvalue]

/-- All bytes of a varint but the last have their high bit on. -/
theorem varintEncode_split {k fuel n : Nat} (hfuel : k < fuel) (hn : n < 128 ^ (k + 1)) :
    ∃ more last, varintEncode fuel n = more ++ [last] ∧ more.length ≤ k ∧
      (∀ byte ∈ more, byte &&& 0x80 ≠ 0) ∧ last &&& 0x80 = 0 := by
  have hlow : ∀ m < 128, UInt8.ofNat m &&& 0x80 = 0 := by decide
  have hhigh : ∀ m < 128, UInt8.ofNat (m + 128) &&& 0x80 ≠ 0 := by decide
  obtain ⟨fuel, rfl⟩ : ∃ m, fuel = m + 1 := ⟨fuel - 1, by omega⟩
  induction k generalizing fuel n with
  | zero =>
      rw [varintEncode_small fuel (by omega)]
      exact ⟨[], _, rfl, Nat.le_refl 0, fun byte hbyte => (List.not_mem_nil hbyte).elim,
        hlow n (by omega)⟩
  | succ k ih =>
      by_cases hsmall : n < 128
      · rw [varintEncode_small fuel hsmall]
        exact ⟨[], _, rfl, Nat.zero_le _, fun byte hbyte => (List.not_mem_nil hbyte).elim, hlow n hsmall⟩
      · have hrest : n / 128 < 128 ^ (k + 1) := by
          rw [Nat.div_lt_iff_lt_mul (by decide), ← Nat.pow_succ]
          exact hn
        obtain ⟨fuel, rfl⟩ : ∃ m, fuel = m + 1 := ⟨fuel - 1, by omega⟩
        obtain ⟨more, last, hencode, hlength, hmore, hlast⟩ := ih hrest fuel (by omega)
        refine ⟨UInt8.ofNat (n % 128 + 128) :: more, last, ?_, Nat.succ_le_succ hlength, ?_, hlast⟩
        · rw [varintEncode, if_neg hsmall, hencode, List.cons_append]
        · exact List.forall_mem_cons.mpr ⟨hhigh (n % 128) (Nat.mod_lt n (by decide)), hmore⟩

theorem varintRead_encode_ten {n : Nat} (hn : n < 2 ^ 64) (rest : Bytes) :
    varintRead (varintEncode 10 n ++ rest) = some (n, (varintEncode 10 n).length) :=
  varintRead_encode 9 n (by omega) rest

theorem varints_length_le {fieldNo : Nat} (hsmall : fieldNo < 16) (data : Bytes) :
    (varintEncode 10 (8 * fieldNo + wiretypeLengthDelimited) ++
      (varintEncode 10 data.length ++ data)).length ≤ maxFieldHeader + data.length := by
  have htag : (varintEncode 10 (8 * fieldNo + wiretypeLengthDelimited)).length = 1 := by
    rw [varintEncode_small 9 (by rw [wiretypeLengthDelimited]; omega)]
    rfl
  have hlength := varintEncode_length_le 10 data.length
  rw [List.length_append, List.length_append, htag, maxFieldHeader]
  omega

theorem varints_lawful : Protobuf.varints.Lawful where
  fits fieldNo data maxOut out hencode := by
    simp only [Protobuf.varints] at hencode
    split at hencode
    · rename_i hspace
      cases hencode
      exact hspace.2
    · cases hencode
  header fieldNo data maxOut out hpos hsmall hencode := by
    simp only [Protobuf.varints] at hencode
    split at hencode
    · cases hencode
      exact varints_length_le hsmall data
    · cases hencode
  encodes fieldNo data maxOut hpos hsmall hmax hspace := by
    have hlength := varints_length_le hsmall data
    exact ⟨_, if_pos ⟨by omega, by omega⟩⟩
  decodes fieldNo data maxOut out hpos hsmall hencode := by
    simp only [Protobuf.varints] at hencode
    split at hencode
    · rename_i hspace
      cases hencode
      refine ⟨(varintEncode 10 (8 * fieldNo + wiretypeLengthDelimited)).length,
        (varintEncode 10 data.length).length, varintEncode_length_pos 9 _, ?_, ?_, fun rest => ?_⟩
      · rw [List.length_append, List.length_append, Nat.add_assoc]
      · rw [← List.append_assoc, List.drop_left' (by rw [List.length_append])]
      · have htag : varintRead (varintEncode 10 (8 * fieldNo + wiretypeLengthDelimited) ++
            (varintEncode 10 data.length ++ data) ++ rest) =
              some (8 * fieldNo + wiretypeLengthDelimited,
                (varintEncode 10 (8 * fieldNo + wiretypeLengthDelimited)).length) := by
          rw [List.append_assoc]
          exact varintRead_encode_ten (by rw [wiretypeLengthDelimited]; omega) _
        have hdrop : (varintEncode 10 (8 * fieldNo + wiretypeLengthDelimited) ++
            (varintEncode 10 data.length ++ data) ++ rest).drop
              (varintEncode 10 (8 * fieldNo + wiretypeLengthDelimited)).length =
            varintEncode 10 data.length ++ (data ++ rest) := by
          rw [List.append_assoc, List.drop_left, List.append_assoc]
        have hlength := varintRead_encode_ten hspace.1 (data ++ rest)
        refine ⟨?_, ?_, ?_⟩
        · simp only [Protobuf.varints, htag]
          rw [wiretypeLengthDelimited, show (8 * fieldNo + 2) / 8 = fieldNo by omega,
            show (8 * fieldNo + 2) % 8 = 2 by omega]
        · simp only [Protobuf.varints, hdrop, hlength]
        · simp only [Protobuf.varints, hdrop, hlength, List.drop_left, List.take_left]
          rw [if_pos]
          rw [List.length_append, List.length_append]
          omega
    · cases hencode

end CLibp2p
