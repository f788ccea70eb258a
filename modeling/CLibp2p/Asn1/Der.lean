import CLibp2p.Stream.Bytes
import Mathlib.Data.List.TakeWhile

/-!
# One DER element

An element is a tag, the length of the contents and the contents. The length takes one byte below 128 and
otherwise a count and the bytes of the number, highest first and none of them to spare, of which there are
at most four here. So each element has one encoding, and `get` takes off what `element` writes.
-/

namespace Der

open Duplex

/-- The bytes of a length in the long form. -/
def longLength (n : Nat) : Bytes := (be32 (UInt32.ofNat n)).dropWhile (· = 0)

def encodeLength (n : Nat) : Bytes :=
  if n < 128 then [UInt8.ofNat n] else UInt8.ofNat (128 + (longLength n).length) :: longLength n

def element (tag : UInt8) (contents : Bytes) : Option Bytes :=
  if contents.length < 2 ^ 32 then some (tag :: encodeLength contents.length ++ contents) else none

/-- The number of at most four bytes. -/
def ofLong (bytes : Bytes) : Nat :=
  match List.replicate (4 - bytes.length) 0 ++ bytes with
  | [b0, b1, b2, b3] => (ofBe32 b0 b1 b2 b3).toNat
  | _ => 0

def decodeLength : Bytes → Option (Nat × Bytes)
  | [] => none
  | first :: input =>
      if first.toNat < 128 then some (first.toNat, input)
      else
        let count := first.toNat - 128
        let bytes := input.take count
        if bytes.length = count ∧ count ≤ 4 ∧ bytes.head? ≠ some 0 ∧ 128 ≤ ofLong bytes then
          some (ofLong bytes, input.drop count)
        else none

/-- The contents of the element that the input starts with, and what is behind it. -/
def get (tag : UInt8) : Bytes → Option (Bytes × Bytes)
  | [] => none
  | first :: input =>
      if first = tag then
        match decodeLength input with
        | none => none
        | some (n, input) => if n ≤ input.length then some (input.take n, input.drop n) else none
      else none

/-! ### Lengths -/

theorem replicate_length_takeWhile (bytes : Bytes) :
    List.replicate (bytes.takeWhile (· = 0)).length 0 ++ bytes.dropWhile (· = 0) = bytes := by
  have hzeros : bytes.takeWhile (· = 0) = List.replicate (bytes.takeWhile (· = 0)).length 0 :=
    List.eq_replicate_of_mem fun byte hbyte => by simpa using List.mem_takeWhile_imp hbyte
  rw [← hzeros, List.takeWhile_append_dropWhile]

theorem ofLong_longLength {n : Nat} (hlt : n < 2 ^ 32) : ofLong (longLength n) = n := by
  have hpad := replicate_length_takeWhile (be32 (UInt32.ofNat n))
  have hsum := congrArg List.length (List.takeWhile_append_dropWhile (p := (· = 0))
    (l := be32 (UInt32.ofNat n)))
  rw [List.length_append] at hsum
  have hfour : (be32 (UInt32.ofNat n)).length = 4 := rfl
  have hmissing : 4 - (longLength n).length = ((be32 (UInt32.ofNat n)).takeWhile (· = 0)).length := by
    rw [longLength]
    omega
  rw [ofLong, hmissing, longLength, hpad, be32]
  dsimp only
  rw [ofBe32_be32, UInt32.toNat_ofNat_of_lt' hlt]

theorem length_longLength (n : Nat) : (longLength n).length ≤ 4 :=
  (List.dropWhile_sublist _).length_le

theorem head_longLength (n : Nat) : (longLength n).head? ≠ some 0 := by
  intro hzero
  have hnot := List.head?_dropWhile_not (fun byte : UInt8 => decide (byte = 0)) (be32 (UInt32.ofNat n))
  rw [← longLength, hzero] at hnot
  simp at hnot

theorem exists_four {bytes : Bytes} (hlength : bytes.length = 4) :
    ∃ b0 b1 b2 b3, bytes = [b0, b1, b2, b3] := by
  match bytes, hlength with
  | [b0, b1, b2, b3], _ => exact ⟨b0, b1, b2, b3, rfl⟩

theorem longLength_ofLong {bytes : Bytes} (hlength : bytes.length ≤ 4) (hhead : bytes.head? ≠ some 0) :
    longLength (ofLong bytes) = bytes ∧ ofLong bytes < 2 ^ 32 := by
  have hfour : (List.replicate (4 - bytes.length) 0 ++ bytes).length = 4 := by
    rw [List.length_append, List.length_replicate]
    omega
  obtain ⟨b0, b1, b2, b3, hpad⟩ := exists_four hfour
  have hvalue : ofLong bytes = (ofBe32 b0 b1 b2 b3).toNat := by
    rw [ofLong, hpad]
  have hzeros : ∀ byte ∈ List.replicate (4 - bytes.length) (0 : UInt8), decide (byte = 0) = true := by
    intro byte hbyte
    rw [List.eq_of_mem_replicate hbyte]
    rfl
  have hself : bytes.dropWhile (fun byte => decide (byte = 0)) = bytes := by
    cases bytes with
    | nil => rfl
    | cons byte bytes =>
        apply List.dropWhile_cons_of_neg
        rw [List.head?_cons] at hhead
        simpa using hhead
  rw [hvalue]
  refine ⟨?_, UInt32.toNat_lt _⟩
  rw [longLength, UInt32.ofNat_toNat, be32_ofBe32, ← hpad, List.dropWhile_append_of_pos hzeros, hself]

theorem toNat_longCount (n : Nat) :
    (UInt8.ofNat (128 + (longLength n).length)).toNat = 128 + (longLength n).length := by
  have hle := length_longLength n
  rw [UInt8.toNat_ofNat']
  omega

theorem decodeLength_encodeLength {n : Nat} (hlt : n < 2 ^ 32) (rest : Bytes) :
    decodeLength (encodeLength n ++ rest) = some (n, rest) := by
  rw [encodeLength]
  by_cases hshort : n < 128
  · have hbyte : (UInt8.ofNat n).toNat = n := by
      rw [UInt8.toNat_ofNat']
      omega
    rw [if_pos hshort, List.singleton_append, decodeLength, hbyte, if_pos hshort]
  · rw [if_neg hshort, List.cons_append, decodeLength, toNat_longCount, if_neg (by omega)]
    dsimp only
    rw [Nat.add_sub_cancel_left, List.take_left, List.drop_left, ofLong_longLength hlt]
    exact if_pos ⟨rfl, length_longLength n, head_longLength n, Nat.not_lt.mp hshort⟩

theorem encodeLength_of_decodeLength {input rest : Bytes} {n : Nat}
    (hdecode : decodeLength input = some (n, rest)) : n < 2 ^ 32 ∧ input = encodeLength n ++ rest := by
  cases input with
  | nil => cases hdecode
  | cons first input =>
      rw [decodeLength] at hdecode
      by_cases hshort : first.toNat < 128
      · rw [if_pos hshort] at hdecode
        cases hdecode
        refine ⟨by omega, ?_⟩
        rw [encodeLength, if_pos hshort, UInt8.ofNat_toNat, List.singleton_append]
      · rw [if_neg hshort] at hdecode
        dsimp only at hdecode
        split at hdecode
        · rename_i hlong
          obtain ⟨hlength, hfour, hhead, hge⟩ := hlong
          obtain ⟨rfl, rfl⟩ := Prod.mk.inj (Option.some.inj hdecode)
          obtain ⟨hbytes, hlt⟩ := longLength_ofLong (by omega) hhead
          refine ⟨hlt, ?_⟩
          have hfirst : UInt8.ofNat (128 + (first.toNat - 128)) = first := by
            rw [Nat.add_sub_cancel' (Nat.not_lt.mp hshort), UInt8.ofNat_toNat]
          rw [encodeLength, if_neg (Nat.not_lt.mpr hge), hbytes, hlength, hfirst, List.cons_append,
            List.take_append_drop]
        · cases hdecode

/-- **One encoding.** What is taken off is what is written. -/
theorem get_eq_some_iff {tag : UInt8} {input contents rest : Bytes} :
    get tag input = some (contents, rest) ↔
      ∃ written, element tag contents = some written ∧ input = written ++ rest := by
  constructor
  · intro hget
    cases input with
    | nil => cases hget
    | cons first input =>
        rw [get] at hget
        split at hget
        · rename_i htag
          split at hget
          · cases hget
          · rename_i n input' hdecode
            obtain ⟨hlt, rfl⟩ := encodeLength_of_decodeLength hdecode
            split at hget
            · rename_i hfits
              cases hget
              have hlength : (input'.take n).length = n := List.length_take_of_le hfits
              refine ⟨first :: encodeLength n ++ input'.take n, ?_, ?_⟩
              · rw [element, hlength, if_pos hlt, htag]
              · rw [List.cons_append, List.cons_append, List.append_assoc, List.take_append_drop]
            · cases hget
        · cases hget
  · rintro ⟨written, hwritten, rfl⟩
    rw [element] at hwritten
    split at hwritten
    · rename_i hlt
      cases hwritten
      have hfits : contents.length ≤ (contents ++ rest).length := by
        rw [List.length_append]
        exact Nat.le_add_right _ _
      rw [List.cons_append, List.cons_append, List.append_assoc, get, if_pos rfl,
        decodeLength_encodeLength hlt]
      dsimp only
      rw [if_pos hfits, List.take_left, List.drop_left]
    · cases hwritten

end Der
