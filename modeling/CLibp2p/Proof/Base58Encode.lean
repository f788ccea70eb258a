import CLibp2p.Crypto.Base58Encode
import CLibp2p.Proof.Base58
import Mathlib.Data.List.GetD

/-!
# The index of the base58 encoder

The inner loop stops early: the digits that it leaves out are zero, and so is the carry. Read from the low
end it is `carryInto`, and the carry is used up before the buffer is because the number never outgrows it.
-/

namespace CLibp2p.Crypto

open Duplex

/-- The digits up to this index are zero. -/
def ZeroUpTo (high : Int) (buf : List Nat) : Prop := ∀ i : Nat, (i : Int) ≤ high → buf.getD i 0 = 0

theorem eq_replicate_of_zeros {buf : List Nat} (hzero : ∀ i, buf.getD i 0 = 0) :
    buf = List.replicate buf.length 0 := by
  refine List.eq_replicate_of_mem fun digit hdigit => ?_
  obtain ⟨i, hi, rfl⟩ := List.mem_iff_getElem.mp hdigit
  simpa [hi] using hzero i

theorem carryInto_zeros (size : Nat) :
    carryInto 0 (List.replicate size 0) = List.replicate size 0 := by
  induction size with
  | zero => rfl
  | succ size ih => rw [List.replicate_succ, carryInto, ih]

/-- The inner loop from an index down is `carryInto` on the digits from there up. -/
theorem carryLoop_eq {high : Int} (hhigh : -1 ≤ high) {front : List Nat} {carry : Nat}
    (hzero : ZeroUpTo high front)
    (hfits : carry + 256 * Nat.ofDigits 58 front.reverse < 58 ^ front.length) (back : List Nat) :
    ∃ j, carryLoop high front.length carry (front ++ back) =
        some ((carryInto carry front.reverse).reverse ++ back, j) ∧
      -1 ≤ j ∧ j < front.length ∧ ZeroUpTo j (carryInto carry front.reverse).reverse := by
  induction front using List.reverseRecOn generalizing carry back with
  | nil =>
      rw [List.reverse_nil, Nat.ofDigits_nil, List.length_nil, Nat.pow_zero] at hfits
      have hcarry : carry = 0 := by omega
      refine ⟨-1, ?_, le_refl _, by simp, fun i hi => by omega⟩
      rw [List.length_nil, carryLoop, if_neg (by omega)]
      rfl
  | append_singleton front digit ih =>
      rw [List.length_append, List.length_singleton]
      rw [List.reverse_concat, Nat.ofDigits_cons, List.length_append, List.length_singleton,
        Nat.pow_succ] at hfits
      have hfront : ZeroUpTo high front := by
        intro i hi
        have hat := hzero i hi
        by_cases hlt : i < front.length
        · rwa [List.getD_append _ _ _ _ hlt] at hat
        · exact List.getD_eq_default _ _ (Nat.not_lt.mp hlt)
      have hread : (front ++ [digit] ++ back).getD front.length 0 = digit := by
        simp
      have hwrite : ∀ value, (front ++ [digit] ++ back).set front.length value =
          front ++ ([value] ++ back) := by
        intro value
        simp
      rw [carryLoop]
      dsimp only
      rw [hread, hwrite, List.reverse_concat, carryInto, List.reverse_cons]
      by_cases hround : high < front.length ∨ carry ≠ 0
      · rw [if_pos hround]
        have hrest : (carry + 256 * digit) / 58 + 256 * Nat.ofDigits 58 front.reverse <
            58 ^ front.length := by
          omega
        obtain ⟨j, hloop, hge, hlt, hleft⟩ := ih hfront hrest ([(carry + 256 * digit) % 58] ++ back)
        refine ⟨j, ?_, hge, by omega, fun i hi => ?_⟩
        · rw [hloop, List.append_assoc]
        · have hin : i < (carryInto ((carry + 256 * digit) / 58) front.reverse).reverse.length := by
            rw [List.length_reverse, length_carryInto, List.length_reverse]
            omega
          rw [List.getD_append _ _ _ _ hin]
          exact hleft i hi
      · -- all the digits that are left are zero, and nothing is carried into them
        rw [if_neg hround]
        rw [not_or, not_lt, not_not] at hround
        obtain ⟨hle, rfl⟩ := hround
        have hdigit : digit = 0 := by
          have hat := hzero front.length hle
          simpa using hat
        have hzeros : front = List.replicate front.length 0 := by
          refine eq_replicate_of_zeros fun i => ?_
          by_cases hlt : i < front.length
          · exact hfront i (by omega)
          · exact List.getD_eq_default _ _ (Nat.not_lt.mp hlt)
        have hsame : (carryInto ((0 + 256 * digit) / 58) front.reverse).reverse = front := by
          rw [hdigit, hzeros, List.reverse_replicate, Nat.mul_zero, Nat.add_zero, Nat.zero_div,
            carryInto_zeros, List.reverse_replicate]
        refine ⟨front.length, ?_, by omega, by omega, fun i hi => ?_⟩
        · rw [hsame, hdigit]
        · rw [hsame, hdigit]
          have hat := hzero i (by omega)
          rwa [hdigit] at hat

/-- The loop over the bytes, if the number that it comes to has room in the buffer. -/
theorem encodeLoop_eq {high : Int} (hhigh : -1 ≤ high) {buf : List Nat} (hzero : ZeroUpTo high buf)
    {bin : Bytes}
    (hfits : 256 ^ bin.length * Nat.ofDigits 58 buf.reverse + bigEndian bin < 58 ^ buf.length) :
    encodeLoop high buf bin =
      some (bin.foldl (fun buf byte => carryInto byte.toNat buf) buf.reverse).reverse := by
  induction bin generalizing high buf with
  | nil => rw [encodeLoop, List.foldl_nil, List.reverse_reverse]
  | cons byte bin ih =>
      have hvalue : 256 ^ (byte :: bin).length * Nat.ofDigits 58 buf.reverse + bigEndian (byte :: bin) =
          256 ^ bin.length * (byte.toNat + 256 * Nat.ofDigits 58 buf.reverse) + bigEndian bin := by
        rw [bigEndian_cons, Nat.mul_comm byte.toNat, List.length_cons, Nat.pow_succ]
        ring
      rw [hvalue] at hfits
      have hround : byte.toNat + 256 * Nat.ofDigits 58 buf.reverse < 58 ^ buf.length := by
        refine Nat.lt_of_le_of_lt ?_ (Nat.lt_of_le_of_lt (Nat.le_add_right _ _) hfits)
        exact Nat.le_mul_of_pos_left _ (Nat.pow_pos (by decide))
      obtain ⟨j, hloop, hge, -, hleft⟩ := carryLoop_eq hhigh hzero hround []
      rw [List.append_nil, List.append_nil] at hloop
      rw [encodeLoop, hloop, List.foldl_cons]
      have hlength : (carryInto byte.toNat buf.reverse).reverse.length = buf.length := by
        rw [List.length_reverse, length_carryInto, List.length_reverse]
      have hnext : Nat.ofDigits 58 (carryInto byte.toNat buf.reverse) =
          byte.toNat + 256 * Nat.ofDigits 58 buf.reverse :=
        ofDigits_carryInto (by rwa [List.length_reverse])
      have hrest := ih hge hleft (by rwa [List.reverse_reverse, hnext, hlength])
      rw [List.reverse_reverse] at hrest
      exact hrest

theorem eq_digits_append_zeros {buf : List Nat} (hdigits : ∀ digit ∈ buf, digit < 58)
    (hlength : (Nat.digits 58 (Nat.ofDigits 58 buf)).length ≤ buf.length) :
    buf = Nat.digits 58 (Nat.ofDigits 58 buf) ++
      List.replicate (buf.length - (Nat.digits 58 (Nat.ofDigits 58 buf)).length) 0 := by
  refine Nat.ofDigits_inj_of_len_eq (by decide : 1 < 58) ?_ hdigits ?_ ?_
  · rw [List.length_append, List.length_replicate]
    omega
  · intro digit hdigit
    rcases List.mem_append.mp hdigit with hdigit | hdigit
    · exact Nat.digits_lt_base (by decide) hdigit
    · rw [List.eq_of_mem_replicate hdigit]
      decide
  · rw [Nat.ofDigits_append_replicate_zero, Nat.ofDigits_digits]

/-- The loop comes to what `base58Encode` has for it, rounds over the whole buffer. -/
theorem encodeLoop_zeros {rest : Bytes} {size : Nat} (henough : 256 ^ rest.length ≤ 58 ^ size) :
    encodeLoop (size - 1) (List.replicate size 0) rest =
      some (rest.foldl (fun buf byte => carryInto byte.toNat buf) (List.replicate size 0)).reverse := by
  have hbound := Nat.lt_of_lt_of_le (bigEndian_lt rest) henough
  have hzeros : Nat.ofDigits 58 (List.replicate size 0) = 0 :=
    Nat.ofDigits_append_replicate_zero (b := 58) (k := size) []
  have hfits : 256 ^ rest.length * Nat.ofDigits 58 (List.replicate size 0).reverse + bigEndian rest <
      58 ^ (List.replicate size 0).length := by
    rwa [List.reverse_replicate, hzeros, Nat.mul_zero, Nat.zero_add, List.length_replicate]
  have hzero : ZeroUpTo (size - 1) (List.replicate size 0) := fun i _ => by
    rw [List.getD_eq_getElem?_getD, List.getElem?_getD_replicate_default_eq]
  have hrun := encodeLoop_eq (by omega) hzero hfits
  rwa [List.reverse_replicate] at hrun

/-- **The conversion loop.** The index stays within the buffer, which then holds the base-58 digits of the
number behind the leading zeros, the highest first. -/
theorem encodeBuf_eq (bin : Bytes) :
    let rest := bin.dropWhile (· = 0)
    let digits := Nat.digits 58 (bigEndian rest)
    digits.length ≤ rest.length * 138 / 100 + 1 ∧
      encodeBuf bin =
        some (List.replicate (rest.length * 138 / 100 + 1 - digits.length) 0 ++ digits.reverse) := by
  dsimp only
  have hsplit : bin.drop (bin.takeWhile (· = 0)).length = bin.dropWhile (· = 0) := by
    conv_lhs => arg 2; rw [← List.takeWhile_append_dropWhile (p := (· = 0)) (l := bin)]
    exact List.drop_left
  have hsize : bin.length - (bin.takeWhile (· = 0)).length = (bin.dropWhile (· = 0)).length := by
    rw [← hsplit, List.length_drop]
  rw [encodeBuf, hsize, hsplit]
  generalize bin.dropWhile (· = 0) = rest
  have henough := pow_length_le rest.length
  generalize rest.length * 138 / 100 + 1 = size at *
  obtain ⟨hlength, hdigits, hvalue⟩ := ofDigits_foldl henough
  have hroom : (Nat.digits 58 (bigEndian rest)).length ≤ size :=
    (Nat.digits_length_le_iff (by decide) _).mpr (Nat.lt_of_lt_of_le (bigEndian_lt rest) henough)
  refine ⟨hroom, ?_⟩
  rw [encodeLoop_zeros henough]
  generalize rest.foldl (fun buf byte => carryInto byte.toNat buf) (List.replicate size 0) = buf at *
  have hbuf := eq_digits_append_zeros hdigits (by rwa [hvalue, hlength])
  rw [hvalue, hlength] at hbuf
  rw [hbuf, List.reverse_append, List.reverse_replicate]

end CLibp2p.Crypto
