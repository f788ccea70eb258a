import Mathlib.Data.List.Basic
import Mathlib.Data.UInt
import Mathlib.Tactic.Common

/-!
# Fixed-width integers on the wire

Network byte order for the two widths a frame header uses, and the little-endian counter of an AEAD
nonce. Encoding followed by decoding is the identity on the machine type, so a header that was
written is the header that is read.
-/

namespace Duplex

abbrev Bytes := List UInt8

/-- `htons` and the two bytes it leaves in memory. -/
def be16 (x : UInt16) : Bytes := [UInt8.ofNat (x.toNat / 2 ^ 8), UInt8.ofNat x.toNat]

/-- `htonl` and the four bytes it leaves in memory. -/
def be32 (x : UInt32) : Bytes :=
  [UInt8.ofNat (x.toNat / 2 ^ 24), UInt8.ofNat (x.toNat / 2 ^ 16), UInt8.ofNat (x.toNat / 2 ^ 8),
    UInt8.ofNat x.toNat]

def ofBe16 (b0 b1 : UInt8) : UInt16 := UInt16.ofNat (b0.toNat * 2 ^ 8 + b1.toNat)

def ofBe32 (b0 b1 b2 b3 : UInt8) : UInt32 :=
  UInt32.ofNat (b0.toNat * 2 ^ 24 + b1.toNat * 2 ^ 16 + b2.toNat * 2 ^ 8 + b3.toNat)

theorem ofBe16_be16 (x : UInt16) :
    ofBe16 (UInt8.ofNat (x.toNat / 2 ^ 8)) (UInt8.ofNat x.toNat) = x := by
  have hx := x.toNat_lt
  apply UInt16.toNat_inj.mp
  simp only [ofBe16, UInt16.toNat_ofNat', UInt8.toNat_ofNat']
  omega

theorem ofBe32_be32 (x : UInt32) :
    ofBe32 (UInt8.ofNat (x.toNat / 2 ^ 24)) (UInt8.ofNat (x.toNat / 2 ^ 16))
      (UInt8.ofNat (x.toNat / 2 ^ 8)) (UInt8.ofNat x.toNat) = x := by
  have hx := x.toNat_lt
  apply UInt32.toNat_inj.mp
  simp only [ofBe32, UInt32.toNat_ofNat', UInt8.toNat_ofNat']
  omega

theorem be16_ofBe16 (b0 b1 : UInt8) : be16 (ofBe16 b0 b1) = [b0, b1] := by
  have h0 := b0.toNat_lt
  have h1 := b1.toNat_lt
  simp only [be16, ofBe16, UInt16.toNat_ofNat', List.cons.injEq, and_true]
  constructor <;> apply UInt8.toNat_inj.mp <;> rw [UInt8.toNat_ofNat'] <;> omega

theorem be32_ofBe32 (b0 b1 b2 b3 : UInt8) : be32 (ofBe32 b0 b1 b2 b3) = [b0, b1, b2, b3] := by
  have h0 := b0.toNat_lt
  have h1 := b1.toNat_lt
  have h2 := b2.toNat_lt
  have h3 := b3.toNat_lt
  simp only [be32, ofBe32, UInt32.toNat_ofNat', List.cons.injEq, and_true]
  refine ⟨?_, ?_, ?_, ?_⟩ <;> apply UInt8.toNat_inj.mp <;> rw [UInt8.toNat_ofNat'] <;> omega

/-- The eight bytes of a counter, least significant first. -/
def le64 (x : UInt64) : Bytes :=
  (List.range 8).map fun i => UInt8.ofNat (x.toNat / 2 ^ (8 * i))

/-! ### Sizes in an `int` -/

/-- The values of an `int` end here. -/
def intBound : Nat := 2 ^ 31

/-- A `size_t` stored in an `int`. -/
def intOfSize (size : Nat) : Int := Int.bmod size (2 ^ 32)

/-- An `int` taken as a `size_t`. -/
def sizeOfInt (i : Int) : Nat := (i % 2 ^ 64).toNat

/-- `malloc` never has this much. -/
def mallocBound : Nat := 2 ^ 63

theorem intOfSize_of_lt {size : Nat} (hlt : size < intBound) : intOfSize size = size := by
  rw [intBound] at hlt
  apply Int.bmod_eq_of_le <;> omega

theorem intOfSize_lt (size : Nat) : intOfSize size < intBound :=
  Int.bmod_lt (by decide)

theorem bmod_le_self (size n : Nat) : Int.bmod size n ≤ size := by
  have hrest : ((size : Int) % n) ≤ size := by
    rw [← Int.natCast_emod]
    exact Int.ofNat_le.mpr (Nat.mod_le size n)
  rw [Int.bmod_def]
  split <;> omega

theorem intOfSize_le (size : Nat) : intOfSize size ≤ size := bmod_le_self size _

theorem bmod_sizeOfInt_add {n : Nat} (hdvd : (n : Int) ∣ 2 ^ 64) (i : Int) (b : Nat) :
    Int.bmod ((sizeOfInt i + b : Nat) : Int) n = Int.bmod (i + b) n := by
  have hsame : ((sizeOfInt i + b : Nat) : Int) % n = (i + b) % n := by
    rw [sizeOfInt, Nat.cast_add, Int.toNat_of_nonneg (Int.emod_nonneg _ (by decide)), Int.add_emod,
      Int.emod_emod_of_dvd _ hdvd, ← Int.add_emod]
  rw [← Int.emod_bmod, hsame, Int.emod_bmod]

/-- An `int` that is counted on with in a `size_t` is the sum, as an `int`. -/
theorem intOfSize_add (a b : Nat) : intOfSize (sizeOfInt (intOfSize a) + b) = intOfSize (a + b) := by
  have hdvd : ((2 ^ 32 : Nat) : Int) ∣ 2 ^ 64 := by decide
  calc intOfSize (sizeOfInt (intOfSize a) + b)
      = Int.bmod (intOfSize a + b) (2 ^ 32) := bmod_sizeOfInt_add hdvd _ _
    _ = Int.bmod (a + b) (2 ^ 32) := Int.bmod_add_bmod
    _ = intOfSize (a + b) := congrArg (fun size => Int.bmod size (2 ^ 32)) (Nat.cast_add a b).symm

/-- A sum that is taken so is the sum, in an `int`. -/
theorem foldl_intOfSize {α : Type} (f : α → Nat) (list : List α) (size : Nat) :
    list.foldl (fun sz item => intOfSize (sizeOfInt sz + f item)) (intOfSize size) =
      intOfSize (size + (list.map f).sum) := by
  induction list generalizing size with
  | nil => rw [List.foldl_nil, List.map_nil, List.sum_nil, Nat.add_zero]
  | cons item list ih =>
      have hstep := intOfSize_add size (f item)
      simp only [List.foldl_cons, hstep, ih, List.map_cons, List.sum_cons, Nat.add_assoc]

theorem sizeOfInt_intOfSize {size : Nat} (hlt : size < intBound) : sizeOfInt (intOfSize size) = size := by
  rw [intOfSize_of_lt hlt, sizeOfInt]
  rw [intBound] at hlt
  omega

theorem sizeOfInt_of_neg {i : Int} (hneg : i < 0) (hge : -(2 ^ 32 : Nat) ≤ i) :
    mallocBound ≤ sizeOfInt i := by
  rw [mallocBound, sizeOfInt]
  omega

theorem bmod_neg_of_ge {n size : Nat} (hge : n ≤ size) (hlt : size < 2 * n) :
    Int.bmod size (2 * n) < 0 ∧ -(2 * n : Nat) ≤ Int.bmod size (2 * n) := by
  have hbmod : Int.bmod size (2 * n) = (size : Int) - (2 * n : Nat) :=
    (Int.bmod_eq_iff (by omega)).mpr ⟨by omega, by omega, -1, by omega⟩
  omega

theorem sizeOfInt_intOfSize_ge {size : Nat} (hge : intBound ≤ size) (hlt : size < 2 * intBound) :
    mallocBound ≤ sizeOfInt (intOfSize size) := by
  have hwidth : 2 * intBound = 2 ^ 32 := by decide
  have hneg := bmod_neg_of_ge hge hlt
  rw [hwidth] at hneg
  exact sizeOfInt_of_neg hneg.1 hneg.2

end Duplex
