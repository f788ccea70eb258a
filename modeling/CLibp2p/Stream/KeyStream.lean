import CLibp2p.Stream.Bytes

/-!
# Stream ciphers

A stream cipher adds to each byte the byte of a key stream at some position. Two passes over the same
bytes cancel for every key stream only if they were made at the same positions.
-/

namespace Duplex

variable (keyStream : Nat → UInt8)

/-- The bytes, each with the key stream at its position. -/
def xorAt (bytes : Bytes) (positions : List Nat) : Bytes :=
  bytes.zipWith (fun byte pos => byte ^^^ keyStream pos) positions

theorem length_xorAt {bytes : Bytes} {positions : List Nat} (hlength : bytes.length = positions.length) :
    (xorAt keyStream bytes positions).length = bytes.length := by
  rw [xorAt, List.length_zipWith, ← hlength, Nat.min_self]

theorem length_xorAt_range' {bytes : Bytes} {n : Nat} (hlength : bytes.length = n) (start : Nat) :
    (xorAt keyStream bytes (List.range' start n)).length = n := by
  rw [length_xorAt _ (hlength.trans List.length_range'.symm), hlength]

theorem xorAt_append {front back : Bytes} {frontAt backAt : List Nat}
    (hlength : front.length = frontAt.length) :
    xorAt keyStream (front ++ back) (frontAt ++ backAt) =
      xorAt keyStream front frontAt ++ xorAt keyStream back backAt :=
  List.zipWith_append hlength

theorem take_xorAt (bytes : Bytes) (positions : List Nat) (n : Nat) :
    (xorAt keyStream bytes positions).take n = xorAt keyStream (bytes.take n) (positions.take n) :=
  List.take_zipWith

theorem xor_xor_eq_iff (byte first second : UInt8) : byte ^^^ first ^^^ second = byte ↔ first = second := by
  constructor
  · intro heq
    have hzero : first ^^^ second = 0 := by
      calc first ^^^ second = byte ^^^ byte ^^^ (first ^^^ second) := by
            rw [UInt8.xor_self, UInt8.zero_xor]
        _ = byte ^^^ (byte ^^^ first ^^^ second) := by
            rw [UInt8.xor_assoc, UInt8.xor_assoc]
        _ = 0 := by
            rw [heq, UInt8.xor_self]
    exact UInt8.xor_eq_zero_iff.mp hzero
  · rintro rfl
    rw [UInt8.xor_assoc, UInt8.xor_self, UInt8.xor_zero]

theorem xorAt_xorAt_of_eq {bytes : Bytes} {positions : List Nat}
    (hlength : bytes.length = positions.length) :
    xorAt keyStream (xorAt keyStream bytes positions) positions = bytes := by
  induction bytes generalizing positions with
  | nil => rfl
  | cons byte bytes ih =>
      obtain ⟨pos, positions, rfl⟩ := List.exists_cons_of_length_eq_add_one hlength.symm
      have hrest := ih (Nat.succ.inj hlength)
      rw [xorAt, xorAt] at hrest
      rw [xorAt, xorAt, List.zipWith_cons_cons, List.zipWith_cons_cons, hrest,
        (xor_xor_eq_iff byte _ _).mpr rfl]

/-- A second pass undoes the first, whatever the key stream is, if it is made at the same positions, and
only then. -/
theorem xorAt_xorAt_iff {bytes : Bytes} {first second : List Nat} (hfirst : bytes.length = first.length)
    (hsecond : bytes.length = second.length) :
    (∀ keyStream, xorAt keyStream (xorAt keyStream bytes first) second = bytes) ↔ first = second := by
  constructor
  · intro hback
    induction bytes generalizing first second with
    | nil => rw [List.eq_nil_of_length_eq_zero hfirst.symm, List.eq_nil_of_length_eq_zero hsecond.symm]
    | cons byte bytes ih =>
        obtain ⟨pos, first, rfl⟩ := List.exists_cons_of_length_eq_add_one hfirst.symm
        obtain ⟨pos', second, rfl⟩ := List.exists_cons_of_length_eq_add_one hsecond.symm
        have hcons : ∀ keyStream : Nat → UInt8, byte ^^^ keyStream pos ^^^ keyStream pos' = byte ∧
            xorAt keyStream (xorAt keyStream bytes first) second = bytes :=
          fun keyStream => List.cons.inj (hback keyStream)
        have hpos : pos' = pos := by
          by_contra hne
          -- a key stream that tells the two positions apart
          have hsame := (xor_xor_eq_iff byte _ _).mp (hcons fun i => if i = pos then 1 else 0).1
          rw [if_pos rfl, if_neg hne] at hsame
          exact absurd hsame (by decide)
        rw [hpos, ih (Nat.succ.inj hfirst) (Nat.succ.inj hsecond) fun keyStream => (hcons keyStream).2]
  · rintro rfl keyStream
    exact xorAt_xorAt_of_eq keyStream hfirst

end Duplex
