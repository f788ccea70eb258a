import CLibp2p.Crypto.PeerId

/-!
# The conversion loop of the base58 encoder

The loop of `libp2p_crypto_encoding_base58_encode` index by index: `buf` has its highest digit in front,
`j` counts down, and the digits up to `high` have not been written yet. The sizes are those of blocks in
memory, so none of the sums wraps around.
-/

namespace CLibp2p.Crypto

open Duplex

/-- The inner loop, where `next` is `j + 1`: the buffer and the `j` it stops at. `none` is a round with a
negative `j`. -/
def carryLoop (high : Int) : (next carry : Nat) → (buf : List Nat) → Option (List Nat × Int)
  | 0, carry, buf => if high < -1 ∨ carry ≠ 0 then none else some (buf, -1)
  | j + 1, carry, buf =>
      if high < j ∨ carry ≠ 0 then
        let carry := carry + 256 * buf.getD j 0
        carryLoop high j (carry / 58) (buf.set j (carry % 58))
      else some (buf, j)

/-- The loop over the bytes behind the leading zeros. -/
def encodeLoop : (high : Int) → (buf : List Nat) → (bin : Bytes) → Option (List Nat)
  | _, buf, [] => some buf
  | high, buf, byte :: bin => do
      let (buf, j) ← carryLoop high buf.length byte.toNat buf
      encodeLoop j buf bin

/-- What is in `buf` after the loop. -/
def encodeBuf (bin : Bytes) : Option (List Nat) :=
  let zcount := (bin.takeWhile (· = 0)).length
  let size := (bin.length - zcount) * 138 / 100 + 1
  encodeLoop (size - 1) (List.replicate size 0) (bin.drop zcount)

end CLibp2p.Crypto
