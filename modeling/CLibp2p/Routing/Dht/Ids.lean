import CLibp2p.Machine.Tiling
import CLibp2p.Routing.Kademlia

/-!
# Node ids

The comparisons and the bit arithmetic on the 20 bytes of an id in `routing/dht.c`. An id is a path from
the root of the tree, so bits are numbered from the start.
-/

namespace CLibp2p.Routing.Dht

open Duplex

def memcmp : Bytes → Bytes → Ordering
  | x :: s1, y :: s2 => if x < y then .lt else if y < x then .gt else memcmp s1 s2
  | _, _ => .eq

def idCmp (id1 id2 : Hash) : Ordering := memcmp id1.toList id2.toList

def zeroes : Hash := Vector.replicate 20 0

def byteAt (id : Hash) (i : Nat) : UInt8 := id.toList.getD i 0

/-- The byte `0x80 >> j`. -/
def bitMask (j : Nat) : UInt8 := 0x80 >>> UInt8.ofNat j

/-- `for(i = n - 1; i >= 0; i--) if(p(i)) break;` and the value of `i` behind it. -/
def loopDown (p : Nat → Bool) : Nat → Int
  | 0 => -1
  | n + 1 => if p n then n else loopDown p n

/-- Find the lowest 1 bit in an id. -/
def lowbit (id : Hash) : Int :=
  let i := loopDown (fun i => byteAt id i ≠ 0) 20
  if i < 0 then -1
  else 8 * i + loopDown (fun j => byteAt id i.toNat &&& bitMask j ≠ 0) 8

def xorcmpLoop : Bytes → Bytes → Bytes → Ordering
  | x :: id1, y :: id2, r :: ref =>
      if x = y then xorcmpLoop id1 id2 ref
      else if x ^^^ r < y ^^^ r then .lt
      else .gt
  | _, _, _ => .eq

/-- Determine whether id1 or id2 is closer to ref. -/
def xorcmp (id1 id2 ref : Hash) : Ordering := xorcmpLoop id1.toList id2.toList ref.toList

/-- The variable `bit` of `bucket_middle` and `bucket_random`. -/
def splitBit (first : Hash) (next : Option Hash) : Nat :=
  let bit1 := lowbit first
  let bit2 := next.elim (-1) lowbit
  (max bit1 bit2 + 1).toNat

def setByte (id : Hash) (i : Nat) (byte : UInt8) : Hash := id.setIfInBounds i byte

/-- `bucket_middle`, from where the bucket and the next one start. -/
def bucketMiddle (first : Hash) (next : Option Hash) : Option Hash :=
  let bit := splitBit first next
  if bit ≥ 160 then none
  else some (setByte first (bit / 8) (byteAt first (bit / 8) ||| bitMask (bit % 8)))

/-- `bucket_random`, with the bytes that the calls of `random` give. -/
def bucketRandom (first : Hash) (next : Option Hash) (random : Nat → UInt8) : Hash :=
  let bit := splitBit first next
  if bit ≥ 160 then first
  else Vector.ofFn fun i : Fin 20 =>
    if i < bit / 8 then byteAt first i
    else if i = bit / 8 then
      byteAt first i &&& UInt8.ofNat (0xff00 >>> (bit % 8)) |||
        random 0 &&& UInt8.ofNat (0xff >>> (bit % 8))
    else random (i - bit / 8)

end CLibp2p.Routing.Dht
