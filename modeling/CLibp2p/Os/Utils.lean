import CLibp2p.Identify.Identify
import CLibp2p.Net.CanHandle

/-!
# Searching for a string

`strnstr` of `os/utils.c`, for platforms that have none. The bytes that it may look at lie in memory that
goes on behind them.
-/

namespace CLibp2p.Os

open Duplex CanHandle

/-- What `strnstr` returns. `overflow` is an `int` that is counted beyond its range. -/
inductive Search where
  | found (position : Nat)
  | null
  | overflow
deriving Repr, DecidableEq

/-- The loop with `rounds` rounds to go, from the position `i` on. -/
def strnstrLoop (needle : Bytes) : (rounds i : Nat) → (haystack : Memory) → Option Nat
  | 0, _, _ => none
  | rounds + 1, i, haystack =>
      if haystack 0 == needle.headD 0 && strncmpEq needle haystack then some i
      else strnstrLoop needle rounds (i + 1) fun k => haystack (k + 1)

/-- The bound of the loop, `(int)(len - needle_len)`. -/
def lastIndex (len needleLen : Nat) : Int := intOfSize (len - needleLen)

/-- `strnstr`. What `strnlen` gives is at most `len`. -/
def strnstr (haystack : Memory) (needle : CString) (len : UInt64) : Search :=
  let needleLen := min needle.val.length len.toNat
  if needleLen = 0 then .found 0
  else
    let last := lastIndex len.toNat needleLen
    match strnstrLoop (needle.val.take needleLen) (last + 1).toNat 0 haystack with
    | some i => .found i
    | none => if last = intBound - 1 then .overflow else .null

end CLibp2p.Os
