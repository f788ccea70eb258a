import CLibp2p.Identify.Identify

/-!
# URL encoding

`utils/urlencode.c`. Memory is always granted. The decoder gets the string with its terminator, and looks
behind that where it has no result.
-/

namespace CLibp2p.Utils

open Duplex

def isAsciiAlnum (c : UInt8) : Bool :=
  (48 ≤ c && c ≤ 57) || (65 ≤ c && c ≤ 90) || (97 ≤ c && c ≤ 122)

/-- What differs between platforms: whether a `char` has a sign, and what `isalnum` makes of the characters
that are not ASCII. -/
structure Platform where
  charSigned : Bool
  isalnum : UInt8 → Bool
  isalnum_ascii : ∀ c < 128, isalnum c = isAsciiAlnum c

def hex : Bytes := "0123456789abcdef".toUTF8.toList

/-- `hex` at an index, its NUL included. -/
def hexAt (index : Int) : Option UInt8 := if 0 ≤ index then (hex ++ [0])[index.toNat]? else none

def percent : UInt8 := '%'.toUInt8

namespace Platform

variable (platform : Platform)

/-- A `char` as an `int`. -/
def value (c : UInt8) : Int := if platform.charSigned then Int.bmod c.toNat (2 ^ 8) else c.toNat

/-- The loop of the encoder: how many bytes it writes, and which, unless it looks beside `hex`. -/
def encodeLoop : (src : Bytes) → Nat × Option Bytes
  | [] => (0, some [])
  | c :: src =>
      let (count, text) := encodeLoop src
      if platform.isalnum c then (count + 1, text.map (c :: ·))
      else
        (count + 3, do
          let high ← hexAt (platform.value c / 2 ^ 4)
          let low ← hexAt (platform.value c % 2 ^ 4)
          let text ← text
          pure (percent :: high :: low :: text))

end Platform

/-- What the encoder allocates, how much of it the encoder writes with the NUL, and its text. -/
structure UrlEncoded where
  allocated : Nat
  written : Nat
  text : Option Bytes
deriving Repr, DecidableEq

/-- `libp2p_utils_url_encode`. -/
def urlEncode (platform : Platform) (src : Bytes) : UrlEncoded :=
  let (count, text) := platform.encodeLoop src
  ⟨src.length * 3, count + 1, text⟩

def h2b (c : UInt8) : UInt8 :=
  if 48 ≤ c ∧ c ≤ 57 then c - 48
  else if 97 ≤ c ∧ c ≤ 102 then c - 97 + 10
  else if 65 ≤ c ∧ c ≤ 70 then c - 65 + 10
  else 0

/-- The loop of the decoder, from a place in the string on. -/
def decodeLoop : (src : Bytes) → Option Bytes
  | [] => none
  | c :: src =>
      if c = 0 then some []
      else if c ≠ percent then (decodeLoop src).map (c :: ·)
      else
        match src with
        | high :: low :: src => (decodeLoop src).map ((h2b high <<< 4 ||| h2b low &&& 15) :: ·)
        | _ => none

/-- `libp2p_utils_url_decode`. -/
def urlDecode (src : Bytes) : Option Bytes := decodeLoop (src ++ [0])

end CLibp2p.Utils
