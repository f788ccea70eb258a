import CLibp2p.Crypto.PeerId

/-!
# The base58 decoder

`libp2p_crypto_encoding_base58_decode` of `crypto/encoding/base58.c`. It multiplies a number of 32-bit
words by 58 for each character and then writes out the bytes of the words. `base58Strays` is about the
encoder, for callers that do nothing with its text.
-/

namespace CLibp2p.Crypto

open Duplex

/-- Whether the encoder writes through a pointer that its `memset` has overwritten: there are leading
zeros, and it did not give up before for want of space. -/
def base58Strays (bin : Bytes) (base58Size : Nat) : Bool :=
  let zcount := (bin.takeWhile (· = 0)).length
  let rest := bin.drop zcount
  let buf := rest.foldl (fun buf byte => carryInto byte.toNat buf)
    (List.replicate (rest.length * 138 / 100 + 1) 0)
  decide (0 < zcount ∧ zcount + (buf.reverse.dropWhile (· = 0)).length < base58Size)

def b58digitsMap : List Int :=
  [-1, -1, -1, -1, -1, -1, -1, -1, -1, -1, -1, -1, -1, -1, -1, -1,
    -1, -1, -1, -1, -1, -1, -1, -1, -1, -1, -1, -1, -1, -1, -1, -1,
    -1, -1, -1, -1, -1, -1, -1, -1, -1, -1, -1, -1, -1, -1, -1, -1,
    -1, 0, 1, 2, 3, 4, 5, 6, 7, 8, -1, -1, -1, -1, -1, -1,
    -1, 9, 10, 11, 12, 13, 14, 15, 16, -1, 17, 18, 19, 20, 21, -1,
    22, 23, 24, 25, 26, 27, 28, 29, 30, 31, 32, -1, -1, -1, -1, -1,
    -1, 33, 34, 35, 36, 37, 38, 39, 40, 41, 42, 43, -1, 44, 45, 46,
    47, 48, 49, 50, 51, 52, 53, 54, 55, 56, 57, -1, -1, -1, -1, -1]

/-- The map at a character. It has no place for those with the high bit, which are no digits. -/
def digitOf (char : UInt8) : Int := b58digitsMap.getD char.toNat (-1)

/-- The loop over `outi` for one character, over words from the low end: 58 times the number plus `c`.
What is left over in `c` comes with it. -/
def carryWords : (c : Nat) → (outi : List Nat) → List Nat × Nat
  | c, [] => ([], c)
  | c, word :: outi =>
      let t := word * 58 + c
      let rest := carryWords (t / 2 ^ 32 % 64) outi
      (t % 2 ^ 32 :: rest.1, rest.2)

/-- The loop over the characters behind the leading ones. The word `outi[0]` is the last one here. -/
def decodeDigits (zeromask : Nat) : (outi : List Nat) → (b58 : Bytes) → Option (List Nat)
  | outi, [] => some outi
  | outi, char :: b58 =>
      if char &&& 0x80 ≠ 0 then none
      else if digitOf char = -1 then none
      else
        let next := carryWords (digitOf char).toNat outi
        if next.2 ≠ 0 then none
        else if next.1.getLastD 0 &&& zeromask ≠ 0 then none
        else decodeDigits zeromask next.1 b58

def wordBytes (word : Nat) : Bytes :=
  [UInt8.ofNat (word / 2 ^ 24), UInt8.ofNat (word / 2 ^ 16), UInt8.ofNat (word / 2 ^ 8),
    UInt8.ofNat word]

/-- The bytes of the words from `outi[0]` on, of which only the low ones count if `bytesleft` is not
zero. -/
def wordsOut (bytesleft : Nat) : (outi : List Nat) → Bytes
  | [] => []
  | word :: outi => (wordBytes word).drop ((4 - bytesleft) % 4) ++ outi.flatMap wordBytes

/-- What the decoder comes to; `stray` is a look behind the end of its table. -/
inductive Decoded where
  | stray
  | failed
  | decoded (bin : Bytes) (size : Nat)
deriving Repr, DecidableEq

/-- The loop over the leading ones, which looks a character up before its high bit is tested: how many
there are and what is behind them. -/
def leadingOnes : (b58 : Bytes) → Option (Nat × Bytes)
  | [] => some (0, [])
  | char :: b58 =>
      match b58digitsMap[char.toNat]? with
      | none => none
      | some digit =>
          if digit = 0 then (leadingOnes b58).map fun found => (found.1 + 1, found.2)
          else some (0, char :: b58)

/-- `libp2p_crypto_encoding_base58_decode` for a buffer of `binsz` bytes: the buffer and the size. `zerocount` is
an `unsigned`. -/
def base58Decode (b58 : Bytes) (binsz : Nat) : Decoded :=
  let outisz := (binsz + 3) / 4
  let bytesleft := binsz % 4
  let zeromask := if bytesleft = 0 then 0 else (0xffffffff <<< (bytesleft * 8)) % 2 ^ 32
  match leadingOnes b58 with
  | none => .stray
  | some (zerocount, rest) =>
      match decodeDigits zeromask (List.replicate outisz 0) rest with
      | none => .failed
      | some outi =>
          let binu := wordsOut bytesleft outi.reverse
          .decoded binu (binsz - (binu.takeWhile (· = 0)).length + zerocount % 2 ^ 32)

end CLibp2p.Crypto
