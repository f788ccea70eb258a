import CLibp2p.Identify.Identify

/-!
# Addresses of `v2/src/net/multiaddr.c`

An address names an IP and a TCP port, each behind the name of its protocol; whatever else it names is
passed over.
-/

namespace CLibp2p.Net

open Duplex

inductive Family where
  | inet
  | inet6
deriving Repr, DecidableEq

/-- `struct MultiAddress`; an `ip` that is NULL is `none`. -/
structure MultiAddress where
  rawString : CString
  ip : Option Bytes
  port : UInt16
  family : Family
deriving DecidableEq

/-- What the parser does not give away otherwise. -/
def MultiAddress.Complete (ma : MultiAddress) : Prop := ma.ip ≠ none ∧ ma.port ≠ 0

instance (ma : MultiAddress) : Decidable ma.Complete :=
  inferInstanceAs (Decidable (ma.ip ≠ none ∧ ma.port ≠ 0))

abbrev ParsedAddress := { ma : MultiAddress // ma.Complete }

/-- `isspace`. -/
def isSpace (byte : UInt8) : Bool := byte == 32 || (9 ≤ byte && byte ≤ 13)

def isDigit (byte : UInt8) : Bool := 48 ≤ byte && byte ≤ 57

def decimal (digits : Bytes) : Nat := digits.foldl (fun value digit => 10 * value + (digit.toNat - 48)) 0

/-- The `long` of `strtol` in base ten, which stops at the end of its range. -/
def strtol (token : Bytes) : Int :=
  match token.dropWhile isSpace with
  | [] => 0
  | sign :: rest =>
      if sign = '-'.toUInt8 then max (-(2 ^ 63 : Nat)) (-(decimal (rest.takeWhile isDigit) : Int))
      else
        let digits := if sign = '+'.toUInt8 then rest else sign :: rest
        min (2 ^ 63 - 1 : Nat) (decimal (digits.takeWhile isDigit))

/-- `atoi`. -/
def atoi (token : Bytes) : Int := Int.bmod (strtol token) (2 ^ 32)

def slash : UInt8 := '/'.toUInt8

/-- The tokens that `strtok` finds in the buffer of 256 bytes. -/
def tokens (str : CString) : List Bytes :=
  ((str.val.take 255).splitOn slash).filter fun token => !token.isEmpty

def nameIp4 : Bytes := "ip4".toUTF8.toList

def nameIp6 : Bytes := "ip6".toUTF8.toList

def nameTcp : Bytes := "tcp".toUTF8.toList

/-- The loop over the tokens. A name without a value after it changes nothing. -/
def parseTokens : List Bytes → MultiAddress → MultiAddress
  | token :: value :: rest, ma =>
      if token = nameIp4 then parseTokens rest { ma with ip := some value, family := .inet }
      else if token = nameIp6 then parseTokens rest { ma with ip := some value, family := .inet6 }
      else if token = nameTcp then parseTokens rest { ma with port := UInt16.ofInt (atoi value) }
      else parseTokens (value :: rest) ma
  | _, ma => ma

/-- `libp2p_multiaddr_new_from_string`. -/
def multiaddrNewFromString (str : CString) : Option ParsedAddress :=
  if str.val.head? = some slash then
    let ma := parseTokens (tokens str) ⟨str, none, 0, .inet⟩
    if hcomplete : ma.Complete then some ⟨ma, hcomplete⟩ else none
  else none

/-- The address keeps the text it was made from. -/
theorem parseTokens_rawString (list : List Bytes) (ma : MultiAddress) :
    (parseTokens list ma).rawString = ma.rawString := by
  fun_induction parseTokens list ma with
  | case1 value rest ma ih => exact ih
  | case2 value rest ma _ ih => exact ih
  | case3 value rest ma _ _ ih => exact ih
  | case4 token value rest ma _ _ _ ih => exact ih
  | case5 => rfl

theorem multiaddrNewFromString_rawString {str : CString} {ma : ParsedAddress}
    (hparse : multiaddrNewFromString str = some ma) : ma.val.rawString = str := by
  simp only [multiaddrNewFromString] at hparse
  split at hparse
  · split at hparse
    · cases hparse
      exact parseTokens_rawString _ _
    · cases hparse
  · cases hparse

example : (multiaddrNewFromString ⟨"/ip4/127.0.0.1/tcp/4001".toUTF8.toList, by decide +kernel⟩).map
    (fun ma => (ma.val.port, ma.val.family)) = some (4001, .inet) := by decide +kernel

end CLibp2p.Net
