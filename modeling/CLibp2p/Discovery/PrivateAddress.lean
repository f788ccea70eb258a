import CLibp2p.Net.Multiaddr

/-!
# Which addresses are private

`libp2p_discovery_is_private_address` of `discovery/discovery.c`, which looks at the text of an address.
-/

namespace CLibp2p.Discovery

open Duplex Net

/-- `strtoul` in base ten, for digits with or without a minus: it stops at the end of its range. -/
def strtoul (negative : Bool) (digits : Bytes) : Nat :=
  if 2 ^ 64 ≤ decimal digits then 2 ^ 64 - 1
  else if negative then (2 ^ 64 - decimal digits) % 2 ^ 64
  else decimal digits

/-- `%u` of `sscanf`: the number, and what is behind it. -/
def scanUnsigned (text : Bytes) : Option (UInt32 × Bytes) :=
  let text := text.dropWhile isSpace
  let negative := text.head? = some '-'.toUInt8
  let text := if negative ∨ text.head? = some '+'.toUInt8 then text.tail else text
  let digits := text.takeWhile isDigit
  if digits = [] then none
  else some (UInt32.ofNat (strtoul negative digits), text.dropWhile isDigit)

/-- `sscanf(ip, "%u.%u", &a, &b)`, unless it finds less than two numbers. -/
def scanTwo (ip : Bytes) : Option (UInt32 × UInt32) := do
  let (a, rest) ← scanUnsigned ip
  guard (rest.head? = some '.'.toUInt8)
  let (b, _) ← scanUnsigned rest.tail
  pure (a, b)

/-- `discovery_is_private_ipv4`. -/
def isPrivateIpv4 (ip : Bytes) : Bool :=
  match scanTwo ip with
  | none => false
  | some (a, b) =>
      if a = 10 ∨ a = 127 then true
      else if a = 192 ∧ b = 168 then true
      else if a = 172 ∧ 16 ≤ b ∧ b ≤ 31 then true
      else false

def fc : Bytes := "fc".toUTF8.toList

def fd : Bytes := "fd".toUTF8.toList

def fe80 : Bytes := "fe80".toUTF8.toList

/-- `discovery_is_private_ipv6`. -/
def isPrivateIpv6 (ip : Bytes) : Bool := fc.isPrefixOf ip || fd.isPrefixOf ip || fe80.isPrefixOf ip

/-- `strstr`, with what is behind the place. -/
def strstr (haystack needle : Bytes) : Option Bytes :=
  (haystack.tails.find? fun tail => needle.isPrefixOf tail).map fun tail => tail.drop needle.length

/-- What the loops copy to an array of `size` bytes. -/
def copyComponent (text : Bytes) (size : Nat) : Bytes := (text.takeWhile (· ≠ slash)).take (size - 1)

def slashIp4 : Bytes := slash :: nameIp4 ++ [slash]

def slashIp6 : Bytes := slash :: nameIp6 ++ [slash]

/-- `libp2p_discovery_is_private_address`. -/
def isPrivateAddress (multiaddr : Option CString) : Bool :=
  match multiaddr with
  | none => false
  | some multiaddr =>
      match strstr multiaddr slashIp4 with
      | some ip4 => isPrivateIpv4 (copyComponent ip4 64)
      | none =>
          match strstr multiaddr slashIp6 with
          | some ip6 => isPrivateIpv6 (copyComponent ip6 128)
          | none => false

end CLibp2p.Discovery
