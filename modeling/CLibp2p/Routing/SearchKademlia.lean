import CLibp2p.Routing.Kademlia

/-!
# Searches of the DHT thread

`search_kademlia` of `routing/kademlia.c`, and `dht_backoff_delay_us`: how long a search waits before it
looks again. Another thread fills the list of results meanwhile; multiaddresses and `inet_ntop` are not
part of the repository.
-/

namespace CLibp2p.Routing

open Duplex

/-- The loop over `delay`, with the delays that it doubled. -/
def backoffLoop (maxUs : UInt32) : (rounds : Nat) → (delay : UInt32) → UInt32 × List UInt32
  | 0, delay => (delay, [])
  | rounds + 1, delay =>
      if delay < maxUs then
        if delay > maxUs / 2 then (maxUs, [])
        else
          let (last, doubled) := backoffLoop maxUs rounds (delay * 2)
          (last, delay :: doubled)
      else (delay, [])

/-- An `unsigned int` as a `long`, which has 64 bits. -/
def longOfUnsigned (x : UInt32) : Int64 := x.toUInt64.toInt64

/-- `dht_backoff_delay_us`, where `random` is what `dht_random_locked` returns. -/
def dhtBackoffDelayUs (attempt : Int32) (baseUs maxUs : UInt32) (random : Int64) : UInt32 :=
  let delay := (backoffLoop maxUs attempt.toInt.toNat baseUs).1
  let delay := if delay > maxUs then maxUs else delay
  if delay > 1 then
    (longOfUnsigned (delay / 2) + random % longOfUnsigned (delay / 2 + 1)).toUInt64.toUInt32
  else delay

/-! ### Waiting -/

/-- One pass of the loop that looks for the entry: what the random generator gives and the list that the
pass finds. -/
structure Look where
  random : Int64
  searchResult : List SearchStruct

/-- One pass of the loop that waits for an address: the time that `search_kademlia_internal` leaves, what
the random generator gives, and the list after it. -/
structure Round where
  timeLeft : Int32
  random : Int64
  searchResult : List SearchStruct

/-- Where the waiting ends: with the list that is found then. -/
inductive Waited where
  | waiting
  | timedOut
  | stopped (searchResult : List SearchStruct)
deriving Repr, DecidableEq

/-- `search_result->ipv4_count == 0 && search_result->ipv6_count == 0`, of the first entry. -/
def headEmpty (searchResult : List SearchStruct) : Bool :=
  match searchResult with
  | [] => false
  | head :: _ => head.ipv4.isEmpty && head.ipv6.isEmpty

/-- The loop that waits for an address. -/
def waitForResult : (attempts timeLeft : Int32) → List SearchStruct → List Round → Waited
  | _, timeLeft, searchResult, [] =>
      if 0 < timeLeft ∧ headEmpty searchResult = true then .waiting else .stopped searchResult
  | attempts, timeLeft, searchResult, round :: rounds =>
      if 0 < timeLeft ∧ headEmpty searchResult = true then
        let delay := dhtBackoffDelayUs attempts 100000 2000000 round.random
        if delay.toInt32 > round.timeLeft then .stopped round.searchResult
        else waitForResult (attempts + 1) (round.timeLeft - delay.toInt32) round.searchResult rounds
      else .stopped searchResult

/-- The loop that looks for the entry. -/
def waitForEntry (id : Hash) (rounds : List Round) : (attempts timeLeft : Int32) → List Look → Waited
  | _, _, [] => .waiting
  | attempts, timeLeft, look :: looks =>
      let delay := dhtBackoffDelayUs attempts 1000 100000 look.random
      if delay.toInt32 > timeLeft then .timedOut
      else if look.searchResult.any fun rp => rp.hash == id then
        waitForResult 0 timeLeft look.searchResult rounds
      else waitForEntry id rounds (attempts + 1) (timeLeft - delay.toInt32) looks

/-! ### The addresses -/

/-- What a multiaddress is the address of. -/
inductive Endpoint where
  | ip4 (ip : Vector UInt8 4) (port : UInt16)
  | ip6 (ip : Vector UInt8 16) (port : UInt16)
deriving Repr, DecidableEq

/-- `libp2p_crypto_hashing_sha256`, `inet_ntop` and `multiaddress_new_from_string`, and what the
multiaddresses stand for. -/
structure AddressLibrary where
  MultiAddress : Type
  sha256 : Bytes → Vector UInt8 32
  ntop4 : (ip : Vector UInt8 4) → Option Bytes
  ntop6 : (ip : Vector UInt8 16) → Option Bytes
  newFromString : (str : Bytes) → Option MultiAddress
  endpoint : MultiAddress → Endpoint

/-- What `snprintf` makes of `/ip4/%s/tcp/%d`, or of the same for the other family, in 63 bytes. -/
def addressText (family ipstr : Bytes) (port : UInt16) : Bytes :=
  (family ++ ipstr ++ "/tcp/".toUTF8.toList ++ (toString port.toNat).toUTF8.toList).take 62

/-- The body of the two loops: the multiaddress, unless one of the two calls refuses. -/
def AddressLibrary.addressOf (lib : AddressLibrary) : Endpoint → Option lib.MultiAddress
  | .ip4 ip port => (lib.ntop4 ip).bind fun ipstr =>
      lib.newFromString (addressText "/ip4/".toUTF8.toList ipstr port)
  | .ip6 ip port => (lib.ntop6 ip).bind fun ipstr =>
      lib.newFromString (addressText "/ip6/".toUTF8.toList ipstr port)

/-- The addresses of an entry, with the ports as they are stored. -/
def SearchStruct.printed (rp : SearchStruct) : List Endpoint :=
  rp.ipv4.map (fun ipv4 => .ip4 ipv4.ip ipv4.port) ++ rp.ipv6.map fun ipv6 => .ip6 ipv6.ip ipv6.port

/-- What is done with the list of results, which has an entry when it comes to this. The counts and the
addresses are those of the first one. -/
def AddressLibrary.result (lib : AddressLibrary) (granted : Bool) (searchResult : List SearchStruct) :
    Option (List lib.MultiAddress) :=
  match searchResult with
  | [] => none
  | head :: _ =>
      if head.ipv4.length = 0 || head.ipv6.length = 0 then none
      else if granted then some (head.printed.filterMap lib.addressOf)
      else none

/-- `dht_hash` of a peer id. An empty one leaves what the array for the hash holds. -/
def AddressLibrary.dhtHash (lib : AddressLibrary) (unset : Hash) (peerId : Bytes) : Hash :=
  if peerId.isEmpty then unset
  else Vector.ofFn fun i : Fin 20 => (lib.sha256 peerId).get (i.castLE (by decide))

/-- A call: whether the thread was started, what the array for the hash holds before it is set, the time
that the first `search_kademlia_internal` leaves, what the loops find, and whether `calloc` has memory for
the result. -/
structure SearchCall where
  started : Bool
  peerId : Bytes
  unset : Hash
  timeLeft : Int32
  looks : List Look
  rounds : List Round
  granted : Bool

def SearchCall.id (lib : AddressLibrary) (call : SearchCall) : Hash := lib.dhtHash call.unset call.peerId

def SearchCall.waited (lib : AddressLibrary) (call : SearchCall) : Waited :=
  if !call.started || call.timeLeft = 0 then .timedOut
  else waitForEntry (call.id lib) call.rounds 0 call.timeLeft call.looks

/-- What a call comes to; `returned none` is NULL. -/
inductive Searched (α : Type) where
  | waiting
  | returned (result : Option (List α))
deriving Repr, DecidableEq

/-- `search_kademlia`. -/
def searchKademlia (lib : AddressLibrary) (call : SearchCall) : Searched lib.MultiAddress :=
  match call.waited lib with
  | .waiting => .waiting
  | .timedOut => .returned none
  | .stopped searchResult => .returned (lib.result call.granted searchResult)

end CLibp2p.Routing
