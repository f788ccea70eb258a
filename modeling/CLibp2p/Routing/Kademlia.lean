import CLibp2p.Stream.Bytes

/-!
# The search results of the DHT thread

The callback of `routing/kademlia.c`, which the DHT library calls with what a search found, and the
linked list of search results it keeps.
-/

namespace CLibp2p.Routing

open Duplex

abbrev Hash := Vector UInt8 20

inductive DhtEvent where
  | none
  | values
  | values6
  | searchDone
  | searchDone6
deriving Repr, DecidableEq

def dhtMaxIpv4 : Nat := 50

def dhtMaxIpv6 : Nat := 10

/-- `struct ipv4_struct`, two bytes longer than its members. -/
structure Ipv4Struct where
  ip : Vector UInt8 4
  port : UInt16
  padding : UInt16
deriving Repr, DecidableEq

def Ipv4Struct.address (ipv4 : Ipv4Struct) : Vector UInt8 4 × UInt16 := (ipv4.ip, ipv4.port)

structure Ipv6Struct where
  ip : Vector UInt8 16
  port : UInt16
deriving Repr, DecidableEq

/-- `struct search_struct`, with the part of each array that its count covers. -/
structure SearchStruct where
  hash : Hash
  ipv4 : List Ipv4Struct
  ipv6 : List Ipv6Struct
deriving Repr, DecidableEq

/-- A call of the callback: its arguments, what the padding of its local `ipv4` happens to hold and
whether `malloc` has memory for an entry. `data` is the memory from the pointer on. -/
structure CallbackCall where
  event : DhtEvent
  infoHash : Hash
  data : Nat → UInt8
  padding : UInt16
  granted : Bool

namespace CallbackCall

def ipv4 (call : CallbackCall) : Ipv4Struct where
  ip := Vector.ofFn fun i => call.data i
  port := ofBe16 (call.data 4) (call.data 5)
  padding := call.padding

/-- The port stays in network order, which a little-endian host reads the other way round. -/
def ipv6 (call : CallbackCall) : Ipv6Struct where
  ip := Vector.ofFn fun i => call.data i
  port := ofBe16 (call.data 17) (call.data 16)

end CallbackCall

namespace SearchStruct

def addIpv4 (rp : SearchStruct) (ipv4 : Ipv4Struct) : SearchStruct :=
  if rp.ipv4.length = dhtMaxIpv4 then rp
  else if ipv4 ∈ rp.ipv4 then rp
  else { rp with ipv4 := rp.ipv4 ++ [ipv4] }

def addIpv6 (rp : SearchStruct) (ipv6 : Ipv6Struct) : SearchStruct :=
  if rp.ipv6.length = dhtMaxIpv6 then rp
  else if ipv6 ∈ rp.ipv6 then rp
  else { rp with ipv6 := rp.ipv6 ++ [ipv6] }

end SearchStruct

/-- The search for the entry of a hash that the two branches for values share. -/
def atHash (searchResult : List SearchStruct) (infoHash : Hash)
    (f : SearchStruct → SearchStruct) : List SearchStruct :=
  match searchResult.findIdx? fun rp => rp.hash == infoHash with
  | some i => searchResult.modify i f
  | none => searchResult

/-- `callback`. The loop of `DHT_EVENT_SEARCH_DONE` ends when it is at the last entry, before it has
compared that one. -/
def callback (searchResult : List SearchStruct) (call : CallbackCall) : List SearchStruct :=
  match call.event with
  | .values => atHash searchResult call.infoHash fun rp => rp.addIpv4 call.ipv4
  | .values6 => atHash searchResult call.infoHash fun rp => rp.addIpv6 call.ipv6
  | .searchDone | .searchDone6 =>
      match searchResult with
      | [] => if call.granted then [⟨call.infoHash, [], []⟩] else []
      | _ :: _ =>
          if searchResult.dropLast.any fun sp => sp.hash == call.infoHash then searchResult
          else if call.granted then searchResult ++ [⟨call.infoHash, [], []⟩]
          else searchResult
  | .none => searchResult

end CLibp2p.Routing
