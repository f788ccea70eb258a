import CLibp2p.Stream.Bytes

/-!
# The `CanHandle` predicates of the v1 protocols

A new message is offered to each registered protocol, whose predicate looks for its protocol id at the
start of the message or behind a varint. All four predicates are one function of the id; it compares by
`strncmp` in the memory that the message points into.
-/

namespace CLibp2p.CanHandle

open Duplex

/-- The bytes at and after an address. -/
abbrev Memory := Nat → UInt8

/-- `struct StreamMessage`; a null message is one without data. -/
structure StreamMessage where
  data : Option Memory
  dataSize : UInt64

/-- The `n` bytes at the start of `data`. -/
def bytesAt (data : Memory) (n : Nat) : Bytes := (List.range n).map data

/-- `strncmp` of a string with as many bytes of memory gives 0. -/
def strncmpEq : Bytes → Memory → Bool
  | [], _ => true
  | c :: s, mem => mem 0 == c && (c == 0 || strncmpEq s fun i => mem (i + 1))

section Predicates

/- `varint_decode` reads the bytes that it is given, and says how many of them the varint takes. -/
variable (varintBytes : Bytes → UInt64)

/-- The length of the varint in front, which is looked for unless one of the first two bytes is that of
the protocol id. -/
def prefixLength (second : UInt8) (data : Memory) (dataSize : UInt64) : UInt64 :=
  if data 0 ≠ '/'.toUInt8 ∧ data 1 ≠ second then varintBytes (bytesAt data dataSize.toNat) else 0

/-- The body of the four predicates. -/
def canHandle (protocol : Bytes) (second : UInt8) (msg : StreamMessage) : Bool :=
  match msg.data with
  | none => false
  | some data =>
      if msg.dataSize = 0 then false
      else
        let numBytes := prefixLength varintBytes second data msg.dataSize
        decide (UInt64.ofNat protocol.length - numBytes ≤ msg.dataSize) &&
          strncmpEq protocol fun i => data (numBytes.toNat + i)

def yamuxId : Bytes := "/yamux/1.0.0\n".toUTF8.toList

def multistreamId : Bytes := "/multistream/1.0.0\n".toUTF8.toList

def identifyId : Bytes := "/ipfs/id/1.0.0\n".toUTF8.toList

def mplexId : Bytes := "/mplex/6.7.0\n".toUTF8.toList

def yamuxCanHandle (msg : StreamMessage) : Bool := canHandle varintBytes yamuxId 'y'.toUInt8 msg

def multistreamCanHandle (msg : StreamMessage) : Bool :=
  canHandle varintBytes multistreamId 'm'.toUInt8 msg

def identifyCanHandle (msg : StreamMessage) : Bool := canHandle varintBytes identifyId 'i'.toUInt8 msg

def mplexCanHandle (msg : StreamMessage) : Bool := canHandle varintBytes mplexId 'm'.toUInt8 msg

end Predicates

/-- The protocols that have a predicate. -/
inductive V1Protocol where
  | yamux
  | multistream
  | identify
  | mplex
deriving Repr, DecidableEq

namespace V1Protocol

def id : V1Protocol → Bytes
  | yamux => yamuxId
  | multistream => multistreamId
  | identify => identifyId
  | mplex => mplexId

/-- The second byte of the id, by which the predicate tells it from a varint. -/
def second : V1Protocol → UInt8
  | yamux => 'y'.toUInt8
  | multistream => 'm'.toUInt8
  | identify => 'i'.toUInt8
  | mplex => 'm'.toUInt8

def canHandle (varintBytes : Bytes → UInt64) : V1Protocol → StreamMessage → Bool
  | yamux => yamuxCanHandle varintBytes
  | multistream => multistreamCanHandle varintBytes
  | identify => identifyCanHandle varintBytes
  | mplex => mplexCanHandle varintBytes

theorem canHandle_eq (varintBytes : Bytes → UInt64) (protocol : V1Protocol) (msg : StreamMessage) :
    protocol.canHandle varintBytes msg =
      CanHandle.canHandle varintBytes protocol.id protocol.second msg := by
  cases protocol <;> rfl

end V1Protocol

end CLibp2p.CanHandle
