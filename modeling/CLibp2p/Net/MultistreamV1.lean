import CLibp2p.Protobuf

/-!
# The messages of `src/net/multistream.c`

`libp2p_net_multistream_read` gets a message from its parent with `read_raw`: the length byte by byte, the
content in one call. What the parent answers each call is decided by a schedule, and an answer may fall
short of what was asked for.
-/

namespace CLibp2p.MultistreamV1

open Duplex

/-- `varint_encode` with the size of the buffer, and `varint_decode`. -/
structure VarintLibrary where
  varintEncode : (value : UInt64) → (maxOut : Nat) → Bytes
  varintDecode : Bytes → UInt64 × Nat

/-- What comes of one `read_raw`: so many bytes at most, or -1. -/
inductive RawRead where
  | moved (count : Nat)
  | failed
deriving Repr, DecidableEq

/-- The parent stream. A call beyond the schedule gets all that it asks for and that is there. -/
structure Parent where
  inbound : Bytes
  schedule : List RawRead
deriving Repr, DecidableEq

/-- `read_raw`: what it returns and what it puts into the buffer. -/
def Parent.readRaw (parent : Parent) (bufferSize : Int) : Int × Bytes × Parent :=
  match parent.schedule with
  | .failed :: schedule => (-1, [], { parent with schedule })
  | .moved count :: schedule =>
      let chunk := parent.inbound.take (min count bufferSize.toNat)
      (chunk.length, chunk, ⟨parent.inbound.drop chunk.length, schedule⟩)
  | [] =>
      let chunk := parent.inbound.take bufferSize.toNat
      (chunk.length, chunk, ⟨parent.inbound.drop chunk.length, []⟩)

/-- `libp2p_net_multistream_prepare_to_send`. -/
def prepareToSend (lib : VarintLibrary) (data : Bytes) : Bytes :=
  lib.varintEncode (UInt64.ofNat data.length) 12 ++ data

/-- The loop for the length, with room for so many bytes more. A byte that is not read stays zero; the
length stays zero when no byte is the last. -/
def readVarint (lib : VarintLibrary) : (room : Nat) → (varint : Bytes) → Parent → Option UInt64 × Parent
  | 0, _, parent => (some 0, parent)
  | room + 1, varint, parent =>
      let (rr, chunk, parent) := parent.readRaw 1
      if rr = -1 then (none, parent)
      else
        let byte := chunk.headD 0
        if byte >>> 7 = 0 then (some (lib.varintDecode (varint ++ [byte])).1, parent)
        else readVarint lib room (varint ++ [byte]) parent

/-- The data, from one call of the parent with the size as an `int`. -/
def readContent (numBytesRequested : Nat) (parent : Parent) : Option Bytes × Parent :=
  let (bytesRead, data, parent) := parent.readRaw (intOfSize numBytesRequested)
  if sizeOfInt bytesRead ≠ numBytesRequested then (none, parent) else (some data, parent)

/-- `libp2p_net_multistream_read`; `none` is 0. -/
def read (lib : VarintLibrary) (parent : Parent) : Option Bytes × Parent :=
  match readVarint lib 12 [] parent with
  | (none, parent) => (none, parent)
  | (some numBytesRequested, parent) =>
      if numBytesRequested = 0 then (none, parent) else readContent numBytesRequested.toNat parent

/-- The varints of `varint.c`. -/
def VarintLibrary.varints : VarintLibrary where
  varintEncode value maxOut := CLibp2p.varintEncode maxOut value.toNat
  varintDecode := Protobuf.varints.varintDecode

end CLibp2p.MultistreamV1
