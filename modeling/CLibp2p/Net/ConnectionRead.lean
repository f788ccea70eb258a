import CLibp2p.Stream.Bytes

/-!
# Reads of a raw connection

`libp2p_net_connection_read` of `net/connectionstream.c`. A schedule says what one `socket_read` after the
other comes to; when it is used up, a call waits until its time is up. Memory is granted unless its size
is none. Where `realloc` moves a block the old one is freed.
-/

namespace CLibp2p.Net

open Duplex

/-- A `socket_read`: so many bytes at most, or -1. -/
inductive SocketRead where
  | came (count : Nat)
  | failed
deriving Repr, DecidableEq

def socketRead (result : SocketRead) (len : Nat) (inbound : Bytes) : Option Bytes :=
  match result with
  | .came count => some ((inbound.take len).take count)
  | .failed => none

/-- How much is asked for behind the first two bytes. -/
def lenBehind (b0 b1 : UInt8) : Nat :=
  if 0 < b0 ∧ b1 = '/'.toUInt8 then b0.toNat - 1 else 4096 - 2

/-- What a round has in `buffer`, unless `retVal` is -1, and what it leaves of the schedule and the
stream. -/
structure Round where
  buffer : Option Bytes
  schedule : List SocketRead
  inbound : Bytes
deriving Repr, DecidableEq

/-- The first round. The two bytes count only where more come. -/
def readFirst (schedule : List SocketRead) (inbound : Bytes) : Round :=
  match schedule with
  | [] => ⟨none, [], inbound⟩
  | result :: schedule =>
      match socketRead result 2 inbound with
      | some [b0, b1] =>
          match schedule with
          | [] => ⟨none, [], inbound.drop 2⟩
          | result :: schedule =>
              match socketRead result (lenBehind b0 b1) (inbound.drop 2) with
              | none => ⟨none, schedule, inbound.drop 2⟩
              | some more =>
                  ⟨some (if 0 < more.length then b0 :: b1 :: more else []), schedule,
                    (inbound.drop 2).drop more.length⟩
      | none => ⟨none, schedule, inbound⟩
      | some buffer => ⟨some buffer, schedule, inbound.drop buffer.length⟩

/-- What a call leaves in `msg`: no message, one with these bytes, or one whose bytes are in a block that was
freed. -/
inductive Returned where
  | none
  | message (data : Bytes)
  | freed
deriving Repr, DecidableEq

def Returned.data : Returned → Bytes
  | .message data => data
  | _ => []

/-- What a call returns, what it leaves in `msg`, and the stream behind it. -/
structure ReadCall where
  retVal : Int
  msg : Returned
  inbound : Bytes
deriving Repr, DecidableEq

/-- A call that ends without a message. -/
def noMessage (inbound : Bytes) : ReadCall := ⟨0, .none, inbound⟩

/-- The end of the function. -/
def buildMessage (resultBuffer inbound : Bytes) : ReadCall :=
  if 0 < resultBuffer.length then ⟨intOfSize resultBuffer.length, .message resultBuffer, inbound⟩
  else noMessage inbound

/-- The rounds behind the first, each after one that filled `buffer`. `moves` says for which sizes `realloc`
moves the block. -/
def readMore (moves : Nat → Bool) : (schedule : List SocketRead) → (resultBuffer inbound : Bytes) → ReadCall
  | [], _, inbound => noMessage inbound
  | result :: schedule, resultBuffer, inbound =>
      match socketRead result 4096 inbound with
      | none => noMessage inbound
      | some buffer =>
          if buffer.length < 1 then buildMessage resultBuffer inbound
          else
            let inbound := inbound.drop buffer.length
            let currentSize := intOfSize (resultBuffer.length + buffer.length)
            if mallocBound ≤ sizeOfInt currentSize then noMessage inbound
            -- `alloc` is dropped: the bytes are written into the freed block, and what follows is undefined
            else if moves (resultBuffer.length + buffer.length) then ⟨currentSize, .freed, inbound⟩
            else if buffer.length ≠ 4096 then buildMessage (resultBuffer ++ buffer) inbound
            else readMore moves schedule (resultBuffer ++ buffer) inbound

/-- `libp2p_net_connection_read`. -/
def connectionRead (moves : Nat → Bool) (schedule : List SocketRead) (inbound : Bytes) : ReadCall :=
  let round := readFirst schedule inbound
  match round.buffer with
  | none => noMessage round.inbound
  | some buffer =>
      if buffer.length ≠ 4096 then buildMessage buffer round.inbound
      else readMore moves round.schedule buffer round.inbound

/-- What a call meets: the sizes for which `realloc` moves a block, and the schedule of its reads. -/
structure ReadInput where
  moves : Nat → Bool
  schedule : List SocketRead

/-- A connection between calls: the messages returned so far, what is to come, and whether a message was
returned in a block that was freed. -/
structure Connection where
  returned : Bytes
  inbound : Bytes
  freed : Bool
deriving Repr, DecidableEq

def Connection.start (stream : Bytes) : Connection := ⟨[], stream, false⟩

def Connection.step (s : Connection) (input : ReadInput) : Connection :=
  let call := connectionRead input.moves input.schedule s.inbound
  ⟨s.returned ++ call.msg.data, call.inbound, s.freed || call.msg == .freed⟩

end CLibp2p.Net
