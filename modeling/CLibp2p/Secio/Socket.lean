import CLibp2p.Stream.Bytes
import Mathlib.Data.List.Infix

/-!
# The framing of secio on the socket

`libp2p_secio_unencrypted_write` and `libp2p_secio_unencrypted_read`, call by call: the size in network
byte order, then the message, each in a loop of its own. A schedule says what the socket does with one
call after the other; when it is used up, a call moves all it is asked for.
-/

namespace CLibp2p.Secio

open Duplex

inductive Errno where
  | none
  | again
  | inProgress
  | other
deriving Repr, DecidableEq

/-- The outcome of `socket_write` or `socket_read`: so many bytes at most, a -1, or the 0 of a closed
connection, where `errno` is that of an earlier call. -/
inductive SocketCall where
  | moved (count : Nat)
  | failed (errno : Errno)
  | closed (errno : Errno)
deriving Repr, DecidableEq

/-! ### Writing -/

/-- What a loop put on the wire, the count it ends with unless it returned from within, and what is left
of the schedule. -/
structure Wrote where
  sent : Bytes
  written : Option Nat
  schedule : List SocketCall
deriving Repr, DecidableEq

/-- The bytes that a call is asked to take; a negative `left` is a size no buffer has. -/
def due (data : Bytes) (left : Int) (written : Nat) : Bytes :=
  if left < 0 then data.drop written else (data.drop written).take left.toNat

/-- `do { .. } while (left > 0)` with one `socket_write` a round. `count` is what the loop adds to
`written`: the loop for the size adds nothing. -/
def writeLoop (count : Nat → Nat) (data : Bytes) :
    (schedule : List SocketCall) → (left : Int) → (written : Nat) → Wrote
  | [], left, written =>
      let chunk := due data left written
      ⟨chunk, some (written + count chunk.length), []⟩
  | .moved taken :: schedule, left, written =>
      let chunk := (due data left written).take taken
      let left := left - chunk.length
      let written := written + count chunk.length
      if 0 < left then
        let rest := writeLoop count data schedule left written
        { rest with sent := chunk ++ rest.sent }
      else ⟨chunk, some written, schedule⟩
  | .failed .again :: schedule, left, written
  | .closed _ :: schedule, left, written =>
      -- only a negative result ends the call
      if 0 < left then writeLoop count data schedule left written
      else ⟨[], some written, schedule⟩
  | _ :: schedule, _, _ => ⟨[], none, schedule⟩

/-- What `libp2p_secio_unencrypted_write` returns, and what it put on the wire. -/
def unencryptedWriteTo (schedule : List SocketCall) (message : Bytes) : Int × Bytes :=
  if message.length = 0 then (0, [])
  else
    let size := writeLoop (fun _ => 0) (be32 (UInt32.ofNat message.length)) schedule 4 0
    match size.written with
    | none => (0, size.sent)
    | some _ =>
        let body := writeLoop id message size.schedule (intOfSize message.length) 0
        match body.written with
        | none => (0, size.sent ++ body.sent)
        | some written => (intOfSize written, size.sent ++ body.sent)

/-! ### Reading -/

/-- A `struct StreamMessage`: what was read into its buffer, and its `data_size`. -/
structure ReadMessage where
  data : Bytes
  dataSize : Nat
deriving Repr, DecidableEq

structure Received where
  retVal : Int
  msg : Option ReadMessage
  inbound : Bytes
deriving Repr, DecidableEq

/-- The bytes of the size that were read, unless the function returned from within the loop. -/
structure SizeRead where
  size : Option Bytes
  schedule : List SocketCall
  inbound : Bytes
deriving Repr, DecidableEq

/-- The loop for the size, byte by byte. When the time is up it ends with what it has. -/
def readSize : (schedule : List SocketCall) → (size : Bytes) → (timeLeft : Int) → (inbound : Bytes) →
    SizeRead
  | [], size, _, inbound =>
      -- a socket that has too little says EAGAIN
      if size.length + inbound.length < 4 then ⟨none, [], []⟩
      else ⟨some (size ++ inbound.take (4 - size.length)), [], inbound.drop (4 - size.length)⟩
  | .moved (_ + 1) :: schedule, size, timeLeft, byte :: inbound =>
      if size.length + 1 < 4 then readSize schedule (size ++ [byte]) timeLeft inbound
      else ⟨some (size ++ [byte]), schedule, inbound⟩
  | .failed .inProgress :: schedule, size, timeLeft, inbound
  | .closed .inProgress :: schedule, size, timeLeft, inbound =>
      if timeLeft - 1 = 0 then ⟨some size, schedule, inbound⟩
      else readSize schedule size (timeLeft - 1) inbound
  | _ :: schedule, _, _, inbound => ⟨none, schedule, inbound⟩

/-- The loop for the message. The buffer of a message whose size is negative as an `int` is NULL, and
the socket cannot read into it. -/
def readBody (dataSize : Nat) : (schedule : List SocketCall) → (left : Int) → (data : Bytes) →
    (timeLeft : Int) → (inbound : Bytes) → Received
  | [], left, data, _, inbound =>
      if left < 0 ∨ inbound.length < left then ⟨0, some ⟨data, dataSize⟩, inbound⟩
      else ⟨intOfSize dataSize, some ⟨data ++ inbound.take left.toNat, dataSize⟩,
        inbound.drop left.toNat⟩
  | .moved taken :: schedule, left, data, timeLeft, inbound =>
      let chunk := (inbound.take left.toNat).take taken
      if left < 0 ∨ chunk.length = 0 then ⟨0, some ⟨data, dataSize⟩, inbound⟩
      else
        let left := left - chunk.length
        let inbound := inbound.drop chunk.length
        if 0 < left then readBody dataSize schedule left (data ++ chunk) timeLeft inbound
        else ⟨intOfSize dataSize, some ⟨data ++ chunk, dataSize⟩, inbound⟩
  | .failed .inProgress :: schedule, left, data, timeLeft, inbound =>
      if timeLeft - 1 = 0 ∨ left ≤ 0 then ⟨intOfSize dataSize, some ⟨data, dataSize⟩, inbound⟩
      else readBody dataSize schedule left data (timeLeft - 1) inbound
  | .failed .again :: schedule, left, data, timeLeft, inbound =>
      if left ≤ 0 then ⟨intOfSize dataSize, some ⟨data, dataSize⟩, inbound⟩
      else readBody dataSize schedule left data timeLeft inbound
  | _ :: _, _, data, _, inbound => ⟨0, some ⟨data, dataSize⟩, inbound⟩

/-- `ntohl`; bytes of the size that were not read are zero. -/
def sizeOf (size : Bytes) : Nat :=
  (ofBe32 (size.getD 0 0) (size.getD 1 0) (size.getD 2 0) (size.getD 3 0)).toNat

/-- `libp2p_secio_unencrypted_read` on a stream with an open socket. -/
def unencryptedReadFrom (schedule : List SocketCall) (timeoutSecs : Int) (inbound : Bytes) : Received :=
  let first := readSize schedule [] timeoutSecs inbound
  match first.size with
  | none => ⟨0, none, first.inbound⟩
  | some size =>
      let dataSize := sizeOf size
      if dataSize = 0 then ⟨0, none, first.inbound⟩
      else readBody dataSize first.schedule (intOfSize dataSize) [] timeoutSecs first.inbound

end CLibp2p.Secio
