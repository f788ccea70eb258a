import CLibp2p.Stream.Bytes

/-!
# Raw reads of a secio stream

`libp2p_secio_read_raw` of `secio/secio.c` hands out decrypted messages in pieces of the size that its
caller asks for. What is left of a message waits in the context.
-/

namespace CLibp2p.Secio

open Duplex

/-- The two fields of `struct SecioContext` that raw reads use, and what the coming reads of the stream
give: a decrypted message or a failure. No message is buffered while the position is -1. -/
structure RawReader where
  incoming : List (Option Bytes)
  buffered : Option (Bytes × Nat)
deriving Repr, DecidableEq

def RawReader.start (incoming : List (Option Bytes)) : RawReader := ⟨incoming, none⟩

/-- What a call comes to. `overrun` is a copy from behind the end of the message. -/
inductive RawResult where
  | failed
  | bytes (taken : Bytes)
  | overrun
deriving Repr, DecidableEq

/-- The part of the function that has a message. `max_to_read` looks at the size of the whole message,
and a message that was not read to its end gets it as the position. -/
def RawReader.serve (reader : RawReader) (message : Bytes) (pos bufferSize : Nat) :
    RawResult × RawReader :=
  let maxToRead := if message.length < bufferSize then message.length else bufferSize
  let result :=
    if pos + maxToRead ≤ message.length then .bytes ((message.drop pos).take maxToRead) else .overrun
  if pos + maxToRead = message.length then (result, { reader with buffered := none })
  else (result, { reader with buffered := some (message, maxToRead) })

/-- `libp2p_secio_read_raw`. -/
def readRaw (reader : RawReader) (bufferSize : Nat) : RawResult × RawReader :=
  match reader.buffered with
  | some (message, pos) => reader.serve message pos bufferSize
  | none =>
      match reader.incoming with
      | [] => (.failed, reader)
      | none :: incoming => (.failed, { reader with incoming })
      | some message :: incoming => RawReader.serve { reader with incoming } message 0 bufferSize

/-- One call in a sequence of them. -/
def rawStep (reader : RawReader) (bufferSize : Nat) : RawReader := (readRaw reader bufferSize).2

/-- The bytes that a call puts into its caller's buffer. -/
def rawReturned (reader : RawReader) (bufferSize : Nat) : Bytes :=
  match (readRaw reader bufferSize).1 with
  | .bytes taken => taken
  | _ => []

end CLibp2p.Secio
