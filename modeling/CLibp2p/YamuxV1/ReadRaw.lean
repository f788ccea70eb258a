import CLibp2p.YamuxV1.Session

/-!
# Raw reads of a v1 session

`libp2p_yamux_read_raw` on a `YamuxContext` hands out the messages of `libp2p_yamux_read` in pieces of
the size that its caller asks for. What is left of a message waits in the context.
-/

namespace CLibp2p.YamuxV1

open Duplex

/-- The context with the two fields that raw reads keep in it, and its parent stream. `none` stands for a
null `buffered_message` and for the position -1. -/
structure RawReader where
  ctx : Context
  parent : Parent
  bufferedMessage : Option Bytes
  bufferedMessagePos : Option Nat
deriving Repr, DecidableEq

/-- The reader of a new context: nothing is buffered. -/
def RawReader.start (ctx : Context) (parent : Parent) : RawReader := ⟨ctx, parent, none, none⟩

/-- What a call comes to. `fault` is the use of a null message. -/
inductive RawResult where
  | failed
  | bytes (taken : Bytes)
  | fault
deriving Repr, DecidableEq

namespace RawReader

/-- The message that raw reads are in the middle of, and how far they are. -/
def current (reader : RawReader) : Option (Bytes × Nat) :=
  match reader.bufferedMessagePos, reader.bufferedMessage with
  | some pos, some message => some (message, pos)
  | _, _ => none

/-- `libp2p_yamux_read` with the address of `buffered_message`. A call that sets no message leaves the
one there, except that the peer's protocol id is read into it and freed again. -/
def fetch (env : Env) (reader : RawReader) : Bool × RawReader :=
  let (ok, message, ctx, parent) := yamuxRead env reader.ctx reader.parent
  let confirmed := reader.ctx.state ≠ .est ∧ ctx.state = .est
  (ok, { reader with
    ctx, parent
    bufferedMessage := if confirmed then none else message.or reader.bufferedMessage })

/-- Up to `size` bytes of `message` from `pos` on. A message that was read to its end is freed. -/
def serve (reader : RawReader) (message : Bytes) (pos size : Nat) : RawResult × RawReader :=
  let left := message.length - pos
  let maxToRead := if left < size then left else size
  let taken := (message.drop pos).take maxToRead
  if pos + maxToRead = message.length then
    (.bytes taken, { reader with bufferedMessage := none, bufferedMessagePos := none })
  else (.bytes taken, { reader with bufferedMessage := message, bufferedMessagePos := some (pos + maxToRead) })

end RawReader

/-- `libp2p_yamux_read_raw` on the `YamuxContext`. -/
def readRaw (env : Env) (reader : RawReader) (size : Nat) : RawResult × RawReader :=
  match reader.current with
  | some (message, pos) => reader.serve message pos size
  | none =>
      match reader.fetch env with
      | (false, reader) => (.failed, reader)
      | (true, reader) =>
          match reader.bufferedMessage with
          | none => (.fault, { reader with bufferedMessagePos := some 0 })
          | some message => reader.serve message 0 size

/-- One call in a sequence of them. -/
def rawStep (env : Env) (reader : RawReader) (size : Nat) : RawReader := (readRaw env reader size).2

/-- The bytes that a call puts into its caller's buffer. -/
def rawReturned (env : Env) (reader : RawReader) (size : Nat) : Bytes :=
  match (readRaw env reader size).1 with
  | .bytes taken => taken
  | _ => []

/-- The message that a call gets from `libp2p_yamux_read`, if it calls it and that sets one. -/
def rawMessage (env : Env) (reader : RawReader) (_size : Nat) : Bytes :=
  match reader.current with
  | some _ => []
  | none =>
      match yamuxRead env reader.ctx reader.parent with
      | (true, message, _) => message.getD []
      | (false, _) => []

end CLibp2p.YamuxV1
