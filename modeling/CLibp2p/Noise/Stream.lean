import CLibp2p.Stream.Prog
import CLibp2p.Noise.Primitives

/-!
# Noise frames and the encrypted stream

A frame is a two-byte big-endian length and as many bytes. `writeFrame` and `readFrame` carry the
handshake messages, `streamWrite` and `streamRead` the data afterwards.
-/

namespace CLibp2p.Noise

open Duplex Duplex.Prog

/-- One call of `callbacks->verify`. Key and signature are slices of the decrypted payload. -/
structure VerifyCall where
  payload : Bytes
  key : Slice
  sig : Slice
  staticKey : Bytes
deriving Repr, DecidableEq

abbrev Code := Prog UInt8 VerifyCall Bool

abbrev Wire := Duplex.Wire UInt8 VerifyCall Bool

/-- The two bytes before a frame of `length` bytes. -/
def frameHeader (length : Nat) : Bytes := be16 (UInt16.ofNat length)

def frameLength : Bytes → Nat
  | [b0, b1] => (ofBe16 b0 b1).toNat
  | _ => 0

def writeFrame (data : Bytes) : Code Bool := do
  let ret ← send (frameHeader data.length)
  if ret ≠ 2 then pure false
  else do
    let ret ← send data
    pure (ret = data.length)

/-- `noise_read_frame`; the header has to come from a single read. -/
def readFrame (maxLength : Nat) : Code (Option Bytes) := do
  let header ← recv 2
  if header.length ≠ 2 then pure none
  else if maxLength < frameLength header then pure none
  else readExactly (frameLength header)

/-- `struct NoiseStreamContext`; `readBuf` holds the `read_len` bytes of the last frame. -/
structure StreamContext where
  readKey : Bytes
  writeKey : Bytes
  readNonce : UInt64
  writeNonce : UInt64
  readBuf : Bytes
  readPos : Nat
deriving Repr, DecidableEq

def StreamContext.unread (ctx : StreamContext) : Bytes := ctx.readBuf.drop ctx.readPos

def maxPayload : Nat := 65535 - tagLength

/-- Where a read of `count` bytes leaves a buffer; a buffer that was read to its end is emptied. -/
def StreamContext.buffer (ctx : StreamContext) (readBuf : Bytes) (readPos : Nat) : StreamContext :=
  if readPos = readBuf.length then { ctx with readBuf := [], readPos := 0 }
  else { ctx with readBuf, readPos }

/-- `noise_stream_read`; `none` is -1, otherwise the bytes copied to the caller. -/
def streamRead (prims : Primitives) (ctx : StreamContext) (count : Nat) :
    Code (Option Bytes × StreamContext) :=
  if ctx.readPos < ctx.readBuf.length then
    let served := ctx.unread.take count
    pure (some served, ctx.buffer ctx.readBuf (ctx.readPos + served.length))
  else do
    let header ← recv 2
    if header.length ≠ 2 then pure (none, ctx)
    else if frameLength header < tagLength then pure (none, ctx)
    else do
      match ← readExactly (frameLength header) with
      | none => pure (none, ctx)
      | some ciphertext =>
          match decrypt prims ctx.readKey ctx.readNonce [] ciphertext with
          | none => pure (none, ctx)
          | some plaintext =>
              let served := plaintext.take count
              pure (some served, StreamContext.buffer { ctx with readNonce := ctx.readNonce + 1 }
                plaintext served.length)

/-- `noise_stream_write`; the nonce moves on only once the whole frame went out. -/
def streamWrite (prims : Primitives) (ctx : StreamContext) (buf : Bytes) :
    Code (Int × StreamContext) :=
  let plaintext := buf.take maxPayload
  match encrypt prims ctx.writeKey ctx.writeNonce [] plaintext with
  | none => pure (-1, ctx)
  | some ciphertext => do
      let ret ← send (frameHeader (plaintext.length + tagLength))
      if ret ≠ 2 then pure (-1, ctx)
      else do
        let ret ← send ciphertext
        if ret = (plaintext.length + tagLength : Nat) then
          pure (plaintext.length, { ctx with writeNonce := ctx.writeNonce + 1 })
        else pure (-1, ctx)

end CLibp2p.Noise
