import CLibp2p.Stream.KeyStream

/-!
# The encrypted stream of the second version

`secio_stream_write` and `secio_stream_read` of `v2/src/conn/secio.c`. Each of them has a cipher context in
counter mode that moves on with every byte it is given. Both sides start from the same key and IV.
-/

namespace CLibp2p.SecioV2

open Duplex

/-- An `EVP_CIPHER_CTX` in counter mode: the key stream of its key and IV, and how much of it is used. -/
structure CipherCtx where
  keyStream : Nat → UInt8
  used : Nat

/-- `EVP_EncryptUpdate`, and `EVP_DecryptUpdate`. -/
def CipherCtx.update (ctx : CipherCtx) (input : Bytes) : Bytes × CipherCtx :=
  (xorAt ctx.keyStream input (List.range' ctx.used input.length),
    { ctx with used := ctx.used + input.length })

/-- `sizeof(cipher_buf)`. -/
def cipherBufSize : Nat := 2048

/-- A call of `secio_stream_write`: its buffer, whether `EVP_EncryptUpdate` refuses the length, and how much
of the ciphertext the raw stream takes, if it does not fail. -/
structure WriteCall where
  buf : Bytes
  refused : Bool
  accepted : Option Nat
deriving Repr, DecidableEq

/-- The length goes to OpenSSL as an `int`. -/
def WriteCall.inl (call : WriteCall) : Nat := sizeOfInt (intOfSize call.buf.length)

/-- `secio_stream_write`: what it returns and what the raw stream takes. It is `none` if the ciphertext runs
over the end of `cipher_buf`; a negative length that is not refused is a huge one. -/
def streamWrite (ctx : CipherCtx) (call : WriteCall) : Option (Int × Bytes × CipherCtx) :=
  if call.refused then some (-1, [], ctx)
  else if cipherBufSize < call.inl then none
  else
    let (cipher, ctx) := ctx.update (call.buf.take call.inl)
    match call.accepted with
    | none => some (-1, [], ctx)
    | some accepted => some ((cipher.take accepted).length, cipher.take accepted, ctx)

/-- `secio_stream_read`: the plaintext, and what is left on the raw stream, which gives at most `granted`
bytes. No plaintext stands for every result below one. -/
def streamRead (ctx : CipherCtx) (wire : Bytes) (count granted : Nat) : Bytes × Bytes × CipherCtx :=
  let count := if cipherBufSize < count then cipherBufSize else count
  let cipher := wire.take (min granted count)
  if cipher = [] then ([], wire, ctx)
  else
    let (plain, ctx) := ctx.update cipher
    (plain, wire.drop cipher.length, ctx)

/-! ### One direction of a connection -/

/-- The contexts of the two sides, the ciphertext on its way, the bytes that writes reported as written and
those that reads returned, and whether a ciphertext ran over its buffer. -/
structure Link where
  writeCtx : CipherCtx
  readCtx : CipherCtx
  wire : Bytes
  written : Bytes
  read : Bytes
  overrun : Bool

def Link.start (keyStream : Nat → UInt8) : Link := ⟨⟨keyStream, 0⟩, ⟨keyStream, 0⟩, [], [], [], false⟩

inductive LinkEvent where
  | write (call : WriteCall)
  | read (count granted : Nat)
deriving Repr, DecidableEq

def LinkEvent.call? : LinkEvent → Option WriteCall
  | .write call => some call
  | .read _ _ => none

def Link.step (link : Link) : LinkEvent → Link
  | .write call =>
      match streamWrite link.writeCtx call with
      | none => { link with overrun := true }
      | some (ret, taken, ctx) =>
          { link with
            writeCtx := ctx
            wire := link.wire ++ taken
            written := link.written ++ call.buf.take ret.toNat }
  | .read count granted =>
      let (plain, wire, ctx) := streamRead link.readCtx link.wire count granted
      { link with readCtx := ctx, wire, read := link.read ++ plain }

end CLibp2p.SecioV2
