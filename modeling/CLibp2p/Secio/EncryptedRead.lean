import CLibp2p.Secio.Cipher
import CLibp2p.Secio.Peers
import CLibp2p.Secio.Socket

/-!
# `libp2p_secio_encrypted_read`

A read from a secio stream: a framed message from the socket, given to `libp2p_secio_decrypt`.
-/

namespace CLibp2p.Secio

open Duplex

/-- The bytes in the buffer of a message. Where less was read than its size, the rest is what the
allocator left there; for a size that is negative as an `int` there is no buffer. -/
def ReadMessage.buffer (memory : Nat → UInt8) (message : ReadMessage) : Option Bytes :=
  let read := message.data.length
  if intBound ≤ message.dataSize then none
  else some (message.data ++ (List.range (message.dataSize - read)).map fun k => memory (read + k))

/-- What a read returns, what it puts into `*bytes` unless it leaves that alone, the session after it,
and what is left on the socket. -/
structure EncryptedRead where
  retVal : Int
  bytes : Option Bytes
  session : CipherSession
  inbound : Bytes
deriving Repr, DecidableEq

/-- The read of the stream under secio: what it returns, its message, and what it leaves. -/
abbrev ParentRead := (inbound : Bytes) → Int × Option Bytes × Bytes

/-- `libp2p_secio_encrypted_read`. It gives the socket ten seconds, whatever it was given itself. `none`
is a use of memory that is not there. -/
def encryptedRead (lib : CipherLibrary) (memory : Nat → UInt8) (parentRead : ParentRead)
    (status : SecioStatus) (session : CipherSession) (schedule : List SocketCall) (inbound : Bytes) :
    Option EncryptedRead :=
  if status ≠ .ack then
    let (retVal, bytes, inbound) := parentRead inbound
    some ⟨retVal, bytes, session, inbound⟩
  else
    let received := unencryptedReadFrom schedule 10 inbound
    if received.retVal = 0 then some ⟨0, none, session, received.inbound⟩
    else do
      let message ← received.msg
      let incoming ← message.buffer memory
      let (decrypted, session) ← session.decrypt lib incoming
      pure ⟨decrypted.retVal, decrypted.outgoing, session, received.inbound⟩

end CLibp2p.Secio
