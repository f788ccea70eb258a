import CLibp2p.Machine.Queue
import CLibp2p.Stream.Bytes

/-!
# The buffer of a channel

`utils/threadsafe_buffer.c`: a block of memory that holds what has been written and not yet read. Each call
holds the lock from its first look at the context to its last. Memory is always granted, and what is new
in a block holds anything. A call that would leave a block has no result.
-/

namespace CLibp2p.Utils

open Duplex Machine

/-- `struct ThreadsafeBufferContext`. -/
structure ThreadsafeBufferContext where
  bufferSize : Nat
  buffer : Option Bytes
deriving Repr, DecidableEq

/-- What a call returns, and what it puts into `results`. -/
structure BufferAnswer where
  count : Nat
  results : Bytes
deriving Repr, DecidableEq

/-- `memcpy` from a place in a block. -/
def copyFrom (block : Bytes) (offset count : Nat) : Option Bytes :=
  if offset + count ≤ block.length then some ((block.drop offset).take count) else none

/-- `memcpy` to a place in a block. -/
def copyTo (block : Bytes) (offset : Nat) (bytes : Bytes) : Option Bytes :=
  if offset + bytes.length ≤ block.length then
    some (block.take offset ++ bytes ++ block.drop (offset + bytes.length))
  else none

/-- `realloc`, and `malloc` where there is no block. -/
def realloc (memory : Nat → UInt8) (block : Option Bytes) (size : Nat) : Bytes :=
  let kept := (block.getD []).take size
  kept ++ (List.range (size - kept.length)).map memory

namespace ThreadsafeBufferContext

/-- `threadsafe_buffer_context_new`. -/
def new : ThreadsafeBufferContext := ⟨0, none⟩

/-- `threadsafe_buffer_peek`. -/
def peek (context : ThreadsafeBufferContext) (resultsSize : Nat) : Option BufferAnswer :=
  match context.buffer with
  | none => some ⟨0, []⟩
  | some buffer =>
      if 0 < context.bufferSize then do
        let bytesRead := if resultsSize < context.bufferSize then resultsSize else context.bufferSize
        let results ← copyFrom buffer 0 bytesRead
        pure ⟨bytesRead, results⟩
      else some ⟨0, []⟩

/-- What `threadsafe_buffer_read` does after it has read. -/
def adjust (memory : Nat → UInt8) (context : ThreadsafeBufferContext) (bytesRead : Nat) :
    Option ThreadsafeBufferContext :=
  if 0 < bytesRead then
    if 0 < context.bufferSize - bytesRead then do
      let newBufferSize := context.bufferSize - bytesRead
      let rest ← copyFrom (context.buffer.getD []) bytesRead newBufferSize
      let newBuffer ← copyTo (realloc memory none newBufferSize) 0 rest
      pure ⟨newBufferSize, some newBuffer⟩
    else some ⟨0, none⟩
  else some context

/-- `threadsafe_buffer_read`, which begins as a peek does. -/
def read (memory : Nat → UInt8) (context : ThreadsafeBufferContext) (resultsSize : Nat) :
    Option (BufferAnswer × ThreadsafeBufferContext) := do
  let answer ← context.peek resultsSize
  let context ← context.adjust memory answer.count
  pure (answer, context)

/-- `threadsafe_buffer_write`. -/
def write (memory : Nat → UInt8) (context : ThreadsafeBufferContext) (bytes : Bytes) :
    Option (BufferAnswer × ThreadsafeBufferContext) :=
  if bytes.length = 0 then some (⟨0, []⟩, context)
  else do
    let newBuffer := realloc memory context.buffer (context.bufferSize + bytes.length)
    let newBuffer ← copyTo newBuffer context.bufferSize bytes
    pure (⟨bytes.length, []⟩, ⟨context.bufferSize + bytes.length, some newBuffer⟩)

/-- A call on the context. -/
def call (memory : Nat → UInt8) (context : ThreadsafeBufferContext) :
    QueueOp UInt8 → Option (BufferAnswer × ThreadsafeBufferContext)
  | .push bytes => context.write memory bytes
  | .peek resultsSize => (context.peek resultsSize).map fun answer => (answer, context)
  | .pop resultsSize => context.read memory resultsSize

end ThreadsafeBufferContext

end CLibp2p.Utils
