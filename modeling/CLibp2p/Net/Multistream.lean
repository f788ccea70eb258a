import CLibp2p.Stream.Bytes
import CLibp2p.Stream.Prog

/-!
# Multistream negotiation of `v2/src/conn/multistream.c`

Both sides exchange messages behind a varint length. The client announces multistream and proposes a
protocol; the server echoes what it accepts and answers `na` otherwise. A C string is the list of the
bytes before its NUL.
-/

namespace CLibp2p.Multistream

open Duplex Duplex.Prog

/-- The programs ask their environment nothing. -/
abbrev Talk := Prog UInt8 Empty Unit

def newline : UInt8 := 10

/-- `MULTISTREAM_MSG_HEADER`. -/
def msgHeader : Bytes := "/multistream/1.0.0\n".toUTF8.toList

/-- The string in a buffer. -/
def cString (buffer : Bytes) : Bytes := buffer.takeWhile (· ≠ 0)

/-- What `snprintf` leaves in a buffer of `size` bytes. -/
def snprintf (size : Nat) (text : Bytes) : Bytes := text.take (size - 1)

/-- The header of `write_length_prefixed_msg`, which has room for ten bytes. -/
def lengthHeader : (room temp : Nat) → Bytes
  | 0, _ => []
  | room + 1, temp =>
      let byte := UInt8.ofNat (temp &&& 0x7F)
      if 0 < temp >>> 7 then (byte ||| 0x80) :: lengthHeader room (temp >>> 7) else [byte]

def writeLengthPrefixedMsg (msg : Bytes) : Talk Bool := do
  let combined := lengthHeader 10 msg.length ++ msg
  let n ← send combined
  pure (decide (0 < n ∧ n = combined.length))

/-- `<<` on a `size_t`. A shift by 64 or more is undefined, and processors differ. -/
structure SizeShift where
  shl : (value shift : UInt64) → UInt64
  shl_of_lt : ∀ value shift, shift < 64 → shl value shift = value <<< shift
  shl_zero : ∀ shift, shl 0 shift = 0

/-- The count is taken modulo 64, as on x86. -/
def SizeShift.masked : SizeShift where
  shl value shift := value <<< shift
  shl_of_lt _ _ _ := rfl
  shl_zero _ := UInt64.toNat_inj.mp (by simp)

/-- The first loop of `read_length_prefixed_msg`, for at most `rounds` bytes. -/
def readMsgLen (mach : SizeShift) : (rounds : Nat) → (msgLen shift : UInt64) → Talk (Option UInt64)
  | 0, _, _ => .done none
  | rounds + 1, msgLen, shift => .read 1 fun
      | [] => .done none
      | byte :: _ =>
          let msgLen := msgLen ||| mach.shl (byte &&& 0x7F).toUInt64 shift
          if byte &&& 0x80 = 0 then .done (some msgLen)
          else readMsgLen mach rounds msgLen (shift + 7)

/-- `read_length_prefixed_msg`, with what it leaves in the buffer in front of the NUL. -/
def readLengthPrefixedMsg (mach : SizeShift) (rounds : Nat) (maxLen : UInt64) : Talk (Option Bytes) :=
  if maxLen = 0 then pure none
  else do
    match ← readMsgLen mach rounds 0 0 with
    | none => pure none
    | some msgLen => if maxLen ≤ msgLen then pure none else readExactly msgLen.toNat

/-- `libp2p_net_multistream_read_protocol`. -/
def readProtocol (mach : SizeShift) (rounds : Nat) (maxLen : UInt64) : Talk (Option Bytes) :=
  readLengthPrefixedMsg mach rounds maxLen

/-- `libp2p_net_multistream_write_protocol`. -/
def writeProtocol (protocol : Bytes) : Talk Bool := writeLengthPrefixedMsg protocol

/-- `libp2p_v2_net_multistream_connect`. -/
def connect (mach : SizeShift) (rounds : Nat) : Talk Bool := do
  if ← writeLengthPrefixedMsg msgHeader then
    match ← readLengthPrefixedMsg mach rounds 256 with
    | none => pure false
    | some response => pure (decide (cString response = msgHeader))
  else pure false

def negotiateProtocol (mach : SizeShift) (rounds : Nat) (protocolId : Bytes) : Talk Bool := do
  let formattedProto := snprintf 256 (protocolId ++ [newline])
  if ← writeLengthPrefixedMsg formattedProto then
    match ← readLengthPrefixedMsg mach rounds 256 with
    | none => pure false
    | some response => pure (decide (cString response = formattedProto))
  else pure false

def trimNewline (msg : Bytes) : Bytes :=
  if msg.getLast? = some newline then msg.dropLast else msg

/-- The refusal. -/
def notAvailable : Bytes := "na\n".toUTF8.toList

/-- `libp2p_net_multistream_accept`. -/
def accept (mach : SizeShift) (rounds : Nat) (expectedProtocol : Option Bytes) : Talk Bool := do
  match ← readLengthPrefixedMsg mach rounds 256 with
  | none => pure false
  | some msg =>
      if cString msg ≠ msgHeader then pure false
      else if ← writeLengthPrefixedMsg msgHeader then
        match ← readLengthPrefixedMsg mach rounds 256 with
        | none => pure false
        | some msg =>
            let msg := trimNewline (cString msg)
            if expectedProtocol.any (· ≠ msg) then do
              let _ ← writeLengthPrefixedMsg notAvailable
              pure false
            else writeLengthPrefixedMsg (snprintf 256 (msg ++ [newline]))
      else pure false

/-- A client that connects and then proposes a protocol. -/
def dial (mach : SizeShift) (rounds : Nat) (protocolId : Bytes) : Talk Bool := do
  if ← connect mach rounds then negotiateProtocol mach rounds protocolId else pure false

end CLibp2p.Multistream
