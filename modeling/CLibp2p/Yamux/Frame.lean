import CLibp2p.Stream.Bytes

/-!
# Yamux frames

The packed header of `v2/src/conn/yamux.c` and the frames a well-behaved peer sends: a DATA frame is
followed by exactly `length` payload bytes and every other frame by none, whatever its `length` says.
-/

namespace CLibp2p.Yamux

open Duplex

def version : UInt8 := 0

def typeData : UInt8 := 0
def typeWindowUpdate : UInt8 := 1
def typePing : UInt8 := 2
def typeGoAway : UInt8 := 3

def flagSyn : UInt16 := 1
def flagAck : UInt16 := 2
def flagFin : UInt16 := 4
def flagRst : UInt16 := 8

def initialWindowSize : UInt32 := 256 * 1024
def windowUpdateThreshold : UInt32 := initialWindowSize / 2
def maxPayload : Nat := 65535

/-- `struct YamuxHeader`, with its fields in host order. -/
structure Header where
  version : UInt8
  type : UInt8
  flags : UInt16
  streamId : UInt32
  length : UInt32
deriving Repr, DecidableEq

/-- `hdr.flags & flag`, as a condition. -/
def Header.has (hdr : Header) (flag : UInt16) : Bool := hdr.flags &&& flag != 0

def headerSize : Nat := 12

def Header.encode (hdr : Header) : Bytes :=
  hdr.version :: hdr.type :: (be16 hdr.flags ++ be32 hdr.streamId ++ be32 hdr.length)

def Header.decode : Bytes → Option Header
  | [version, type, f0, f1, s0, s1, s2, s3, l0, l1, l2, l3] =>
      some ⟨version, type, ofBe16 f0 f1, ofBe32 s0 s1 s2 s3, ofBe32 l0 l1 l2 l3⟩
  | _ => none

@[simp] theorem Header.length_encode (hdr : Header) : hdr.encode.length = headerSize := rfl

@[simp] theorem Header.decode_encode (hdr : Header) : Header.decode hdr.encode = some hdr := by
  simp only [encode, be16, be32, List.cons_append, List.nil_append, decode, ofBe16_be16,
    ofBe32_be32]

theorem Header.decode_isSome {bytes : Bytes} (hlength : bytes.length = headerSize) :
    ∃ hdr, Header.decode bytes = some hdr := by
  match bytes, hlength with
  | [v, t, f0, f1, s0, s1, s2, s3, l0, l1, l2, l3], _ => exact ⟨_, rfl⟩

/-- How many payload bytes follow a header on the wire. -/
def Header.payloadLength (hdr : Header) : Nat :=
  if hdr.type = typeData then hdr.length.toNat else 0

/-- A frame whose payload is the one its header announces. -/
structure Frame where
  header : Header
  payload : Bytes
  payload_length : payload.length = header.payloadLength

def Frame.encode (frame : Frame) : Bytes := frame.header.encode ++ frame.payload

def encodeFrames (frames : List Frame) : Bytes := frames.flatMap Frame.encode

@[simp] theorem encodeFrames_nil : encodeFrames [] = [] := rfl

@[simp] theorem encodeFrames_cons (frame : Frame) (frames : List Frame) :
    encodeFrames (frame :: frames) = frame.header.encode ++ (frame.payload ++ encodeFrames frames) := by
  simp [encodeFrames, Frame.encode]

theorem Header.ne_window_of_data {hdr : Header} (htype : hdr.type = typeData) :
    hdr.type ≠ typeWindowUpdate := by
  rw [htype]
  decide

theorem Header.not_control_of_data {hdr : Header} (htype : hdr.type = typeData) :
    ¬(hdr.type = typePing ∨ hdr.type = typeGoAway) := by
  rw [htype]
  decide

theorem Header.ne_window_of_control {hdr : Header}
    (htype : hdr.type = typePing ∨ hdr.type = typeGoAway) : hdr.type ≠ typeWindowUpdate := by
  rcases htype with htype | htype <;> rw [htype] <;> decide

/-- A SYN that opens a stream: it rides on a WINDOW_UPDATE or a DATA frame. -/
def Header.opensStream (hdr : Header) : Bool :=
  (hdr.type == typeWindowUpdate || hdr.type == typeData) && hdr.has flagSyn

theorem Header.opensStream_of_control {hdr : Header}
    (htype : hdr.type = typePing ∨ hdr.type = typeGoAway) : hdr.opensStream = false := by
  rcases htype with htype | htype <;> rw [Header.opensStream, htype] <;> rfl

end CLibp2p.Yamux
