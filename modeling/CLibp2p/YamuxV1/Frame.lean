import CLibp2p.Stream.Bytes

/-!
# The frame header of `yamux/frame.c`

`struct yamux_frame` is packed, so what reaches the wire is its image in the memory of the host that
wrote it. `encode_frame` and `decode_frame` convert between host and network order in place, and only
an encoded frame has an image that a peer of either byte order reads back.
-/

namespace CLibp2p.YamuxV1

open Duplex

/-- `enum eness` without `unk`: the order a host keeps the bytes of an integer in. -/
inductive Endian where
  | little
  | big
deriving Repr, DecidableEq

namespace Endian

def store16 : Endian → UInt16 → Bytes
  | little, x => (be16 x).reverse
  | big, x => be16 x

def store32 : Endian → UInt32 → Bytes
  | little, x => (be32 x).reverse
  | big, x => be32 x

def load16 : Endian → UInt8 → UInt8 → UInt16
  | little, b0, b1 => ofBe16 b1 b0
  | big, b0, b1 => ofBe16 b0 b1

def load32 : Endian → UInt8 → UInt8 → UInt8 → UInt8 → UInt32
  | little, b0, b1, b2, b3 => ofBe32 b3 b2 b1 b0
  | big, b0, b1, b2, b3 => ofBe32 b0 b1 b2 b3

end Endian

/-- The number whose bytes are those of `x` in the opposite order. -/
def swap16 (x : UInt16) : UInt16 := ofBe16 (UInt8.ofNat x.toNat) (UInt8.ofNat (x.toNat / 2 ^ 8))

def swap32 (x : UInt32) : UInt32 :=
  ofBe32 (UInt8.ofNat x.toNat) (UInt8.ofNat (x.toNat / 2 ^ 8)) (UInt8.ofNat (x.toNat / 2 ^ 16))
    (UInt8.ofNat (x.toNat / 2 ^ 24))

/-- `htons`, which is also `ntohs`. -/
def htons : Endian → UInt16 → UInt16
  | .little, x => swap16 x
  | .big, x => x

/-- `htonl`, which is also `ntohl`. -/
def htonl : Endian → UInt32 → UInt32
  | .little, x => swap32 x
  | .big, x => x

def yamuxVersion : UInt8 := 0

def frameData : UInt8 := 0
def frameWindowUpdate : UInt8 := 1
def framePing : UInt8 := 2
def frameGoAway : UInt8 := 3

def frameSyn : UInt16 := 1
def frameAck : UInt16 := 2
def frameFin : UInt16 := 4
def frameRst : UInt16 := 8

structure Frame where
  version : UInt8
  type : UInt8
  flags : UInt16
  streamid : UInt32
  length : UInt32
deriving Repr, DecidableEq

namespace Frame

/-- `f.flags & flag`, as a condition. -/
def has (f : Frame) (flag : UInt16) : Bool := f.flags &&& flag != 0

def size : Nat := 12

/-- The bytes of the structure in the memory of `host`. -/
def image (host : Endian) (f : Frame) : Bytes :=
  f.version :: f.type ::
    (host.store16 f.flags ++ host.store32 f.streamid ++ host.store32 f.length)

/-- The structure that `host` finds in these bytes. -/
def ofImage (host : Endian) : Bytes → Option Frame
  | [version, type, f0, f1, s0, s1, s2, s3, l0, l1, l2, l3] =>
      some ⟨version, type, host.load16 f0 f1, host.load32 s0 s1 s2 s3, host.load32 l0 l1 l2 l3⟩
  | _ => none

end Frame

def encodeFrame (host : Endian) (f : Frame) : Frame :=
  { f with
    flags := htons host f.flags
    streamid := htonl host f.streamid
    length := htonl host f.length }

def decodeFrame (host : Endian) (f : Frame) : Frame :=
  { f with
    flags := htons host f.flags
    streamid := htonl host f.streamid
    length := htonl host f.length }

/-- What a reader makes of the start of a message: it copies the header and decodes it. -/
def Frame.read (host : Endian) (incoming : Bytes) : Option Frame :=
  (ofImage host (incoming.take size)).map (decodeFrame host)

/-- The header with its integers in network order. -/
def Frame.network (f : Frame) : Bytes :=
  f.version :: f.type :: (be16 f.flags ++ be32 f.streamid ++ be32 f.length)

@[simp] theorem Frame.length_network (f : Frame) : f.network.length = Frame.size := rfl

@[simp] theorem Frame.length_image (host : Endian) (f : Frame) :
    (f.image host).length = Frame.size := by
  cases host <;> rfl

/-! ### Byte order -/

@[simp] theorem be16_swap16 (x : UInt16) : be16 (swap16 x) = (be16 x).reverse := be16_ofBe16 _ _

@[simp] theorem be32_swap32 (x : UInt32) : be32 (swap32 x) = (be32 x).reverse := be32_ofBe32 _ _ _ _

/-- Storing a converted integer leaves network order in memory, whatever the host. -/
theorem store16_htons (host : Endian) (x : UInt16) : host.store16 (htons host x) = be16 x := by
  cases host with
  | little => rw [Endian.store16, htons, be16_swap16, List.reverse_reverse]
  | big => rfl

theorem store32_htonl (host : Endian) (x : UInt32) : host.store32 (htonl host x) = be32 x := by
  cases host with
  | little => rw [Endian.store32, htonl, be32_swap32, List.reverse_reverse]
  | big => rfl

/-- Loading an integer and converting it reads it in network order, whatever the host. -/
theorem htons_load16 (host : Endian) (b0 b1 : UInt8) :
    htons host (host.load16 b0 b1) = ofBe16 b0 b1 := by
  cases host with
  | little =>
      have hbytes := be16_ofBe16 b1 b0
      simp only [be16, List.cons.injEq, and_true] at hbytes
      rw [Endian.load16, htons, swap16, hbytes.1, hbytes.2]
  | big => rfl

theorem htonl_load32 (host : Endian) (b0 b1 b2 b3 : UInt8) :
    htonl host (host.load32 b0 b1 b2 b3) = ofBe32 b0 b1 b2 b3 := by
  cases host with
  | little =>
      have hbytes := be32_ofBe32 b3 b2 b1 b0
      simp only [be32, List.cons.injEq, and_true] at hbytes
      rw [Endian.load32, htonl, swap32, hbytes.1, hbytes.2.1, hbytes.2.2.1, hbytes.2.2.2]
  | big => rfl

/-! ### Headers on the wire -/

theorem Frame.image_encodeFrame (host : Endian) (f : Frame) :
    (encodeFrame host f).image host = f.network := by
  simp only [image, encodeFrame, store16_htons, store32_htonl, network]

theorem Frame.image_big (f : Frame) : f.image .big = f.network := rfl

theorem Frame.read_network_append (host : Endian) (f : Frame) (rest : Bytes) :
    Frame.read host (f.network ++ rest) = some f := by
  have htake : (f.network ++ rest).take size = f.network := List.take_left' f.length_network
  rw [read, htake]
  simp only [network, be16, be32, List.cons_append, List.nil_append, ofImage, Option.map_some,
    decodeFrame, htons_load16, htonl_load32, ofBe16_be16, ofBe32_be32]

theorem Frame.read_network (host : Endian) (f : Frame) : Frame.read host f.network = some f := by
  simpa using Frame.read_network_append host f []

/-- A little-endian header that skipped `encode_frame` reaches the reader with its fields swapped. -/
theorem Frame.read_image_little (reader : Endian) (f : Frame) :
    Frame.read reader (f.image .little) =
      some { f with flags := swap16 f.flags, streamid := swap32 f.streamid,
                    length := swap32 f.length } := by
  have hnetwork : f.image .little =
      Frame.network { f with flags := swap16 f.flags, streamid := swap32 f.streamid,
                             length := swap32 f.length } := by
    simp only [image, network, Endian.store16, Endian.store32, be16_swap16, be32_swap32]
  rw [hnetwork, read_network]

theorem Frame.read_of_short {host : Endian} {incoming : Bytes}
    (hshort : incoming.length < Frame.size) : Frame.read host incoming = none := by
  have hlength : (incoming.take size).length < 12 := by
    rw [List.length_take]
    exact lt_of_le_of_lt (Nat.min_le_right _ _) hshort
  rw [read, Option.map_eq_none_iff]
  unfold ofImage
  split
  · rename_i heq
    rw [heq] at hlength
    exact absurd hlength (Nat.lt_irrefl 12)
  · rfl

theorem Frame.size_le_of_read {host : Endian} {incoming : Bytes} {f : Frame}
    (hread : Frame.read host incoming = some f) : Frame.size ≤ incoming.length := by
  by_contra hshort
  rw [Frame.read_of_short (not_le.mp hshort)] at hread
  cases hread

end CLibp2p.YamuxV1
