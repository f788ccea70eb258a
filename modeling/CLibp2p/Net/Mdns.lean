import CLibp2p.Identify.Identify

/-!
# Announcements by multicast

`net/mdns.c`. A service announces its id and address in a packet of three lines, and hands what the
packets of others announce to its callback, which a service always has.
-/

namespace CLibp2p.Mdns

open Duplex

/-- A string in an array of `size` bytes. -/
abbrev CharArray (size : Nat) := { text : Bytes // 0 ∉ text ∧ text.length < size }

/-- `mdns_service_t`. -/
structure MdnsService where
  sockfd : Int
  port : UInt16
  peerId : CharArray 128
  multiaddr : CharArray 256
  running : Bool
deriving DecidableEq

def mdnsPort : UInt16 := 5353

def mdnsMaxPacketSize : Nat := 8966

/-- `snprintf` of a string, which is cut to fit. -/
def snprintfString (size : Nat) (hsize : 0 < size) (text : CString) : CharArray size :=
  ⟨text.val.take (size - 1), fun hzero => text.property (List.mem_of_mem_take hzero), by
    rw [List.length_take]
    omega⟩

/-- `mdns_service_new`. -/
def mdnsServiceNew (peerId multiaddr : Option CString) (cb : Bool) : Option MdnsService := do
  let peerId ← peerId
  let multiaddr ← multiaddr
  guard cb
  pure ⟨-1, mdnsPort, snprintfString 128 (by decide) peerId, snprintfString 256 (by decide) multiaddr, false⟩

def newline : UInt8 := 10

def mdnsPrefix : Bytes := "ipfs-mdns".toUTF8.toList ++ [newline]

/-- What `mdns_build_packet` writes to a buffer of this size, and what it returns. -/
def buildPacket (service : MdnsService) (maxLen : Nat) : Bytes × Nat :=
  if maxLen = 0 then ([], 0)
  else
    let text := mdnsPrefix ++ service.peerId ++ [newline] ++ service.multiaddr ++ [newline]
    (text.take (maxLen - 1) ++ [0], text.length)

/-- `strchr` with a character that is not the NUL: the distance to its first place. -/
def strchr (memory : Bytes) (c : UInt8) : Option Nat := (cString memory).findIdx? (· = c)

def strnlen (memory : Bytes) (maxlen : Nat) : Nat := (cString (memory.take maxlen)).length

/-- `mdns_handle_packet`: the calls of the callback. -/
def handlePacket (service : MdnsService) (packet : Bytes) (len : Int) : List (CString × CString) :=
  if len ≤ 0 then []
  else if len ≤ mdnsPrefix.length ∨ packet.take mdnsPrefix.length ≠ mdnsPrefix then []
  else
    let peer := packet.drop mdnsPrefix.length
    match strchr peer newline with
    | none => []
    | some peerLen =>
        if peerLen = 0 ∨ 128 ≤ peerLen then []
        else
          let peerId := stringAt (peer.take peerLen ++ [0])
          if peerId.val = service.peerId.val then []
          else
            let multiaddr := peer.drop (peerLen + 1)
            let addrLen := (strchr multiaddr newline).getD (strnlen multiaddr 255)
            if addrLen = 0 then []
            else
              let addrLen := if 256 ≤ addrLen then 255 else addrLen
              [(peerId, stringAt (multiaddr.take addrLen ++ [0]))]

/-- What `mdns_service_send_announcement` sends. -/
def sendAnnouncement (service : MdnsService) : Option Bytes :=
  if service.sockfd < 0 ∨ service.running = false then none
  else
    let (packet, packetLen) := buildPacket service mdnsMaxPacketSize
    if packetLen = 0 then none else some (packet.take packetLen)

/-- `mdns_service_poll`, where `datagram` has arrived, with the bytes that were in the buffer before: what
it returns, and the calls of the callback. -/
def poll (service : MdnsService) (datagram : Option Bytes) (uninitialized : Bytes) :
    Int × List (CString × CString) :=
  if service.sockfd < 0 ∨ service.running = false then (-1, [])
  else
    match datagram with
    | none => (0, [])
    | some datagram =>
        let received := datagram.take (mdnsMaxPacketSize - 1)
        if received.length = 0 then (0, [])
        else
          let buffer := received ++ 0 :: uninitialized.drop (received.length + 1)
          (1, handlePacket service buffer received.length)

end CLibp2p.Mdns
