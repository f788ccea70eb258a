import CLibp2p.Routing.Dht.Ids
import Mathlib.Data.Nat.Digits.Defs

/-!
# What the DHT sends

Addresses, the blacklist and the printers of messages in `routing/dht.c`. Every printer puts fixed text
and raw bytes behind one another in a buffer, and gives up where the buffer is full.
-/

namespace CLibp2p.Routing.Dht

open Duplex

inductive Family where
  | inet
  | inet6
deriving Repr, DecidableEq

/-- `struct sockaddr_in` and `struct sockaddr_in6`. The port is the number that its two bytes stand for. -/
inductive SockAddr where
  | inet (addr : Vector UInt8 4) (port : UInt16)
  | inet6 (addr : Vector UInt8 16) (port : UInt16) (flowinfo scopeId : UInt32)
deriving Repr, DecidableEq

/-- `htons`, as the two bytes that end up in memory. -/
def netShort (n : UInt16) : Bytes := [(n >>> 8).toUInt8, n.toUInt8]

/-- The two bytes of an `unsigned short` in memory on a little-endian machine. -/
def hostShort (n : UInt16) : Bytes := [n.toUInt8, (n >>> 8).toUInt8]

def hostLong (n : UInt32) : Bytes := [n.toUInt8, (n >>> 8).toUInt8, (n >>> 16).toUInt8, (n >>> 24).toUInt8]

/-- `sizeof(struct sockaddr_storage)`. -/
def storageSize : Nat := 128

namespace SockAddr

def family : SockAddr → Family
  | inet .. => .inet
  | inet6 .. => .inet6

/-- The bytes of the address, without the port. -/
def ip : SockAddr → Bytes
  | inet addr _ => addr.toList
  | inet6 addr .. => addr.toList

def port : SockAddr → UInt16
  | inet _ port => port
  | inet6 _ port .. => port

/-- The structure in memory, with `AF_INET` and `AF_INET6` as Linux has them. -/
def bytes : SockAddr → Bytes
  | inet addr port => hostShort 2 ++ netShort port ++ addr.toList ++ List.replicate 8 0
  | inet6 addr port flowinfo scopeId =>
      hostShort 10 ++ netShort port ++ hostLong flowinfo ++ addr.toList ++ hostLong scopeId

/-- `sizeof(struct sockaddr_in)` and `sizeof(struct sockaddr_in6)`. -/
def len : SockAddr → Nat
  | inet .. => 16
  | inet6 .. => 28

/-- The address in a `struct sockaddr_storage` that was zero before. -/
def storage (sa : SockAddr) : Bytes := sa.bytes ++ List.replicate (storageSize - sa.len) 0

end SockAddr

def v4prefixBytes : Bytes := List.replicate 10 0 ++ [0xff, 0xff] ++ List.replicate 4 0

def isMartian : SockAddr → Bool
  | .inet address port =>
      port == 0 || address[0] == 0 || address[0] == 127 || (address[0] &&& 0xe0) == 0xe0
  | .inet6 address port .. =>
      port == 0 || address[0] == 0xff || (address[0] == 0xfe && (address[1] &&& 0xc0) == 0x80) ||
        (memcmp (address.toList.take 15) (zeroes.toList.take 15) == .eq &&
          (address[15] == 0 || address[15] == 1)) ||
        memcmp (address.toList.take 12) (v4prefixBytes.take 12) == .eq

structure Datagram where
  dest : SockAddr
  bytes : Bytes
deriving Repr, DecidableEq

def dhtMaxBlacklisted : Nat := 10

/-- The array `blacklist`, each `struct sockaddr_storage` with its bytes. -/
abbrev Blacklist := Vector Bytes dhtMaxBlacklisted

/-- The static array before the first ban of the process. -/
def Blacklist.blank : Blacklist := Vector.replicate dhtMaxBlacklisted (List.replicate storageSize 0)

/-- The globals that sending looks at, what `random` still has to give and what was sent. The bytes of
`my_v` behind `1:v4:` are there when `have_v` is set, and a socket is there when it is not negative. -/
structure Outbound where
  myid : Hash
  myV : Option (Vector UInt8 4)
  dhtSocket : Bool
  dhtSocket6 : Bool
  blacklist : Blacklist
  nextBlacklisted : Nat
  random : Nat → Nat
  sent : List Datagram

/-- `dht_blacklisted` of `routing/kademlia.c`. -/
def dhtBlacklisted (_ : SockAddr) : Bool := false

namespace Outbound

/-- A call of `random`. -/
def draw (o : Outbound) : Nat × Outbound :=
  (o.random 0, { o with random := fun i => o.random (i + 1) })

/-- As many bytes as the caller says are compared. What is behind the address is zero. -/
def nodeBlacklisted (o : Outbound) (sa : SockAddr) (salen : Nat := sa.len) : Bool :=
  dhtBlacklisted sa || o.blacklist.toList.any fun slot => slot.take salen == sa.storage.take salen

/-- The end of `blacklist_node`. Behind the address the slot keeps its bytes. -/
def blacklistAddress (o : Outbound) (sa : SockAddr) : Outbound :=
  { o with
    blacklist := o.blacklist.setIfInBounds o.nextBlacklisted
      (sa.bytes ++ (o.blacklist[o.nextBlacklisted]?.getD []).drop sa.len)
    nextBlacklisted := (o.nextBlacklisted + 1) % dhtMaxBlacklisted }

def socket (o : Outbound) : Family → Bool
  | .inet => o.dhtSocket
  | .inet6 => o.dhtSocket6

def dhtSend (o : Outbound) (buf : Bytes) (sa : SockAddr) (salen : Nat := sa.len) : Outbound :=
  if o.nodeBlacklisted sa salen then o
  else if o.socket sa.family then { o with sent := o.sent ++ [⟨sa, buf⟩] }
  else o

end Outbound

/-! ### Printing -/

/-- A step of a printer: `snprintf` and `INC`, or `COPY`. -/
inductive Piece where
  | text (chars : Bytes)
  | raw (bytes : Bytes)
deriving Repr, DecidableEq

def Piece.bytes : Piece → Bytes
  | text chars => chars
  | raw bytes => bytes

/-- A text that ends where the buffer ends loses its last character to the terminator. -/
def Piece.put (size : Nat) (buf : Bytes) : Piece → Option Bytes
  | text chars =>
      if buf.length + chars.length > size then none
      else if buf.length + chars.length = size then some (buf ++ chars.set (chars.length - 1) 0)
      else some (buf ++ chars)
  | raw bytes => if buf.length + bytes.length > size then none else some (buf ++ bytes)

def printPieces (size : Nat) (pieces : List Piece) : Option Bytes := pieces.foldlM (Piece.put size) []

def ascii (text : String) : Bytes := text.toUTF8.toList

/-- `%d` of a number that is not negative, and `%u`. -/
def decimalText (n : Nat) : Bytes :=
  if n = 0 then ascii "0" else (Nat.digits 10 n).reverse.map fun digit => UInt8.ofNat (48 + digit)

def fmt (front : String) (n : Nat) (back : String) : Piece := .text (ascii front ++ decimalText n ++ ascii back)

def lit (text : String) : Piece := .text (ascii text)

/-- What a request wants, with `-1` for nothing said. -/
abbrev Want := Int

def want4 (want : Want) : Bool := want.toInt32 &&& 1 != 0

def want6 (want : Want) : Bool := want.toInt32 &&& 2 != 0

namespace Outbound

def addV (o : Outbound) : List Piece :=
  match o.myV with
  | none => []
  | some v => [.raw (ascii "1:v4:" ++ v.toList)]

/-- `4:wantl%s%se`, which only goes out if something is wanted. -/
def addWant (want : Want) : List Piece :=
  if want > 0 then
    [.text (ascii "4:wantl" ++ (if want4 want then ascii "2:n4" else []) ++
      (if want6 want then ascii "2:n6" else []) ++ ascii "e")]
  else []

/-- What every printer does with its buffer in the end. -/
def transmit (o : Outbound) (size : Nat) (sa : SockAddr) (pieces : List Piece) (salen : Nat := sa.len) : Outbound :=
  match printPieces size pieces with
  | none => o
  | some buf => o.dhtSend buf sa salen

def pingPieces (o : Outbound) (tid : Bytes) : List Piece :=
  [lit "d1:ad2:id20:", .raw o.myid.toList, fmt "e1:q4:ping1:t" tid.length ":", .raw tid] ++ o.addV ++
    [lit "1:y1:qe"]

def sendPing (o : Outbound) (sa : SockAddr) (tid : Bytes) : Outbound := o.transmit 512 sa (o.pingPieces tid)

def pongPieces (o : Outbound) (tid : Bytes) : List Piece :=
  [lit "d1:rd2:id20:", .raw o.myid.toList, fmt "e1:t" tid.length ":", .raw tid] ++ o.addV ++
    [lit "1:y1:re"]

def sendPong (o : Outbound) (sa : SockAddr) (tid : Bytes) : Outbound := o.transmit 512 sa (o.pongPieces tid)

def findNodePieces (o : Outbound) (tid : Bytes) (target : Hash) (want : Want) : List Piece :=
  [lit "d1:ad2:id20:", .raw o.myid.toList, lit "6:target20:", .raw target.toList] ++ addWant want ++
    [fmt "e1:q9:find_node1:t" tid.length ":", .raw tid] ++ o.addV ++ [lit "1:y1:qe"]

def sendFindNode (o : Outbound) (sa : SockAddr) (tid : Bytes) (target : Hash) (want : Want) : Outbound :=
  o.transmit 512 sa (o.findNodePieces tid target want)

def getPeersPieces (o : Outbound) (tid : Bytes) (infohash : Hash) (want : Want) : List Piece :=
  [lit "d1:ad2:id20:", .raw o.myid.toList, lit "9:info_hash20:", .raw infohash.toList] ++ addWant want ++
    [fmt "e1:q9:get_peers1:t" tid.length ":", .raw tid] ++ o.addV ++ [lit "1:y1:qe"]

def sendGetPeers (o : Outbound) (sa : SockAddr) (tid : Bytes) (infohash : Hash) (want : Want) : Outbound :=
  o.transmit 512 sa (o.getPeersPieces tid infohash want)

def announcePeerPieces (o : Outbound) (tid : Bytes) (infohash : Hash) (port : UInt16) (token : Bytes) :
    List Piece :=
  [lit "d1:ad2:id20:", .raw o.myid.toList, lit "9:info_hash20:", .raw infohash.toList,
    .text (ascii "4:porti" ++ decimalText port.toNat ++ ascii "e5:token" ++ decimalText token.length ++
      ascii ":"), .raw token, fmt "e1:q13:announce_peer1:t" tid.length ":", .raw tid] ++ o.addV ++
    [lit "1:y1:qe"]

def sendAnnouncePeer (o : Outbound) (sa : SockAddr) (salen : Nat) (tid : Bytes) (infohash : Hash) (port : UInt16)
    (token : Bytes) : Outbound :=
  o.transmit 512 sa (o.announcePeerPieces tid infohash port token) salen

def peerAnnouncedPieces (o : Outbound) (tid : Bytes) : List Piece :=
  [lit "d1:rd2:id20:", .raw o.myid.toList, fmt "e1:t" tid.length ":", .raw tid] ++ o.addV ++
    [lit "1:y1:re"]

def sendPeerAnnounced (o : Outbound) (sa : SockAddr) (tid : Bytes) : Outbound :=
  o.transmit 512 sa (o.peerAnnouncedPieces tid)

def errorPieces (o : Outbound) (tid : Bytes) (code : Nat) (message : Bytes) : List Piece :=
  [.text (ascii "d1:eli" ++ decimalText code ++ ascii "e" ++ decimalText message.length ++ ascii ":"),
    .raw message, fmt "e1:t" tid.length ":", .raw tid] ++ o.addV ++ [lit "1:y1:ee"]

def sendError (o : Outbound) (sa : SockAddr) (tid : Bytes) (code : Nat) (message : Bytes) : Outbound :=
  o.transmit 512 sa (o.errorPieces tid code message)

end Outbound

end CLibp2p.Routing.Dht
