import CLibp2p.Routing.Dht.Storage
import CLibp2p.Routing.Dht.Table

/-!
# Answers

What `routing/dht.c` answers to a request for nodes or peers: the good nodes closest to an id, in compact
form, and a slice of the peers that are stored.
-/

namespace CLibp2p.Routing.Dht

open Duplex Machine

/-- The buffer of the closest nodes has room for so many. -/
def closestRoom : Nat := 8

/-- `insert_closest_node`, on the nodes that the buffer has the ids and addresses of. -/
def insertClosestNode (id : Hash) (nodes : List Node) (n : Node) : List Node :=
  let stop := nodes.findIdx fun m => idCmp n.id m.id = .eq || xorcmp n.id m.id id = .lt
  match nodes[stop]? with
  | some m =>
      if idCmp n.id m.id = .eq then nodes
      else (nodes.take stop ++ n :: nodes.drop stop).take closestRoom
  | none => if stop = closestRoom then nodes else nodes ++ [n]

/-- A node in the buffer: 26 bytes of it with an IPv4 address, else 38. -/
def compact (n : Node) : Bytes := n.id.toList ++ n.ss.ip ++ netShort n.ss.port

/-- The loop that serves a slice of the peers, no more than 50 of them. -/
def slicePeers (len : Nat) : List Peer → Nat → List Piece
  | [], _ => []
  | p :: rest, k =>
      if k ≥ 50 then []
      else if p.ip.length = len then
        fmt "" (len + 2) ":" :: .raw p.ip :: .raw (netShort p.port) :: slicePeers len rest (k + 1)
      else slicePeers len rest k

namespace Tables

def bufferClosestNodes (r : Tables) (id : Hash) (nodes : List Node) (b : Bucket) : List Node :=
  (b.nodes.filter r.nodeGood).foldl (insertClosestNode id) nodes

/-- The buffer for the nodes of a family: from the bucket of the id, the next and the previous one. -/
def closestNodes (r : Tables) (id : Hash) (af : Family) : List Node :=
  match r.findBucket id af with
  | none => []
  | some c =>
      let nodes := r.bufferClosestNodes id [] c.here
      let nodes := match nextBucket c with
        | none => nodes
        | some next => r.bufferClosestNodes id nodes next.here
      match previousBucket c with
      | none => nodes
      | some previous => r.bufferClosestNodes id nodes previous.here

/-- What `send_nodes_peers` prints, with the number that `random` gives. -/
def nodesPeersPieces (o : Outbound) (random : Nat) (tid nodes nodes6 : Bytes) (af : Option Family)
    (st : Option Storage) (token : Bytes) : List Piece :=
  [lit "d1:rd2:id20:", .raw o.myid.toList] ++
    (if nodes.length > 0 then [fmt "5:nodes" nodes.length ":", .raw nodes] else []) ++
    (if nodes6.length > 0 then [fmt "6:nodes6" nodes6.length ":", .raw nodes6] else []) ++
    (if token.length > 0 then [fmt "5:token" token.length ":", .raw token] else []) ++
    (match st with
      | none => []
      | some st =>
          if st.peers.length > 0 then
            let len := if af = some .inet then 4 else 16
            let j0 := random % st.peers.length
            [lit "6:valuesl"] ++ slicePeers len (st.peers.drop j0 ++ st.peers.take j0) 0 ++ [lit "e"]
          else []) ++
    [fmt "e1:t" tid.length ":", .raw tid] ++ o.addV ++ [lit "1:y1:re"]

def sendNodesPeers (o : Outbound) (sa : SockAddr) (tid nodes nodes6 : Bytes) (af : Option Family)
    (st : Option Storage) (token : Bytes) : Outbound :=
  match st with
  | none => o.transmit 2048 sa (nodesPeersPieces o 0 tid nodes nodes6 af st token)
  | some st =>
      let (n, o) := if st.peers.length > 0 then o.draw else (0, o)
      o.transmit 2048 sa (nodesPeersPieces o n tid nodes nodes6 af (some st) token)

def sendClosestNodes (r : Tables) (sa : SockAddr) (tid : Bytes) (id : Hash) (want : Want)
    (af : Option Family) (st : Option Storage) (token : Bytes) : Outbound :=
  let want := if want < 0 then (match sa.family with | .inet => 1 | .inet6 => 2) else want
  let nodes := if want4 want then r.closestNodes id .inet else []
  let nodes6 := if want6 want then r.closestNodes id .inet6 else []
  sendNodesPeers r.toOutbound sa tid (nodes.flatMap compact) (nodes6.flatMap compact) af st token

end Tables

end CLibp2p.Routing.Dht
