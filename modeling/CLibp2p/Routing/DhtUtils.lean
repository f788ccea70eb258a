import CLibp2p.Peer.PeerEntries

/-!
# The closest peers

`routing/dht_utils.c`: the peers of the peerstore whose hashed ids have the smallest distance from a key.
-/

namespace CLibp2p.Routing

open Duplex Peer

def dhtIdSize : Nat := 20

/-- `libp2p_routing_dht_hash_peer_id`. -/
def hashPeerId (sha256 : Bytes → Bytes) (peerId : Bytes) : Bytes := (sha256 peerId).take dhtIdSize

/-- `libp2p_routing_dht_xor_distance`. -/
def xorDistance (a b : Bytes) : Bytes := List.zipWith (· ^^^ ·) a b

/-- `libp2p_routing_dht_distance_cmp`, as far as its sign goes: the first distance is the smaller one. -/
def distanceLt : Bytes → Bytes → Bool
  | x :: d1, y :: d2 => if x ≠ y then decide (x < y) else distanceLt d1 d2
  | _, _ => false

/-- The loop over `closest` for one peer. Places that are still free have the greatest distance. -/
def insertClosest (numResults : Nat) (distance : Bytes) (peer : Libp2pPeer)
    (closest : List (Bytes × Libp2pPeer)) : List (Bytes × Libp2pPeer) :=
  match closest.findIdx? fun entry => distanceLt distance entry.1 with
  | some i => (closest.insertIdx i (distance, peer)).take numResults
  | none =>
      if closest.length < numResults && distanceLt distance (List.replicate dhtIdSize 0xff) then
        closest ++ [(distance, peer)]
      else closest

/-- `libp2p_routing_dht_find_closest_peers`. -/
def findClosestPeers (sha256 : Bytes → Bytes) (peerstore : PeerEntries) (targetKey : Bytes)
    (numResults : Nat) : List Libp2pPeer :=
  let targetHash := hashPeerId sha256 targetKey
  let closest := peerstore.nodes.foldl (fun closest peer =>
    if peer.isLocal then closest
    else insertClosest numResults (xorDistance targetHash (hashPeerId sha256 peer.id)) peer closest) []
  closest.map Prod.snd

end CLibp2p.Routing
