import CLibp2p.Routing.Dht.Table

/-!
# Searches

The searches of `routing/dht.c`: the closest nodes that a search has heard of, the requests that it sends
to them, and the slots that searches are kept in.
-/

namespace CLibp2p.Routing.Dht

open Duplex Machine

/-- `struct search_node`, with as many bytes of the token as `token_len` says. -/
structure SearchNode where
  id : Hash
  ss : SockAddr
  requestTime : Int
  replyTime : Int
  pinged : Nat
  token : Bytes
  replied : Bool
  acked : Bool
deriving Repr, DecidableEq

def searchNodes : Nat := 14

/-- `struct search`, with as many of its nodes as `numnodes` says. -/
structure Search where
  tid : UInt16
  af : Family
  stepTime : Int
  id : Hash
  port : UInt16
  done : Bool
  nodes : List SearchNode
deriving Repr, DecidableEq

def dhtMaxSearches : Nat := 1024

def dhtSearchExpireTime : Int := 62 * 60

structure Searches where
  searches : List Search
  numsearches : Int
  searchId : UInt16
deriving Repr, DecidableEq

/-- A call of the callback. -/
structure Event where
  event : DhtEvent
  infoHash : Hash
  data : Bytes
deriving Repr, DecidableEq

namespace SearchNode

/-- The node that `memset` leaves, with its id. -/
def blank (id : Hash) (sa : SockAddr) : SearchNode where
  id := id
  ss := sa
  requestTime := 0
  replyTime := 0
  pinged := 0
  token := []
  replied := false
  acked := false

/-- The end of `insert_search_node`, from the label `found` on. -/
def found (n : SearchNode) (now : Int) (sa : SockAddr) (replied : Bool) (token : Option Bytes) : SearchNode :=
  let n := { n with ss := sa }
  let n := if replied then { n with replied := true, replyTime := now, requestTime := 0, pinged := 0 } else n
  match token with
  | none => n
  | some token => if token.length ≥ 40 then n else { n with token := token }

end SearchNode

namespace Search

/-- A search contains a list of nodes. We just got a new candidate, insert it at the right spot or discard
it. -/
def insertSearchNode (sr : Search) (now : Int) (id : Hash) (sa : SockAddr) (replied : Bool)
    (token : Option Bytes) : Search :=
  if sa.family ≠ sr.af then sr
  else
    let stop := sr.nodes.findIdx fun n => idCmp id n.id = .eq || xorcmp id n.id sr.id = .lt
    match sr.nodes[stop]? with
    | some n =>
        if idCmp id n.id = .eq then
          { sr with nodes := sr.nodes.set stop (n.found now sa replied token) }
        else
          let n := (SearchNode.blank id sa).found now sa replied token
          { sr with nodes := (sr.nodes.take stop ++ n :: sr.nodes.drop stop).take searchNodes }
    | none =>
        if stop = searchNodes then sr
        else { sr with nodes := sr.nodes ++ [(SearchNode.blank id sa).found now sa replied token] }

def flushSearchNode (sr : Search) (i : Nat) : Search := { sr with nodes := sr.nodes.eraseIdx i }

/-- Insert the contents of a bucket into a search structure. -/
def insertSearchBucket (sr : Search) (now : Int) (b : Bucket) : Search :=
  b.nodes.foldl (fun sr n => sr.insertSearchNode now n.id n.ss false none) sr

/-- Discard a node from a search in progress: every place is looked at once, also when what was there has
just been flushed. -/
def discard (id : Hash) (i : Nat) (sr : Search) : Search :=
  match h : sr.nodes[i]? with
  | none => sr
  | some n => if idCmp n.id id = .eq then discard id (i + 1) (sr.flushSearchNode i) else discard id (i + 1) sr
termination_by sr.nodes.length - i
decreasing_by
  · obtain ⟨hi, -⟩ := List.getElem?_eq_some_iff.mp h
    simp only [flushSearchNode, List.length_eraseIdx, hi, if_true]
    omega
  · obtain ⟨hi, -⟩ := List.getElem?_eq_some_iff.mp h
    omega

end Search

namespace Searches

/-- Where `find_search` finds a search. -/
def findSearch (s : Searches) (tid : UInt16) (af : Family) : Option Nat :=
  s.searches.findIdx? fun sr => sr.tid == tid && sr.af == af

def expireSearches (s : Searches) (now : Int) : Searches :=
  let searches := s.searches.filter fun sr => !(sr.stepTime < now - dhtSearchExpireTime)
  { s with
    searches := searches
    numsearches := s.numsearches - (s.searches.length - searches.length : Nat) }

/-- Find the oldest done search, from one place on. -/
def oldestFrom : (oldest : Option (Nat × Search)) → Nat → List Search → Option (Nat × Search)
  | oldest, _, [] => oldest
  | oldest, i, sr :: rest =>
      let older := match oldest with
        | none => true
        | some (_, old) => old.stepTime > sr.stepTime
      oldestFrom (if sr.done && older then some (i, sr) else oldest) (i + 1) rest

/-- A slot that `calloc` gives. -/
def emptySlot : Search where
  tid := 0
  af := .inet
  stepTime := 0
  id := zeroes
  port := 0
  done := false
  nodes := []

/-- `new_search`: the slot to use. -/
def newSearch (s : Searches) (now : Int) : Option (Searches × Nat) :=
  let oldest := oldestFrom none 0 s.searches
  match oldest with
  | some (i, old) =>
      if old.stepTime < now - dhtSearchExpireTime then some (s, i)
      else if s.numsearches < dhtMaxSearches then
        some ({ s with searches := emptySlot :: s.searches, numsearches := s.numsearches + 1 }, 0)
      else some (s, i)
  | none =>
      if s.numsearches < dhtMaxSearches then
        some ({ s with searches := emptySlot :: s.searches, numsearches := s.numsearches + 1 }, 0)
      else none

end Searches

/-! ### Requests -/

namespace Search

/-- A node that has not answered and may be asked again. -/
def askable (now : Int) (n : SearchNode) : Bool := n.pinged < 3 && !n.replied && n.requestTime < now - 15

/-- The node that `search_send_get_peers` takes for NULL: the last one that may be asked. -/
def lastAskable (sr : Search) (now : Int) : Option Nat :=
  sr.nodes.zipIdx.foldl (fun found p => if askable now p.1 then some p.2 else found) none

/-- `search_send_get_peers` for a node that it is given, and whether a request went out. -/
def sendGetPeersTo (sr : Search) (r : Tables) (i : Nat) : Search × Tables × Bool :=
  match sr.nodes[i]? with
  | none => (sr, r, false)
  | some n =>
      if !askable r.now n then (sr, r, false)
      else
        let r' : Tables := { r with toOutbound := r.sendGetPeers n.ss (makeTid "gp" sr.tid) sr.id (-1) }
        let n' := { n with pinged := n.pinged + 1, requestTime := r.now }
        ({ sr with nodes := sr.nodes.set i n' }, r'.pingedIfKnown n.id n.ss.family, true)

/-- `search_send_get_peers(sr, NULL)`. -/
def sendGetPeers (sr : Search) (r : Tables) : Search × Tables :=
  match sr.lastAskable r.now with
  | none => (sr, r)
  | some i =>
      let (sr, r, _) := sr.sendGetPeersTo r i
      (sr, r)

/-- Whether the first 8 live nodes have replied. -/
def allReplied : List SearchNode → Nat → Bool
  | [], _ => true
  | n :: rest, j =>
      if j ≥ 8 then true
      else if n.pinged ≥ 3 then allReplied rest j
      else if !n.replied then false
      else allReplied rest (j + 1)

/-- The loop that announces to the first 8 live nodes, and whether all of them have acknowledged it. -/
def announceLoop (sr : Search) : List SearchNode → Nat → Tables → List SearchNode × Tables × Bool
  | [], _, r => ([], r, true)
  | n :: rest, j, r =>
      if j ≥ 8 then (n :: rest, r, true)
      else if n.pinged ≥ 3 then
        let (rest, r, all) := announceLoop sr rest j r
        (n :: rest, r, all)
      else if n.token = [] || n.acked then
        let (rest, r, all) := announceLoop sr rest (j + 1) r
        ({ n with acked := true } :: rest, r, all)
      else
        let r' : Tables :=
          { r with toOutbound := r.sendAnnouncePeer n.ss storageSize (makeTid "ap" sr.tid) sr.id sr.port n.token }
        let n' := { n with pinged := n.pinged + 1, requestTime := r.now }
        let (rest, r, _) := announceLoop sr rest (j + 1) (r'.pingedIfKnown n.id n.ss.family)
        (n' :: rest, r, false)

/-- The loop that sends up to 3 requests. -/
def askLoop : (places : List Nat) → (j : Nat) → Search → Tables → Search × Tables
  | [], _, sr, r => (sr, r)
  | i :: places, j, sr, r =>
      let (sr, r, sent) := sr.sendGetPeersTo r i
      let j := if sent then j + 1 else j
      if j ≥ 3 then (sr, r) else askLoop places j sr r

/-- The label `done` of `search_step`. -/
def finish (sr : Search) (now : Int) (callback : Bool) : Search × List Event :=
  let event : DhtEvent := match sr.af with
    | .inet => .searchDone
    | .inet6 => .searchDone6
  ({ sr with done := true, stepTime := now },
    if callback then [{ event := event, infoHash := sr.id, data := [] }] else [])

/-- `search_step`, and the calls of the callback. -/
def searchStep (sr : Search) (r : Tables) (callback : Bool) : Search × Tables × List Event :=
  if allReplied sr.nodes 0 then
    if sr.port = 0 then
      let (sr, events) := sr.finish r.now callback
      (sr, r, events)
    else
      let (nodes, r', allAcked) := sr.announceLoop sr.nodes 0 r
      let sr := { sr with nodes := nodes }
      if allAcked then
        let (sr, events) := sr.finish r.now callback
        (sr, r', events)
      else ({ sr with stepTime := r.now }, r', [])
  else if sr.stepTime + 15 ≥ r.now then (sr, r, [])
  else
    let (sr, r) := askLoop (List.range sr.nodes.length) 0 sr r
    ({ sr with stepTime := r.now }, r, [])

/-- A doubtful node. -/
def doubtful (now : Int) (n : SearchNode) : Bool := n.pinged ≥ 3 || n.replyTime < now - 7200

def renew (n : SearchNode) : SearchNode :=
  { n with pinged := 0, token := [], replied := false, acked := false }

/-- The label `again` of `dht_search`: each doubtful node is flushed and the loop starts over. -/
def again (now : Int) (nodes : List SearchNode) : List SearchNode :=
  match h : nodes.findIdx? (doubtful now) with
  | none => nodes.map renew
  | some i => again now (((nodes.take i).map renew ++ nodes.drop i).eraseIdx i)
termination_by nodes.length
decreasing_by
  have hi : i < nodes.length := (List.findIdx?_eq_some_iff_getElem.mp h).1
  simp only [List.length_eraseIdx, List.length_append, List.length_map, List.length_take, List.length_drop]
  split
  · omega
  · omega

end Search

end CLibp2p.Routing.Dht
