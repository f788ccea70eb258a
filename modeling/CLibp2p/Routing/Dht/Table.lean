import CLibp2p.Routing.Dht.Outbound

/-!
# The routing table

The buckets of nodes in `routing/dht.c`, one table for each address family: how a node comes in, how a full
bucket splits, and how nodes that do not answer leave. A pointer to a bucket is a place in the list.
-/

namespace CLibp2p.Routing.Dht

open Duplex Machine

structure Node where
  id : Hash
  ss : SockAddr
  time : Int
  replyTime : Int
  pingedTime : Int
  pinged : Nat
deriving Repr, DecidableEq

/-- `struct bucket`. There is no cached address where its family is 0. -/
structure Bucket where
  af : Family
  first : Hash
  count : Int
  time : Int
  nodes : List Node
  cached : Option SockAddr
deriving Repr, DecidableEq

structure Tables extends Outbound where
  now : Int
  buckets : List Bucket
  buckets6 : List Bucket
  mybucketGrowTime : Int
  mybucket6GrowTime : Int
  expireStuffTime : Int

def makeTid (kind : String) (seqno : UInt16) : Bytes := ascii kind ++ hostShort seqno

/-! ### Buckets -/

def findBucketFrom (id : Hash) : List Bucket → List Bucket → Option (Cursor Bucket)
  | _, [] => none
  | before, [b] => some ⟨before, b, []⟩
  | before, b :: next :: rest =>
      if idCmp id next.first = .lt then some ⟨before, b, next :: rest⟩
      else findBucketFrom id (before ++ [b]) (next :: rest)

def nextFirst (c : Cursor Bucket) : Option Hash := c.after.head?.map Bucket.first

def inBucket (id : Hash) (c : Cursor Bucket) : Bool :=
  idCmp c.here.first id != .gt &&
    match nextFirst c with
    | none => true
    | some next => idCmp id next == .lt

def nextBucket (c : Cursor Bucket) : Option (Cursor Bucket) :=
  match c.after with
  | [] => none
  | next :: rest => some ⟨c.before ++ [c.here], next, rest⟩

def previousBucket (c : Cursor Bucket) : Option (Cursor Bucket) :=
  c.before.getLast?.map fun p => ⟨c.before.dropLast, p, c.here :: c.after⟩

namespace Bucket

def findIdx (b : Bucket) (id : Hash) : Option Nat := b.nodes.findIdx? fun n => idCmp n.id id = .eq

def modifyNode (b : Bucket) (i : Nat) (f : Node → Node) : Bucket := { b with nodes := b.nodes.modify i f }

def push (b : Bucket) (n : Node) : Bucket := { b with nodes := n :: b.nodes, count := b.count + 1 }

/-- The old bucket of a split, before the nodes are back. -/
def emptied (b : Bucket) : Bucket := { b with nodes := [], count := 0 }

/-- The new bucket of a split, before the nodes are back. -/
def behind (b : Bucket) (newId : Hash) : Bucket where
  af := b.af
  first := newId
  count := 0
  time := b.time
  nodes := []
  cached := none

end Bucket

def sendCachedPing (o : Outbound) (b : Bucket) : Outbound × Bucket :=
  match b.cached with
  | none => (o, b)
  | some sa => (o.sendPing sa (makeTid "pn" 0), { b with cached := none })

namespace Tables

def table (r : Tables) : Family → List Bucket
  | .inet => r.buckets
  | .inet6 => r.buckets6

def setTable (r : Tables) (af : Family) (buckets : List Bucket) : Tables :=
  match af with
  | .inet => { r with buckets := buckets }
  | .inet6 => { r with buckets6 := buckets }

/-- The bucket at a place is now this one. -/
def put (r : Tables) (af : Family) (c : Cursor Bucket) (b : Bucket) : Tables :=
  r.setTable af { c with here := b }.close

def findBucket (r : Tables) (id : Hash) (af : Family) : Option (Cursor Bucket) :=
  findBucketFrom id [] (r.table af)

/-- Where `find_node` finds a node: its bucket and its place there. -/
def findNode (r : Tables) (id : Hash) (af : Family) : Option (Cursor Bucket × Nat) := do
  let c ← r.findBucket id af
  let i ← c.here.findIdx id
  return (c, i)

/-- This is our definition of a known-good node. -/
def nodeGood (r : Tables) (n : Node) : Bool :=
  n.pinged ≤ 2 && n.replyTime ≥ r.now - 7200 && n.time ≥ r.now - 900

def insertNode (r : Tables) (n : Node) : Tables :=
  match r.findBucket n.id n.ss.family with
  | none => r
  | some c => r.put n.ss.family c (c.here.push n)

/-- `send_cached_ping`, on the bucket at a place. -/
def sendCachedPingAt (r : Tables) (af : Family) (c : Cursor Bucket) : Tables :=
  let (o, b) := sendCachedPing r.toOutbound c.here
  { r with toOutbound := o }.put af c b

def countPing (r : Tables) (n : Node) : Node := { n with pinged := n.pinged + 1, pingedTime := r.now }

/-- `pinged`, for the node at a place in a bucket. The bucket to look at is this one or, as for NULL, the
one where the node belongs. -/
def pinged (r : Tables) (af : Family) (c : Cursor Bucket) (i : Nat) (given : Bool) : Tables :=
  let b := c.here.modifyNode i r.countPing
  let r' := r.put af c b
  match b.nodes[i]? with
  | none => r'
  | some n =>
      if n.pinged < 3 then r'
      else if given then r'.sendCachedPingAt af { c with here := b }
      else
        match r'.findBucket n.id n.ss.family with
        | none => r'
        | some c' => r'.sendCachedPingAt n.ss.family c'

/-- `node = find_node(id, af); if(node) pinged(node, NULL);` -/
def pingedIfKnown (r : Tables) (id : Hash) (af : Family) : Tables :=
  match r.findNode id af with
  | none => r
  | some (c, i) => r.pinged af c i false

/-- The second half of `split_bucket`: a new bucket behind this one, and every node back in. -/
def redistribute (r : Tables) (af : Family) (c : Cursor Bucket) (newId : Hash) : Tables :=
  c.here.nodes.foldl insertNode
    (r.setTable af (c.before ++ c.here.emptied :: c.here.behind newId :: c.after))

/-- `split_bucket`, which does nothing where there is no middle. -/
def splitBucket (r : Tables) (af : Family) (c : Cursor Bucket) : Tables :=
  match bucketMiddle c.here.first (nextFirst c) with
  | none => r
  | some newId =>
      let (o, b) := sendCachedPing r.toOutbound c.here
      { r with toOutbound := o }.redistribute af { c with here := b } newId

/-! ### A node that we just learnt about -/

/-- A known node: update stuff. -/
def known (r : Tables) (sa : SockAddr) (confirm : Nat) (n : Node) : Node :=
  if confirm ≠ 0 ∨ n.time < r.now - 15 * 60 then
    let n := { n with ss := sa, time := if confirm ≠ 0 then r.now else n.time }
    if confirm ≥ 2 then { n with replyTime := r.now, pinged := 0, pingedTime := 0 } else n
  else n

def fresh (r : Tables) (id : Hash) (sa : SockAddr) (confirm : Nat) : Node where
  id := id
  ss := sa
  time := if confirm ≠ 0 then r.now else 0
  replyTime := if confirm ≥ 2 then r.now else 0
  pingedTime := 0
  pinged := 0

def knownBad (r : Tables) (n : Node) : Bool := n.pinged ≥ 3 && n.pingedTime < r.now - 15

def grow (r : Tables) (af : Family) : Tables :=
  match af with
  | .inet => { r with mybucketGrowTime := r.now }
  | .inet6 => { r with mybucket6GrowTime := r.now }

/-- Pick the first dubious node that we haven't pinged in the last 15 seconds. -/
def pingDubious (r : Tables) (b : Bucket) : Outbound × Bucket :=
  match b.nodes.findIdx? fun n => !r.nodeGood n && n.pingedTime < r.now - 15 with
  | none => (r.toOutbound, b)
  | some i =>
      match b.nodes[i]? with
      | none => (r.toOutbound, b)
      | some n => (r.sendPing n.ss (makeTid "pn" 0), b.modifyNode i r.countPing)

/-- How a call of `new_node` goes on: it returns, or it calls itself again. -/
inductive Turn where
  | done (r : Tables) (node : Option Node)
  | again (r : Tables)

/-- Bucket full. -/
def fullBucket (r : Tables) (sa : SockAddr) (confirm : Nat) (c : Cursor Bucket) (mybucket : Bool) : Turn :=
  let af := sa.family
  let dubious := c.here.nodes.any fun n => !r.nodeGood n
  let (o, b) := r.pingDubious c.here
  let r' := { r with toOutbound := o }
  if mybucket && (!dubious || (r.table c.here.af).length == 1) then
    .again ((r'.put af c b).splitBucket af { c with here := b })
  else
    let b := if confirm ≠ 0 ∨ b.cached = none then { b with cached := some sa } else b
    .done (r'.put af c b) none

/-- A new node, in the bucket at a place. -/
def unknownNode (r : Tables) (id : Hash) (sa : SockAddr) (confirm : Nat) (c : Cursor Bucket)
    (mybucket : Bool) : Turn :=
  let af := sa.family
  match c.here.nodes.findIdx? r.knownBad with
  | some i => .done (r.put af c (c.here.modifyNode i fun _ => r.fresh id sa confirm))
      (some (r.fresh id sa confirm))
  | none =>
      if c.here.count ≥ 8 then r.fullBucket sa confirm c mybucket
      else .done (r.put af c (c.here.push (r.fresh id sa confirm))) (some (r.fresh id sa confirm))

/-- One call of `new_node`, up to where it calls itself. -/
def newNodeTurn (r : Tables) (id : Hash) (sa : SockAddr) (confirm : Nat) : Turn :=
  let af := sa.family
  match r.findBucket id af with
  | none => .done r none
  | some c =>
      if idCmp id r.myid = .eq then .done r none
      else if isMartian sa || r.nodeBlacklisted sa then .done r none
      else
        let mybucket := inBucket r.myid c
        let b := { c.here with time := if confirm = 2 then r.now else c.here.time }
        let r := r.put af c b
        let c := { c with here := b }
        match b.findIdx id with
        | some i =>
            let b := b.modifyNode i (r.known sa confirm)
            .done (r.put af c b) b.nodes[i]?
        | none => (if mybucket then r.grow af else r).unknownNode id sa confirm c mybucket

/-- `new_node`, as far as so many calls of itself go. -/
def newNodeLoop (id : Hash) (sa : SockAddr) (confirm : Nat) : Nat → Tables → Option (Tables × Option Node)
  | 0, _ => none
  | fuel + 1, r =>
      match r.newNodeTurn id sa confirm with
      | .done r node => some (r, node)
      | .again r => newNodeLoop id sa confirm fuel r

/-- `new_node`. An id has 160 bits, and what is not back after as many splits never is. -/
def newNode (r : Tables) (id : Hash) (sa : SockAddr) (confirm : Nat) : Option (Tables × Option Node) :=
  newNodeLoop id sa confirm 161 r

/-! ### Known-bad nodes -/

def dead (n : Node) : Bool := n.pinged ≥ 4

/-- The walk over the nodes behind one that stays. -/
def unlinkDead : List Node → List Node
  | [] => []
  | p :: rest => p :: unlinkDead (rest.dropWhile dead)
termination_by nodes => nodes.length
decreasing_by exact Nat.lt_succ_of_le (List.dropWhile_sublist dead).length_le

def expireBucket (o : Outbound) (b : Bucket) : Outbound × Bucket :=
  let nodes := unlinkDead (b.nodes.dropWhile dead)
  let removed := b.nodes.length - nodes.length
  let b' := { b with nodes := nodes, count := b.count - removed }
  if removed ≠ 0 then sendCachedPing o b' else (o, b')

def expireFrom (o : Outbound) : List Bucket → Outbound × List Bucket
  | [] => (o, [])
  | b :: rest =>
      let (o, b') := expireBucket o b
      let (o, rest') := expireFrom o rest
      (o, b' :: rest')

def expireBuckets (r : Tables) (af : Family) : Tables :=
  let (o, buckets) := expireFrom r.toOutbound (r.table af)
  let (n, o) := o.draw
  { { r with toOutbound := o }.setTable af buckets with expireStuffTime := r.now + 120 + (n % 240 : Nat) }

end Tables

end CLibp2p.Routing.Dht
