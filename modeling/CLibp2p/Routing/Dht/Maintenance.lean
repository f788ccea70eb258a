import CLibp2p.Routing.Dht.Table

/-!
# Maintenance

The requests that `routing/dht.c` sends on its own to keep its buckets fresh.
-/

namespace CLibp2p.Routing.Dht

open Duplex Machine

namespace Tables

def draw (r : Tables) : Nat × Tables :=
  let (n, o) := r.toOutbound.draw
  (n, { r with toOutbound := o })

/-- Whether `(random() & 7) == 0`. -/
def oneInEight (r : Tables) : Bool × Tables :=
  let (n, r) := r.draw
  (n % 8 = 0, r)

/-- `random_node`: the place of the node in the bucket. -/
def randomNode (r : Tables) (b : Bucket) : Option Nat × Tables :=
  if b.count = 0 then (none, r)
  else
    let (n, r) := r.draw
    let nn := (n % b.count : Int).toNat
    (if nn < b.nodes.length then some nn else none, r)

/-- `bucket_random` for the bucket at a place. -/
def bucketRandomAt (r : Tables) (c : Cursor Bucket) : Hash × Tables :=
  let bit := splitBit c.here.first (nextFirst c)
  let calls := if bit ≥ 160 then 0 else 20 - bit / 8
  (bucketRandom c.here.first (nextFirst c) fun i => UInt8.ofNat (r.random i),
    { r with random := fun i => r.random (i + calls) })

/-- If the bucket is empty, we try to fill it from a neighbour. We also sometimes do it gratuitously. -/
def orNext (r : Tables) (c : Cursor Bucket) : Cursor Bucket × Tables :=
  match nextBucket c with
  | none => (c, r)
  | some next =>
      if c.here.count = 0 then (next, r)
      else if r.oneInEight.1 then (next, r.oneInEight.2)
      else (c, r.oneInEight.2)

def orPrevious (r : Tables) (c q : Cursor Bucket) : Cursor Bucket × Tables :=
  let (look, r) := if q.here.count = 0 then (true, r) else r.oneInEight
  match previousBucket c with
  | none => (q, r)
  | some p => if look ∧ p.here.count > 0 then (p, r) else (q, r)

/-- The bucket to ask a node of, where the one at hand is that at a place. -/
def neighbour (r : Tables) (c : Cursor Bucket) : Cursor Bucket × Tables :=
  let (q, r) := r.orNext c
  r.orPrevious c q

/-- The request to a node of a bucket. -/
def askNode (r : Tables) (af : Family) (q : Cursor Bucket) (i : Nat) (id : Hash) (want : Want) : Tables :=
  match q.here.nodes[i]? with
  | none => r
  | some n =>
      let r : Tables := { r with toOutbound := r.sendFindNode n.ss (makeTid "fn" 0) id want }
      r.pinged af q i true

def bothSockets (r : Tables) : Bool := r.dhtSocket && r.dhtSocket6

def neighbourhoodMaintenance (r : Tables) (af : Family) : Tables × Bool :=
  match r.findBucket r.myid af with
  | none => (r, false)
  | some c =>
      let (n, r) := r.draw
      let id := setByte r.myid 19 (UInt8.ofNat n)
      let (q, r) := r.neighbour c
      let want := if r.bothSockets then 3 else -1
      match r.randomNode q.here with
      | (none, r) => (r, true)
      | (some i, r) => (r.askNode af q i id want, true)

def otherFamily : Family → Family
  | .inet => .inet6
  | .inet6 => .inet

/-- The variable `want` of `bucket_maintenance`. -/
def wantBoth (r : Tables) (af : Family) (id : Hash) : Want × Tables :=
  if r.bothSockets then
    if (r.findBucket id (otherFamily af)).any fun other => other.here.count < 8 then (3, r)
    else
      let (n, r) := r.draw
      (if n % 37 = 0 then 3 else -1, r)
  else (-1, r)

/-- The loop of `bucket_maintenance`, from a bucket on. -/
def maintenanceFrom (af : Family) (before : List Bucket) : List Bucket → Tables → Tables × Bool
  | [], r => (r, false)
  | b :: rest, r =>
      if b.time < r.now - 600 then
        let c : Cursor Bucket := ⟨before, b, rest⟩
        let (id, r) := r.bucketRandomAt c
        let (q, r) := r.neighbour c
        match r.randomNode q.here with
        | (none, r) => maintenanceFrom af (before ++ [b]) rest r
        | (some i, r) =>
            let (want, r) := r.wantBoth af id
            (r.askNode af q i id want, true)
      else maintenanceFrom af (before ++ [b]) rest r

def bucketMaintenance (r : Tables) (af : Family) : Tables × Bool := maintenanceFrom af [] (r.table af) r

end Tables

end CLibp2p.Routing.Dht
