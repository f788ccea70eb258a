import CLibp2p.Proof.DhtPeriodic

/-!
# The routing table over whole runs

What holds of the tables in every state that calls of the library lead to.
-/

namespace CLibp2p.Routing.Dht

open Duplex Machine Dyadic

namespace Tables

variable {r : Tables} {af : Family} {c : Cursor Bucket} {id : Hash} {lo hi : Nat}

theorem nodup_of_tiled {myid : Hash} {buckets : List Bucket} (htiled : Tiled (BucketOk myid af) lo hi buckets) :
    ((nodesOf buckets).map Node.id).Nodup ∧ ∀ n ∈ nodesOf buckets, lo ≤ value n.id ∧ value n.id < hi := by
  induction buckets generalizing lo with
  | nil => exact ⟨List.nodup_nil, List.forall_mem_nil _⟩
  | cons b rest ih =>
      obtain ⟨mid, hb, hrest⟩ := htiled
      obtain ⟨hnodup, hrange⟩ := ih hrest
      have hlt : lo < mid := hb.bounds.2
      have hle : mid ≤ hi := (tiled_bounds hrest).le fun _ _ _ h => h
      rw [nodesOf_cons, List.map_append]
      refine ⟨hb.nodup.append hnodup ?_, List.forall_mem_append.mpr ⟨fun n hn => ?_, fun n hn => ?_⟩⟩
      · rw [List.disjoint_left]
        intro id hid hid'
        obtain ⟨n, hn, rfl⟩ := List.mem_map.mp hid
        obtain ⟨m, hm, heq⟩ := List.mem_map.mp hid'
        have hlow := (hb.range n hn).2
        have hhigh := (hrange m hm).1
        rw [heq] at hhigh
        omega
      · have hn' := hb.range n hn
        omega
      · have hn' := hrange n hn
        omega

theorem Ok.nodup_ids (hr : r.Ok) (af : Family) : (r.ids af).Nodup := by
  rcases hr af with hnone | htiled
  · rw [ids, nodes, hnone]
    exact List.nodup_nil
  · exact (nodup_of_tiled htiled).1

/-- Every node is found again by its id. -/
theorem Ok.findNode_of_mem (hr : r.Ok) {n : Node} (hn : n ∈ r.nodes af) :
    NodeOk r.myid af n ∧ ∃ c i, r.findNode n.id af = some (c, i) ∧ c.here.nodes[i]? = some n := by
  cases hfind : r.findBucket n.id af with
  | none =>
      rw [nodes, findBucket_none hfind] at hn
      cases hn
  | some c =>
      obtain ⟨lo, hi, hat, hkey⟩ := findBucket_some hr hfind
      have hmem : n ∈ c.here.nodes := hat.mem_here hkey hn rfl
      refine ⟨hat.here.nodes n hmem, ?_⟩
      cases hidx : c.here.findIdx n.id with
      | none => exact absurd (List.mem_map_of_mem hmem) (findIdx_none hidx)
      | some i =>
          obtain ⟨m, hget, hid⟩ := findIdx_some hidx
          have hsame : m = n := List.inj_on_of_nodup_map hat.here.nodup (List.mem_of_getElem? hget) hmem hid
          refine ⟨c, i, ?_, hsame ▸ hget⟩
          rw [findNode, hfind, Option.bind_eq_bind, Option.bind_some, hidx]
          rfl

end Tables

namespace Globals

variable {sha256 : Bytes → Bytes} {s : Globals} {af : Family} {c : Cursor Bucket}

/-- What `dht_init` gives with both sockets. -/
theorem exists_start (id : Hash) :
    ∃ s, dhtInit .blank true true id none 0 (fun _ => 0) (fun _ => some (Vector.replicate 8 7)) = some s ∧ s.myid = id ∧
      (∀ af, s.table af ≠ []) ∧ s.lookups = { searches := [], numsearches := 0, searchId := 0 } ∧
      s.secrets.secret = Vector.replicate 8 7 := by
  have hr := ok_initTables .blank true true id none 0 fun _ => 0
  have hexpired := (Tables.expireBuckets_spec hr .inet).1
  refine ⟨_, rfl, (hexpired.trans (Tables.expireBuckets_spec hexpired.ok .inet6).1).sends.myid, ?_, rfl, rfl⟩
  intro af
  cases af with
  | inet => exact List.cons_ne_nil _ _
  | inet6 => exact List.cons_ne_nil _ _

theorem reachable_calls {s' : Globals} {cs : List Call} (hs : Reachable sha256 s)
    (hrun : s.calls sha256 cs = some s') : Reachable sha256 s' :=
  attempts_induction (motive := fun _ s' => Reachable sha256 s') hs
    (fun _ _ c _ _ hs₁ hcall => hs₁.call c hcall) cs s' hrun

def repeated (byte : UInt8) : Hash := Vector.replicate 20 byte

/-- Nine nodes, the last of which splits the bucket. -/
def joins : List Call :=
  [1, 2, 3, 4, 5, 6, 7, 8, 129].map fun k => .insertNode (repeated k) (.inet #v[10, 0, 0, k] 6881)

def populating : Option Globals :=
  (dhtInit .blank true true zeroes none 0 (fun _ => 0) fun _ => some (Vector.replicate 8 7)).bind fun s =>
    s.calls (fun bytes => bytes) joins

theorem populating_isSome : populating.isSome = true := by decide +kernel

def populated : Globals := populating.get populating_isSome

theorem reachable_populated : Reachable (fun bytes => bytes) populated := by
  obtain ⟨s, hinit, hrun⟩ := Option.bind_eq_some_iff.mp (Option.some_get populating_isSome).symm
  exact reachable_calls (Reachable.init _ _ _ _ _ _ _ _ hinit) hrun

/-- **The buckets part the ids**: the bucket that `find_bucket` finds is the one that `in_bucket` accepts, and
there is one as soon as there are buckets. -/
theorem findBucket_eq_iff (hs : Reachable sha256 s) (af : Family) (id : Hash) :
    (s.table af ≠ [] → ∃ c, s.findBucket id af = some c) ∧
      ∀ c : Cursor Bucket, s.findBucket id af = some c ↔ c.close = s.table af ∧ inBucket id c = true := by
  have hr := (ok_of_reachable hs).tables
  refine ⟨fun hsome => ?_, fun c => ⟨fun hfind => ?_, fun ⟨hclose, hin⟩ => ?_⟩⟩
  · exact Option.ne_none_iff_exists'.mp (mt Tables.findBucket_none hsome)
  · obtain ⟨lo, hi, hat, hkey⟩ := Tables.findBucket_some hr hfind
    exact ⟨hat.close, hat.inBucket_iff.mpr hkey⟩
  · obtain ⟨lo, hi, hat⟩ := Tables.at_of_close hr hclose
    exact hat.findBucket (hat.inBucket_iff.mp hin)

/-- The second of two buckets. -/
theorem findBucket_eq_iff_split : ∃ c, populated.findBucket (repeated 200) .inet = some c ∧
    c.close = populated.table .inet ∧ inBucket (repeated 200) c = true ∧
    c.here.nodes.map Node.id = [repeated 129] := by
  have hids : (populated.findBucket (repeated 200) .inet).map (fun c => c.here.nodes.map Node.id) =
      some [repeated 129] := by
    decide +kernel
  obtain ⟨c, hfind, hhere⟩ := Option.map_eq_some_iff.mp hids
  obtain ⟨hclose, hin⟩ := ((findBucket_eq_iff reachable_populated .inet (repeated 200)).2 c).mp hfind
  exact ⟨c, hfind, hclose, hin, hhere⟩

/-- **A table has each node once, where it is looked for.** -/
theorem nodes_found (hs : Reachable sha256 s) (af : Family) :
    (s.ids af).Nodup ∧
      (∀ b ∈ s.table af, b.af = af ∧ b.count = b.nodes.length ∧ b.nodes.length ≤ 8) ∧
      ∀ n ∈ s.nodes af, n.id ≠ s.myid ∧ n.ss.family = af ∧ isMartian n.ss = false ∧
        ∃ c i, s.findNode n.id af = some (c, i) ∧ c.here.nodes[i]? = some n := by
  have hr := (ok_of_reachable hs).tables
  refine ⟨hr.nodup_ids af, fun b hb => ?_, fun n hn => ?_⟩
  · obtain ⟨front, rest, hsplit⟩ := List.append_of_mem hb
    have hclose : (Cursor.mk front b rest).close = s.table af := hsplit.symm
    obtain ⟨lo, hi, hat⟩ := Tables.at_of_close hr hclose
    exact ⟨hat.here.family, hat.here.counted, hat.here.room⟩
  · obtain ⟨hnode, hfound⟩ := hr.findNode_of_mem hn
    exact ⟨hnode.other, hnode.family, hnode.reach, hfound⟩

theorem nodes_found_split : (populated.ids .inet).Nodup ∧ (populated.ids .inet).length = 9 ∧
    ∃ n ∈ populated.nodes .inet, n.id = repeated 129 ∧
      ∃ c i, populated.findNode (repeated 129) .inet = some (c, i) ∧ c.here.nodes[i]? = some n := by
  obtain ⟨hnodup, -, hfound⟩ := nodes_found reachable_populated .inet
  have hmem : repeated 129 ∈ populated.ids .inet := by decide +kernel
  obtain ⟨n, hn, hid⟩ := List.mem_map.mp hmem
  refine ⟨hnodup, by decide +kernel, n, hn, hid, ?_⟩
  rw [← hid]
  exact (hfound n hn).2.2.2

/-- **Every call comes back.** -/
theorem call_returns (hs : Reachable sha256 s) (c : Call) : ∃ s', s.call sha256 c = some s' := by
  obtain ⟨s', hcall, -⟩ := @called_call _ sha256 (ok_of_reachable hs) c
  exact ⟨s', hcall⟩

theorem call_returns_insert : ∃ s', populated.call (fun bytes => bytes)
    (.insertNode (repeated 130) (.inet #v[10, 0, 0, 130] 6881)) = some s' :=
  call_returns reachable_populated _

/-- **What a call of `new_node` does to the nodes.** -/
theorem newNode_changes (hs : Reachable sha256 s) (id : Hash) (sa : SockAddr) (confirm : Nat) :
    ∃ r node, s.toTables.newNode id sa confirm = some (r, node) ∧
      Tables.IdChange s.toTables id (s.nodes sa.family) (r.nodes sa.family) ∧
      (∀ n, node = some n → n.id = id ∧ n ∈ r.nodes sa.family) ∧
      (node = none → (r.ids sa.family).Perm (s.ids sa.family)) ∧
      ∀ af, af ≠ sa.family → r.table af = s.table af := by
  obtain ⟨r, node, hnew, hdone⟩ := Tables.newNode_done (ok_of_reachable hs).tables id sa confirm
  exact ⟨r, node, hnew, hdone.change, hdone.some, hdone.none, hdone.within.other⟩

/-- A tenth node. -/
theorem newNode_changes_tenth : ∃ r node,
    populated.toTables.newNode (repeated 130) (.inet #v[10, 0, 0, 130] 6881) 2 = some (r, node) ∧
      (∃ n ∈ r.nodes .inet, n.id = repeated 130) ∧ r.table .inet6 = populated.table .inet6 := by
  obtain ⟨r, node, hnew, -, hnode, -, hother⟩ :=
    newNode_changes reachable_populated (repeated 130) (.inet #v[10, 0, 0, 130] 6881) 2
  have hsome : (populated.toTables.newNode (repeated 130) (.inet #v[10, 0, 0, 130] 6881) 2).map
      (fun made => made.2.isSome) = some true := by
    decide +kernel
  rw [hnew] at hsome
  obtain ⟨n, hn⟩ := Option.isSome_iff_exists.mp (Option.some.inj hsome)
  obtain ⟨hid, hmem⟩ := hnode n hn
  exact ⟨r, node, hnew, ⟨n, hmem, hid⟩, hother .inet6 (by decide)⟩

/-- **The ids that `bucket_random` draws for a bucket are those that the bucket is for.** -/
theorem bucketRandom_range (hs : Reachable sha256 s) (hclose : c.close = s.table af) (id : Hash) :
    (∃ random, bucketRandom c.here.first (nextFirst c) random = id) ↔ inBucket id c = true := by
  obtain ⟨lo, hi, hat⟩ := Tables.at_of_close (ok_of_reachable hs).tables hclose
  obtain ⟨depth, hblock⟩ := hat.here.block
  have hblock' : Block 160 depth (value c.here.first) (endOf (nextFirst c)) := by
    rwa [hat.endOf, hat.here.first]
  rw [inBucket_iff]
  constructor
  · rintro ⟨random, rfl⟩
    exact bucketRandom_mem hblock' random
  · intro hid
    exact ⟨_, bucketRandom_surjective hblock' hid⟩

/-- In the second of two buckets. -/
theorem bucketRandom_range_split : ∃ c random, populated.findBucket (repeated 200) .inet = some c ∧
    c.before.length = 1 ∧ bucketRandom c.here.first (nextFirst c) random = repeated 255 := by
  have hsplit : (populated.findBucket (repeated 200) .inet).map
      (fun c => (c.before.length, inBucket (repeated 255) c)) = some (1, true) := by
    decide +kernel
  obtain ⟨c, hfind, hc⟩ := Option.map_eq_some_iff.mp hsplit
  obtain ⟨lo, hi, hat, -⟩ := Tables.findBucket_some (ok_of_reachable reachable_populated).tables hfind
  obtain ⟨hbefore, hin⟩ := Prod.ext_iff.mp hc
  obtain ⟨random, hrandom⟩ := (bucketRandom_range reachable_populated hat.close (repeated 255)).mpr hin
  exact ⟨c, random, hfind, hbefore, hrandom⟩

end Globals

end CLibp2p.Routing.Dht
