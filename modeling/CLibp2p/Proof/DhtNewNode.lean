import CLibp2p.Proof.DhtSplit

/-!
# A node that we just learnt about

Every call of `new_node` on a table that is a tiling comes back, after at most as many splits as an id has
bits, and leaves a tiling. It takes at most one id in, and lets one go only for a node that did not answer.
-/

namespace CLibp2p.Routing.Dht

open Duplex Machine Dyadic

variable {myid : Hash} {af : Family} {b : Bucket} {lo hi : Nat}

/-! ### Changes of a bucket -/

theorem mem_modify {α : Type} {f : α → α} {l : List α} {i : Nat} {a : α} (ha : a ∈ l.modify i f) :
    a ∈ l ∨ ∃ x ∈ l, a = f x := by
  obtain ⟨j, hj, rfl⟩ := List.mem_iff_getElem.mp ha
  rw [List.length_modify] at hj
  rw [List.getElem_modify]
  by_cases hij : i = j
  · rw [if_pos hij]
    exact Or.inr ⟨l[j], List.getElem_mem hj, rfl⟩
  · rw [if_neg hij]
    exact Or.inl (List.getElem_mem hj)

theorem map_modify_of_eq {α β : Type} {f : α → α} {g : α → β} (hfg : ∀ a, g (f a) = g a) (l : List α)
    (i : Nat) : (l.modify i f).map g = l.map g := by
  apply List.ext_getElem
  · rw [List.length_map, List.length_map, List.length_modify]
  · intro j hj hj'
    rw [List.getElem_map, List.getElem_map, List.getElem_modify]
    by_cases hij : i = j
    · rw [if_pos hij, hfg]
    · rw [if_neg hij]

theorem BucketOk.modifyNode (hok : BucketOk myid af b lo hi) {f : Node → Node} (hid : ∀ n, (f n).id = n.id)
    (hf : ∀ n, NodeOk myid af n → NodeOk myid af (f n)) (i : Nat) :
    BucketOk myid af (b.modifyNode i f) lo hi := by
  refine { hok with counted := ?_, room := ?_, nodup := ?_, range := ?_, nodes := ?_ }
  · rw [Bucket.modifyNode, List.length_modify]
    exact hok.counted
  · rw [Bucket.modifyNode, List.length_modify]
    exact hok.room
  · rw [Bucket.modifyNode, map_modify_of_eq hid]
    exact hok.nodup
  · intro n hn
    rcases mem_modify hn with hold | ⟨m, hm, rfl⟩
    · exact hok.range n hold
    · rw [hid]
      exact hok.range m hm
  · intro n hn
    rcases mem_modify hn with hold | ⟨m, hm, rfl⟩
    · exact hok.nodes n hold
    · exact hf m (hok.nodes m hm)

theorem BucketOk.replaceNode (hok : BucketOk myid af b lo hi) {n : Node} (hn : NodeOk myid af n)
    (hrange : lo ≤ value n.id ∧ value n.id < hi) (hnew : n.id ∉ b.nodes.map Node.id) (i : Nat) :
    BucketOk myid af (b.modifyNode i fun _ => n) lo hi := by
  have hset : (b.nodes.modify i fun _ => n).map Node.id = (b.nodes.map Node.id).modify i fun _ => n.id := by
    apply List.ext_getElem
    · rw [List.length_map, List.length_modify, List.length_modify, List.length_map]
    · intro j hj hj'
      rw [List.getElem_map, List.getElem_modify, List.getElem_modify, List.getElem_map]
      split
      · rfl
      · rfl
  refine { hok with counted := ?_, room := ?_, nodup := ?_, range := ?_, nodes := ?_ }
  · rw [Bucket.modifyNode, List.length_modify]
    exact hok.counted
  · rw [Bucket.modifyNode, List.length_modify]
    exact hok.room
  · have hmodify : ((b.nodes.map Node.id).modify i fun _ => n.id) = (b.nodes.map Node.id).set i n.id := by
      rw [List.modify_eq_set_getElem?]
      cases hget : (b.nodes.map Node.id)[i]? with
      | none => exact (List.set_eq_of_length_le (List.getElem?_eq_none_iff.mp hget)).symm
      | some old => rfl
    rw [Bucket.modifyNode, hset, hmodify]
    exact hok.nodup.set hnew
  · intro m hm
    rcases mem_modify hm with hold | ⟨-, -, rfl⟩
    · exact hok.range m hold
    · exact hrange
  · intro m hm
    rcases mem_modify hm with hold | ⟨-, -, rfl⟩
    · exact hok.nodes m hold
    · exact hn

theorem BucketOk.push (hok : BucketOk myid af b lo hi) {n : Node} (hn : NodeOk myid af n)
    (hrange : lo ≤ value n.id ∧ value n.id < hi) (hnew : n.id ∉ b.nodes.map Node.id)
    (hroom : ¬b.count ≥ 8) : BucketOk myid af (b.push n) lo hi := by
  have hcounted : b.count = b.nodes.length := hok.counted
  have hlength : (b.push n).nodes.length = b.nodes.length + 1 := rfl
  refine { hok with counted := ?_, room := ?_, nodup := ?_, range := ?_, nodes := ?_ }
  · rw [hlength, Bucket.push, hcounted, Nat.cast_add, Nat.cast_one]
  · rw [hlength]
    omega
  · exact List.nodup_cons.mpr ⟨hnew, hok.nodup⟩
  · exact List.forall_mem_cons.mpr ⟨hrange, hok.range⟩
  · exact List.forall_mem_cons.mpr ⟨hn, hok.nodes⟩

theorem BucketOk.setTime (hok : BucketOk myid af b lo hi) (time : Int) :
    BucketOk myid af { b with time := time } lo hi := { hok with }

theorem BucketOk.setCached (hok : BucketOk myid af b lo hi) {cached : Option SockAddr}
    (hcached : ∀ sa, cached = some sa → sa.family = af ∧ isMartian sa = false) :
    BucketOk myid af { b with cached := cached } lo hi := { hok with cached := hcached }

theorem BucketOk.clearCached (hok : BucketOk myid af b lo hi) :
    BucketOk myid af { b with cached := none } lo hi := by
  apply hok.setCached
  intro sa hsome
  cases hsome

namespace Tables

variable {r r' : Tables} {c : Cursor Bucket} {id : Hash} {sa : SockAddr} {confirm : Nat}

/-! ### All nodes of a table -/

def nodesOf (buckets : List Bucket) : List Node := buckets.flatMap Bucket.nodes

def nodes (r : Tables) (af : Family) : List Node := nodesOf (r.table af)

def ids (r : Tables) (af : Family) : List Hash := (r.nodes af).map Node.id

theorem nodesOf_append (front rest : List Bucket) : nodesOf (front ++ rest) = nodesOf front ++ nodesOf rest :=
  List.flatMap_append

theorem nodesOf_cons (b : Bucket) (rest : List Bucket) : nodesOf (b :: rest) = b.nodes ++ nodesOf rest :=
  List.flatMap_cons

theorem nodesOf_close (c : Cursor Bucket) :
    nodesOf c.close = nodesOf c.before ++ (c.here.nodes ++ nodesOf c.after) := by
  rw [Cursor.close, nodesOf_append, nodesOf_cons]

theorem At.nodes (hat : r.At af c lo hi) :
    r.nodes af = nodesOf c.before ++ (c.here.nodes ++ nodesOf c.after) := by
  rw [Tables.nodes, ← hat.close, nodesOf_close]

theorem At.mem_nodes (hat : r.At af c lo hi) {n : Node} (hn : n ∈ c.here.nodes) : n ∈ r.nodes af := by
  rw [hat.nodes]
  exact List.mem_append_right _ (List.mem_append_left _ hn)

theorem nodes_put (r : Tables) (af : Family) (c : Cursor Bucket) (b : Bucket) :
    (r.put af c b).nodes af = nodesOf c.before ++ (b.nodes ++ nodesOf c.after) := by
  rw [Tables.nodes, put, table_setTable, nodesOf_close]

/-- An id is in its bucket or nowhere. -/
theorem At.mem_here (hat : r.At af c lo hi) (hkey : lo ≤ value id ∧ value id < hi) {n : Node}
    (hn : n ∈ r.nodes af) (hid : n.id = id) : n ∈ c.here.nodes := by
  have hfits : ∀ b a z, BucketOk r.myid af b a z → value b.first = a ∧ a < z := fun b a z hok => hok.bounds
  rw [hat.nodes, List.mem_append, List.mem_append] at hn
  rcases hn with hbefore | hhere | hafter
  · obtain ⟨b, hb, hmem⟩ := List.mem_flatMap.mp hbefore
    obtain ⟨a, z, hok, -, hz⟩ := hat.before.exists_fits hfits hb
    have hrange := (hok.range n hmem).2
    rw [hid] at hrange
    omega
  · exact hhere
  · obtain ⟨b, hb, hmem⟩ := List.mem_flatMap.mp hafter
    obtain ⟨a, z, hok, ha, -⟩ := hat.after.exists_fits hfits hb
    have hrange := (hok.range n hmem).1
    rw [hid] at hrange
    omega

theorem At.not_mem_ids (hat : r.At af c lo hi) (hkey : lo ≤ value id ∧ value id < hi)
    (hnew : id ∉ c.here.nodes.map Node.id) : id ∉ r.ids af := by
  intro hmem
  obtain ⟨n, hn, hid⟩ := List.mem_map.mp hmem
  exact hnew (List.mem_map.mpr ⟨n, hat.mem_here hkey hn hid, hid⟩)

/-! ### A split -/

/-- The id has a bucket, and its block is at this depth. -/
def DepthAt (r : Tables) (af : Family) (id : Hash) (depth : Nat) : Prop :=
  ∃ c lo hi, r.At af c lo hi ∧ Block 160 depth lo hi ∧ lo ≤ value id ∧ value id < hi

/-- A split puts two halves in the place of a bucket. -/
structure SplitsTo (r r' : Tables) (af : Family) (c : Cursor Bucket) (lo mid hi depth : Nat)
    (lower upper : Bucket) : Prop where
  table : r'.table af = c.before ++ lower :: upper :: c.after
  lowerOk : BucketOk r.myid af lower lo mid
  upperOk : BucketOk r.myid af upper mid hi
  lowerBlock : Block 160 (depth + 1) lo mid
  upperBlock : Block 160 (depth + 1) mid hi
  perm : (lower.nodes ++ upper.nodes).Perm c.here.nodes
  within : Within af r r'

theorem splitBucket_spec {depth : Nat} (hat : r.At af c lo hi) (hblock : Block 160 depth lo hi)
    (hdepth : depth < 160) :
    ∃ mid lower upper, SplitsTo r (r.splitBucket af c) af c lo mid hi depth lower upper := by
  have hblock' : Block 160 depth (value c.here.first) (endOf (nextFirst c)) := by
    rwa [hat.endOf, hat.here.first]
  obtain ⟨newId, hmiddle, hvalue⟩ := bucketMiddle_eq hblock' hdepth
  rw [hat.here.first] at hvalue
  have hlower : Block 160 (depth + 1) lo (value newId) := hvalue ▸ hblock.lower hdepth
  have hupper : Block 160 (depth + 1) (value newId) hi := hvalue ▸ hblock.upper hdepth
  have hsends : Sends r.toOutbound (sendCachedPing r.toOutbound c.here).1 := sends_sendCachedPing _ _
  have hbucket : BucketOk r.myid af (sendCachedPing r.toOutbound c.here).2 lo hi := by
    rw [sendCachedPing_bucket]
    exact hat.here.clearCached
  have hnodes : (sendCachedPing r.toOutbound c.here).2.nodes = c.here.nodes := by
    rw [sendCachedPing_bucket]
  have hsplit : r.splitBucket af c =
      ({ r with toOutbound := (sendCachedPing r.toOutbound c.here).1 } : Tables).redistribute af
        { c with here := (sendCachedPing r.toOutbound c.here).2 } newId := by
    rw [splitBucket, hmiddle]
  rw [redistribute_eq (tiled_bounds hat.before) (tiled_bounds hat.after) hbucket.first hlower.lo_lt_hi
    hupper.lo_lt_hi fun n hn => ⟨(hbucket.nodes n hn).family, hbucket.range n hn⟩] at hsplit
  refine ⟨value newId, lowerHalf (sendCachedPing r.toOutbound c.here).2 (value newId),
    upperHalf (sendCachedPing r.toOutbound c.here).2 newId, ?_, ?_, ?_, hlower, hupper, ?_, ?_⟩
  · rw [hsplit, table_setTable]
  · exact lowerHalf_ok hbucket hlower
  · exact upperHalf_ok hbucket hupper
  · rw [← hnodes]
    exact halves_perm _ newId
  · rw [hsplit]
    exact (within_toOutbound hsends af).trans (within_setTable _ af _)

namespace SplitsTo

variable {mid depth : Nat} {lower upper : Bucket}

theorem tableOk (h : SplitsTo r r' af c lo mid hi depth lower upper) (hat : r.At af c lo hi) :
    TableOk r.myid af (r'.table af) := by
  rw [h.table]
  exact Or.inr (tiled_append.mpr ⟨lo, hat.before, mid, h.lowerOk, hi, h.upperOk, hat.after⟩)

theorem nodes_perm (h : SplitsTo r r' af c lo mid hi depth lower upper) (hat : r.At af c lo hi) :
    (r'.nodes af).Perm (r.nodes af) := by
  rw [hat.nodes, Tables.nodes, h.table, nodesOf_append, nodesOf_cons, nodesOf_cons, ← List.append_assoc]
  rw [← List.append_assoc (nodesOf c.before), List.append_assoc]
  rw [List.append_assoc]
  apply List.Perm.append_left
  rw [← List.append_assoc]
  exact h.perm.append_right _

theorem depthAt (h : SplitsTo r r' af c lo mid hi depth lower upper) (hat : r.At af c lo hi)
    (hkey : lo ≤ value id ∧ value id < hi) : DepthAt r' af id (depth + 1) := by
  have hmyid : r'.myid = r.myid := h.within.myid
  by_cases hlow : value id < mid
  · refine ⟨⟨c.before, lower, upper :: c.after⟩, lo, mid, ⟨h.table.symm, ?_, ?_, ?_⟩, h.lowerBlock,
      hkey.1, hlow⟩
    all_goals rw [hmyid]
    · exact hat.before
    · exact h.lowerOk
    · exact ⟨hi, h.upperOk, hat.after⟩
  · refine ⟨⟨c.before ++ [lower], upper, c.after⟩, mid, hi, ⟨?_, ?_, ?_, ?_⟩, h.upperBlock,
      not_lt.mp hlow, hkey.2⟩
    · rw [h.table, Cursor.close, List.append_assoc, List.singleton_append]
    all_goals rw [hmyid]
    · exact tiled_append.mpr ⟨lo, hat.before, mid, h.lowerOk, rfl⟩
    · exact h.upperOk
    · exact hat.after

end SplitsTo

/-! ### One turn -/

/-- What a call may do to the ids of a table: nothing, one more, or one in the place of a node that does
not answer. -/
inductive IdChange (r : Tables) (id : Hash) (nodes nodes' : List Node) : Prop
  | kept (hperm : (nodes'.map Node.id).Perm (nodes.map Node.id))
  | added (hnew : id ∉ nodes.map Node.id) (hperm : (nodes'.map Node.id).Perm (id :: nodes.map Node.id))
  | replaced (bad : Node) (hmem : bad ∈ nodes) (hbad : r.knownBad bad = true) (hnew : id ∉ nodes.map Node.id)
      (hperm : (nodes'.map Node.id).Perm (id :: (nodes.map Node.id).erase bad.id))

/-- The nodes are those of before, and those that do not answer among them are as before. -/
structure Carry (r r' : Tables) (af : Family) : Prop where
  within : Within af r r'
  ids : (r'.ids af).Perm (r.ids af)
  bad : ∀ n ∈ r'.nodes af, r.knownBad n = true → n ∈ r.nodes af

/-- A turn that ends with a call of itself: the bucket of the id is half as large. -/
structure Again (r r' : Tables) (af : Family) (id : Hash) : Prop extends Carry r r' af where
  ok : r'.Ok
  deeper : ∀ depth, r.DepthAt af id depth → depth < 160 ∧ r'.DepthAt af id (depth + 1)

structure Done (r r' : Tables) (af : Family) (id : Hash) (node : Option Node) : Prop where
  within : Within af r r'
  ok : r'.Ok
  change : IdChange r id (r.nodes af) (r'.nodes af)
  some : ∀ n, node = some n → n.id = id ∧ n ∈ r'.nodes af
  none : node = none → (r'.ids af).Perm (r.ids af)

def Turn.Good (r : Tables) (af : Family) (id : Hash) : Turn → Prop
  | .done r' node => Done r r' af id node
  | .again r' => Again r r' af id

/-- The tables only get other times and pings. -/
structure Same (r r' : Tables) (af : Family) (id : Hash) : Prop extends Carry r r' af where
  depth : ∀ depth, r.DepthAt af id depth → r'.DepthAt af id depth

theorem knownBad_eq (h : r'.now = r.now) (n : Node) : r'.knownBad n = r.knownBad n := by
  rw [knownBad, knownBad, h]

theorem Carry.trans {r'' : Tables} (h : Carry r r' af) (h' : Carry r' r'' af) : Carry r r'' af := by
  refine ⟨h.within.trans h'.within, h'.ids.trans h.ids, fun n hn hbad => ?_⟩
  have hmem : n ∈ r'.nodes af := h'.bad n hn ((knownBad_eq h.within.now n).trans hbad)
  exact h.bad n hmem hbad

theorem Done.carry {r'' : Tables} {node : Option Node} (h : Carry r r' af) (h' : Done r' r'' af id node) :
    Done r r'' af id node := by
  have hids : ((r'.nodes af).map Node.id).Perm ((r.nodes af).map Node.id) := h.ids
  refine ⟨h.within.trans h'.within, h'.ok, ?_, h'.some, fun hnone => (h'.none hnone).trans h.ids⟩
  rcases h'.change with hperm | ⟨hnew, hperm⟩ | ⟨bad, hmem, hbad, hnew, hperm⟩
  · exact IdChange.kept (hperm.trans hids)
  · exact IdChange.added (mt hids.mem_iff.mpr hnew) (hperm.trans (hids.cons id))
  · rw [knownBad_eq h.within.now] at hbad
    apply IdChange.replaced bad (h.bad bad hmem hbad) hbad (mt hids.mem_iff.mpr hnew)
    exact hperm.trans ((hids.erase bad.id).cons id)

theorem Same.good (h : Same r r' af id) {turn : Turn} (hgood : turn.Good r' af id) : turn.Good r af id := by
  cases turn with
  | again r'' =>
      exact ⟨h.toCarry.trans hgood.toCarry, hgood.ok, fun depth hdepth => hgood.deeper depth (h.depth depth hdepth)⟩
  | done r'' node => exact hgood.carry h.toCarry

theorem DepthAt.of_at {depth : Nat} (hdepth : r.DepthAt af id depth) (hat : r.At af c lo hi)
    (hkey : lo ≤ value id ∧ value id < hi) : Block 160 depth lo hi := by
  obtain ⟨d, lo', hi', hat', hblock, hkey'⟩ := hdepth
  have hfind : r.findBucket id af = Option.some c := hat.findBucket hkey
  obtain rfl : d = c := Option.some.inj ((hat'.findBucket hkey').symm.trans hfind)
  have hlo : lo' = lo := hat'.here.first.symm.trans hat.here.first
  have hhi : hi' = hi := hat'.endOf.symm.trans hat.endOf
  rwa [← hlo, ← hhi]

/-- The bucket of an id takes another time, other pings or another cached address. -/
theorem same_put (hat : r.At af c lo hi) (hkey : lo ≤ value id ∧ value id < hi) {b : Bucket}
    (hb : BucketOk r.myid af b lo hi) (hids : b.nodes.map Node.id = c.here.nodes.map Node.id)
    (hbad : ∀ n ∈ b.nodes, r.knownBad n = true → n ∈ c.here.nodes) : Same r (r.put af c b) af id := by
  refine ⟨⟨within_setTable r af _, ?_, fun n hn hn' => ?_⟩, fun depth hdepth => ?_⟩
  · rw [ids, ids, nodes_put, hat.nodes, List.map_append, List.map_append, List.map_append,
      List.map_append, hids]
  · rw [nodes_put, List.mem_append, List.mem_append] at hn
    rw [hat.nodes, List.mem_append, List.mem_append]
    rcases hn with hbefore | hhere | hafter
    · exact Or.inl hbefore
    · exact Or.inr (Or.inl (hbad n hhere hn'))
    · exact Or.inr (Or.inr hafter)
  · exact ⟨{ c with here := b }, lo, hi, hat.put hb, hdepth.of_at hat hkey, hkey⟩

theorem same_toOutbound {o : Outbound} (hsends : Sends r.toOutbound o) (af : Family) (id : Hash) :
    Same r { r with toOutbound := o } af id := by
  refine ⟨⟨within_toOutbound hsends af, ?_, fun n hn _ => ?_⟩, fun depth hdepth => ?_⟩
  · rw [ids, nodes, table_toOutbound, ids, nodes]
  · rwa [nodes, table_toOutbound] at hn
  · obtain ⟨c, lo, hi, hat, hblock, hkey⟩ := hdepth
    exact ⟨c, lo, hi, hat.congr (table_toOutbound r o af) hsends.myid, hblock, hkey⟩

theorem table_grow (r : Tables) (af af' : Family) : (r.grow af').table af = r.table af := by
  cases af' with
  | inet => cases af <;> rfl
  | inet6 => cases af <;> rfl

theorem toOutbound_grow (r : Tables) (af : Family) : (r.grow af).toOutbound = r.toOutbound := by
  cases af <;> rfl

theorem now_grow (r : Tables) (af : Family) : (r.grow af).now = r.now := by
  cases af <;> rfl

theorem within_grow (r : Tables) (af af' : Family) : Within af r (r.grow af') := by
  refine ⟨?_, now_grow r af', ?_, fun af _ => table_grow r af af'⟩
  · rw [toOutbound_grow]
    exact Sends.refl _
  · cases af' <;> rfl

theorem same_grow (r : Tables) (af af' : Family) (id : Hash) : Same r (r.grow af') af id := by
  refine ⟨⟨within_grow r af af', ?_, fun n hn _ => ?_⟩, fun depth hdepth => ?_⟩
  · rw [ids, nodes, table_grow, ids, nodes]
  · rwa [nodes, table_grow] at hn
  · obtain ⟨c, lo, hi, hat, hblock, hkey⟩ := hdepth
    exact ⟨c, lo, hi, hat.congr (table_grow r af af') (within_grow r af af').myid, hblock, hkey⟩

/-! ### The ways a turn ends -/

theorem known_id (r : Tables) (sa : SockAddr) (confirm : Nat) (n : Node) : (r.known sa confirm n).id = n.id := by
  rw [known]
  split
  · dsimp only
    split <;> rfl
  · rfl

theorem known_ok (hfamily : sa.family = af) (hreach : isMartian sa = false) {n : Node}
    (hn : NodeOk myid af n) : NodeOk myid af (r.known sa confirm n) := by
  rw [known]
  split
  · dsimp only
    split
    · exact ⟨hn.other, hfamily, hreach⟩
    · exact ⟨hn.other, hfamily, hreach⟩
  · exact hn

theorem fresh_ok (hself : id ≠ myid) (hfamily : sa.family = af) (hreach : isMartian sa = false) :
    NodeOk myid af (r.fresh id sa confirm) := ⟨hself, hfamily, hreach⟩

theorem findIdx_some {i : Nat} (hfind : b.findIdx id = some i) :
    ∃ n, b.nodes[i]? = some n ∧ n.id = id := by
  obtain ⟨hi, hid, -⟩ := List.findIdx?_eq_some_iff_getElem.mp hfind
  exact ⟨b.nodes[i], List.getElem?_eq_getElem hi, idCmp_eq_iff.mp (of_decide_eq_true hid)⟩

theorem findIdx_none (hfind : b.findIdx id = none) : id ∉ b.nodes.map Node.id := by
  intro hmem
  obtain ⟨n, hn, hid⟩ := List.mem_map.mp hmem
  have hnot : decide (idCmp n.id id = .eq) = false := List.findIdx?_eq_none_iff.mp hfind n hn
  exact of_decide_eq_false hnot (idCmp_eq_iff.mpr hid)

theorem done_known (hok : r.Ok) (hat : r.At af c lo hi) (hfamily : sa.family = af)
    (hreach : isMartian sa = false) {i : Nat} (hfind : c.here.findIdx id = some i) :
    Done r (r.put af c (c.here.modifyNode i (r.known sa confirm))) af id
      (c.here.modifyNode i (r.known sa confirm)).nodes[i]? := by
  have hb : BucketOk r.myid af (c.here.modifyNode i (r.known sa confirm)) lo hi :=
    hat.here.modifyNode (known_id r sa confirm) (fun n hn => known_ok hfamily hreach hn) i
  have hids : ((c.here.modifyNode i (r.known sa confirm)).nodes.map Node.id) = c.here.nodes.map Node.id :=
    map_modify_of_eq (known_id r sa confirm) _ i
  obtain ⟨n, hn, hid⟩ := findIdx_some hfind
  have hget : (c.here.modifyNode i (r.known sa confirm)).nodes[i]? = some (r.known sa confirm n) := by
    rw [Bucket.modifyNode, List.getElem?_modify_eq, hn]
    rfl
  have hperm : ((r.put af c (c.here.modifyNode i (r.known sa confirm))).ids af).Perm (r.ids af) := by
    rw [ids, ids, nodes_put, hat.nodes, List.map_append, List.map_append, List.map_append,
      List.map_append, hids]
  refine ⟨within_setTable r af _, hok.put hat hb, IdChange.kept hperm, fun m hm => ?_, fun _ => hperm⟩
  obtain rfl : r.known sa confirm n = m := Option.some.inj (hget.symm.trans hm)
  refine ⟨(known_id r sa confirm n).trans hid, ?_⟩
  exact (hat.put hb).mem_nodes (List.mem_of_getElem? hget)

theorem perm_erase_of_perm_cons {α : Type} [BEq α] [LawfulBEq α] {l m : List α} {a : α}
    (h : l.Perm (a :: m)) :
    (l.erase a).Perm m := by
  have herase := h.erase a
  rwa [List.erase_cons_head] at herase

/-- One node less and another one more, somewhere in a table. -/
theorem ids_replaced {before nodes nodes' after : List Node} {old : Node} {rest : List Hash}
    (hold : (nodes.map Node.id).Perm (old.id :: rest)) (hnew : (nodes'.map Node.id).Perm (id :: rest)) :
    ((before ++ (nodes' ++ after)).map Node.id).Perm
      (id :: ((before ++ (nodes ++ after)).map Node.id).erase old.id) := by
  have hmiddle : ∀ {x : Hash} {ns : List Node}, (ns.map Node.id).Perm (x :: rest) →
      ((before ++ (ns ++ after)).map Node.id).Perm
        (x :: (before.map Node.id ++ (rest ++ after.map Node.id))) := by
    intro x ns hns
    rw [List.map_append, List.map_append]
    exact ((hns.append_right _).append_left _).trans List.perm_middle
  exact (hmiddle hnew).trans ((perm_erase_of_perm_cons (hmiddle hold)).symm.cons id)

theorem done_replaced (hok : r.Ok) (hat : r.At af c lo hi) (hkey : lo ≤ value id ∧ value id < hi)
    (hself : id ≠ r.myid) (hfamily : sa.family = af) (hreach : isMartian sa = false)
    (hnew : id ∉ c.here.nodes.map Node.id) {i : Nat} (hfind : c.here.nodes.findIdx? r.knownBad = some i) :
    Done r (r.put af c (c.here.modifyNode i fun _ => r.fresh id sa confirm)) af id
      (some (r.fresh id sa confirm)) := by
  have hfresh : NodeOk r.myid af (r.fresh id sa confirm) := fresh_ok hself hfamily hreach
  have hb : BucketOk r.myid af (c.here.modifyNode i fun _ => r.fresh id sa confirm) lo hi :=
    hat.here.replaceNode hfresh hkey hnew i
  obtain ⟨hlt, hbad, -⟩ := List.findIdx?_eq_some_iff_getElem.mp hfind
  have hset : (c.here.modifyNode i fun _ => r.fresh id sa confirm).nodes =
      c.here.nodes.set i (r.fresh id sa confirm) := by
    rw [Bucket.modifyNode, List.modify_eq_set_getElem?, List.getElem?_eq_getElem hlt]
    rfl
  have hold : (c.here.nodes.map Node.id).Perm (c.here.nodes[i].id :: (c.here.nodes.eraseIdx i).map Node.id) :=
    (List.getElem_cons_eraseIdx_perm hlt).symm.map Node.id
  have hnew' : ((c.here.modifyNode i fun _ => r.fresh id sa confirm).nodes.map Node.id).Perm
      (id :: (c.here.nodes.eraseIdx i).map Node.id) := by
    rw [hset]
    exact (List.set_perm_cons_eraseIdx hlt _).map Node.id
  refine ⟨within_setTable r af _, hok.put hat hb, ?_, fun n hn => ?_, fun hnone => ?_⟩
  · apply IdChange.replaced c.here.nodes[i] (hat.mem_nodes (List.getElem_mem hlt)) hbad
      (hat.not_mem_ids hkey hnew)
    rw [nodes_put, hat.nodes]
    exact ids_replaced hold hnew'
  · obtain rfl : r.fresh id sa confirm = n := Option.some.inj hn
    refine ⟨rfl, (hat.put hb).mem_nodes ?_⟩
    have hlt' : i < (c.here.nodes.set i (r.fresh id sa confirm)).length := by rwa [List.length_set]
    have hget : (c.here.nodes.set i (r.fresh id sa confirm))[i] = r.fresh id sa confirm :=
      List.getElem_set_self hlt'
    rw [hset]
    exact List.mem_iff_getElem.mpr ⟨i, hlt', hget⟩
  · cases hnone

theorem done_pushed (hok : r.Ok) (hat : r.At af c lo hi) (hkey : lo ≤ value id ∧ value id < hi)
    (hself : id ≠ r.myid) (hfamily : sa.family = af) (hreach : isMartian sa = false)
    (hnew : id ∉ c.here.nodes.map Node.id) (hroom : ¬c.here.count ≥ 8) :
    Done r (r.put af c (c.here.push (r.fresh id sa confirm))) af id (some (r.fresh id sa confirm)) := by
  have hfresh : NodeOk r.myid af (r.fresh id sa confirm) := fresh_ok hself hfamily hreach
  have hb : BucketOk r.myid af (c.here.push (r.fresh id sa confirm)) lo hi :=
    hat.here.push hfresh hkey hnew hroom
  refine ⟨within_setTable r af _, hok.put hat hb, ?_, fun n hn => ?_, fun hnone => ?_⟩
  · apply IdChange.added (hat.not_mem_ids hkey hnew)
    have hpush : (c.here.push (r.fresh id sa confirm)).nodes.map Node.id = id :: c.here.nodes.map Node.id := rfl
    rw [nodes_put, hat.nodes, List.map_append, List.map_append, List.map_append, List.map_append, hpush]
    exact List.perm_middle
  · obtain rfl : r.fresh id sa confirm = n := Option.some.inj hn
    exact ⟨rfl, (hat.put hb).mem_nodes List.mem_cons_self⟩
  · cases hnone

/-! ### A full bucket -/

theorem countPing_ok {n : Node} (hn : NodeOk myid af n) : NodeOk myid af (r.countPing n) :=
  ⟨hn.other, hn.family, hn.reach⟩

theorem knownBad_countPing (r : Tables) (n : Node) : r.knownBad (r.countPing n) = false := by
  have hlt : ¬r.now < r.now - 15 := by omega
  rw [knownBad, countPing, decide_eq_false hlt, Bool.and_false]

theorem pingDubious_spec (hb : BucketOk myid af b lo hi) :
    Sends r.toOutbound (r.pingDubious b).1 ∧ BucketOk myid af (r.pingDubious b).2 lo hi ∧
      (r.pingDubious b).2.nodes.map Node.id = b.nodes.map Node.id ∧
      ∀ n ∈ (r.pingDubious b).2.nodes, r.knownBad n = true → n ∈ b.nodes := by
  rw [pingDubious]
  split
  · exact ⟨Sends.refl _, hb, rfl, fun n hn _ => hn⟩
  · split
    · exact ⟨Sends.refl _, hb, rfl, fun n hn _ => hn⟩
    · refine ⟨sends_transmit _ _ _ _, ?_, ?_, fun n hn hbad => ?_⟩
      · exact hb.modifyNode (f := r.countPing) (fun _ => rfl) (fun n hn => countPing_ok hn) _
      · exact map_modify_of_eq (f := r.countPing) (fun _ => rfl) _ _
      · rcases mem_modify hn with hold | ⟨m, hm, rfl⟩
        · exact hold
        · rw [knownBad_countPing] at hbad
          cases hbad

theorem again_splitBucket (hok : r.Ok) (hat : r.At af c lo hi) (hkey : lo ≤ value id ∧ value id < hi)
    (hfull : c.here.count ≥ 8) : Again r (r.splitBucket af c) af id := by
  obtain ⟨depth, hblock⟩ := hat.here.block
  have hcounted : c.here.count = c.here.nodes.length := hat.here.counted
  have hdepth : depth < 160 := by
    apply hblock.depth_lt_of_card (hat.here.nodup.map value_injective)
    · intro x hx
      obtain ⟨y, hy, rfl⟩ := List.mem_map.mp hx
      obtain ⟨n, hn, rfl⟩ := List.mem_map.mp hy
      exact hat.here.range n hn
    · rw [List.length_map, List.length_map]
      omega
  obtain ⟨mid, lower, upper, hsplit⟩ := splitBucket_spec hat hblock hdepth
  have hperm : ((r.splitBucket af c).nodes af).Perm (r.nodes af) := hsplit.nodes_perm hat
  refine ⟨⟨hsplit.within, hperm.map Node.id, fun n hn _ => hperm.mem_iff.mp hn⟩,
    hok.within hsplit.within (hsplit.tableOk hat), fun d hd => ?_⟩
  obtain rfl : d = depth := (hd.of_at hat hkey).depth_unique hblock
  exact ⟨hdepth, hsplit.depthAt hat hkey⟩

theorem good_fullBucket (hok : r.Ok) (hat : r.At sa.family c lo hi) (hkey : lo ≤ value id ∧ value id < hi)
    (hreach : isMartian sa = false) (hfull : c.here.count ≥ 8) (mybucket : Bool) :
    (r.fullBucket sa confirm c mybucket).Good r sa.family id := by
  obtain ⟨hsends, hb, hids, hbad⟩ := r.pingDubious_spec hat.here
  rw [fullBucket]
  generalize r.pingDubious c.here = pinged at hsends hb hids hbad ⊢
  obtain ⟨o, b⟩ := pinged
  have hcounted : b.count = b.nodes.length := hb.counted
  have hcounted' : c.here.count = c.here.nodes.length := hat.here.counted
  have hlength : b.nodes.length = c.here.nodes.length := by
    rw [← List.length_map (f := Node.id), hids, List.length_map]
  have hmyid : o.myid = r.myid := hsends.myid
  have hat' : ({ r with toOutbound := o } : Tables).At sa.family c lo hi :=
    hat.congr (table_toOutbound r o _) hmyid
  have hok' : ({ r with toOutbound := o } : Tables).Ok := hok.congr (fun af => table_toOutbound r o af) hmyid
  apply (same_toOutbound hsends sa.family id).good
  dsimp only
  split
  · have hb' : BucketOk o.myid sa.family b lo hi := by rwa [hmyid]
    apply (same_put hat' hkey hb' hids hbad).good
    apply again_splitBucket (hok'.put hat' hb') (hat'.put hb') hkey
    show b.count ≥ 8
    omega
  · have hcache : ∀ b', b' = (if confirm ≠ 0 ∨ b.cached = none then { b with cached := some sa } else b) →
        BucketOk o.myid sa.family b' lo hi ∧ b'.nodes = b.nodes := by
      rintro b' rfl
      rw [hmyid]
      split
      · refine ⟨hb.setCached fun sa' hsa' => ?_, rfl⟩
        obtain rfl : sa = sa' := Option.some.inj hsa'
        exact ⟨rfl, hreach⟩
      · exact ⟨hb, rfl⟩
    obtain ⟨hb', hnodes⟩ := hcache _ rfl
    generalize (if confirm ≠ 0 ∨ b.cached = none then { b with cached := some sa } else b) = b' at hb' hnodes ⊢
    rw [← hnodes] at hids hbad
    have hsame : Same ({ r with toOutbound := o } : Tables) _ sa.family id := same_put hat' hkey hb' hids hbad
    refine ⟨hsame.within, hok'.put hat' hb', IdChange.kept ?_, fun n hn => ?_, fun _ => ?_⟩
    · exact hsame.ids
    · cases hn
    · exact hsame.ids

/-! ### A call -/

theorem good_unknownNode (hok : r.Ok) (hat : r.At sa.family c lo hi) (hkey : lo ≤ value id ∧ value id < hi)
    (hself : id ≠ r.myid) (hreach : isMartian sa = false) (hnew : id ∉ c.here.nodes.map Node.id)
    (mybucket : Bool) : (r.unknownNode id sa confirm c mybucket).Good r sa.family id := by
  rw [unknownNode]
  split
  · rename_i i hbad
    exact done_replaced hok hat hkey hself rfl hreach hnew hbad
  · split
    · rename_i hfull
      exact good_fullBucket hok hat hkey hreach hfull mybucket
    · rename_i hroom
      exact done_pushed hok hat hkey hself rfl hreach hnew hroom

theorem done_nothing (hok : r.Ok) : Done r r af id none :=
  ⟨Within.refl af r, hok, IdChange.kept (List.Perm.refl _), (by rintro n ⟨⟩), fun _ => List.Perm.refl _⟩

theorem good_newNodeTurn (hok : r.Ok) (id : Hash) (sa : SockAddr) (confirm : Nat) :
    (r.newNodeTurn id sa confirm).Good r sa.family id := by
  rw [newNodeTurn]
  dsimp only
  split
  · exact done_nothing hok
  · rename_i c hfind
    obtain ⟨lo, hi, hat, hkey⟩ := findBucket_some hok hfind
    split
    · exact done_nothing hok
    · rename_i hself
      split
      · exact done_nothing hok
      · rename_i hdrop
        have hself' : id ≠ r.myid := mt idCmp_eq_iff.mpr hself
        have hreach : isMartian sa = false := by
          rw [Bool.not_eq_true, Bool.or_eq_false_iff] at hdrop
          exact hdrop.1
        have hb : BucketOk r.myid sa.family
            { c.here with time := if confirm = 2 then r.now else c.here.time } lo hi := hat.here.setTime _
        have hnodes : ({ c.here with time := if confirm = 2 then r.now else c.here.time } : Bucket).nodes =
            c.here.nodes := rfl
        generalize ({ c.here with time := if confirm = 2 then r.now else c.here.time } : Bucket) = b
          at hb hnodes ⊢
        have hsame : Same r (r.put sa.family c b) sa.family id := by
          apply same_put hat hkey hb
          · rw [hnodes]
          · rw [hnodes]
            exact fun n hn _ => hn
        have hok' : (r.put sa.family c b).Ok := hok.put hat hb
        have hat' : (r.put sa.family c b).At sa.family { c with here := b } lo hi := hat.put hb
        have hmyid : (r.put sa.family c b).myid = r.myid := hsame.within.myid
        apply hsame.good
        split
        · rename_i i hknown
          exact done_known hok' hat' rfl hreach hknown
        · rename_i hunknown
          have hnew : id ∉ b.nodes.map Node.id := findIdx_none hunknown
          split
          · have hgrow : Within sa.family (r.put sa.family c b) _ := within_grow _ sa.family sa.family
            apply (same_grow _ sa.family sa.family id).good
            apply good_unknownNode (hok'.congr (fun af => table_grow _ af _) hgrow.myid)
              (hat'.congr (table_grow _ _ _) hgrow.myid) hkey _ hreach hnew
            rw [hgrow.myid, hmyid]
            exact hself'
          · apply good_unknownNode hok' hat' hkey _ hreach hnew
            rw [hmyid]
            exact hself'

theorem newNodeLoop_done (hok : r.Ok) {fuel depth : Nat} (hfuel : 160 < fuel + depth)
    (hdepth : r.DepthAt sa.family id depth) :
    ∃ r' node, newNodeLoop id sa confirm fuel r = some (r', node) ∧ Done r r' sa.family id node := by
  induction fuel generalizing r depth with
  | zero =>
      obtain ⟨c, lo, hi, -, hblock, -⟩ := hdepth
      have hle : depth ≤ 160 := hblock.1
      omega
  | succ fuel ih =>
      have hgood := good_newNodeTurn hok id sa confirm
      rw [newNodeLoop]
      generalize r.newNodeTurn id sa confirm = turn at hgood ⊢
      cases turn with
      | done r' node => exact ⟨r', node, rfl, hgood⟩
      | again r' =>
          obtain ⟨-, hdeeper⟩ := hgood.deeper depth hdepth
          obtain ⟨r'', node, hloop, hdone⟩ := ih hgood.ok (by omega) hdeeper
          exact ⟨r'', node, hloop, hdone.carry hgood.toCarry⟩

/-- **A call of `new_node` comes back**, and this is what it did. -/
theorem newNode_done (hok : r.Ok) (id : Hash) (sa : SockAddr) (confirm : Nat) :
    ∃ r' node, r.newNode id sa confirm = some (r', node) ∧ Done r r' sa.family id node := by
  cases hfind : r.findBucket id sa.family with
  | none =>
      have hturn : r.newNodeTurn id sa confirm = .done r none := by
        rw [newNodeTurn]
        dsimp only
        rw [hfind]
      exact ⟨r, none, by rw [newNode, newNodeLoop, hturn], done_nothing hok⟩
  | some c =>
      obtain ⟨lo, hi, hat, hkey⟩ := findBucket_some hok hfind
      obtain ⟨depth, hblock⟩ := hat.here.block
      exact newNodeLoop_done hok (by omega) ⟨c, lo, hi, hat, hblock, hkey⟩

end Tables

end CLibp2p.Routing.Dht
