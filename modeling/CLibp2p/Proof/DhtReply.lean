import CLibp2p.Proof.DhtReachable

/-!
# The closest nodes

An answer names the good nodes of three buckets that are closest to an id. The good nodes of the bucket of
the id are always among them, and nothing else in the table is as close.
-/

namespace CLibp2p.Routing.Dht

open Duplex Machine Dyadic

/-- How far a node is from an id. -/
def remoteness (target : Hash) (n : Node) : Nat := distance n.id target

theorem insertClosestNode_eq (id : Hash) (nodes : List Node) (n : Node) :
    insertClosestNode id nodes n =
      offer (remoteness id) closestRoom (fun m => m.getD n) (remoteness id n) nodes := by
  have hstop : (fun m : Node => decide (idCmp n.id m.id = .eq) || decide (xorcmp n.id m.id id = .lt)) =
      fun m => decide (remoteness id n ≤ remoteness id m) := by
    funext m
    rw [Bool.eq_iff_iff, Bool.or_eq_true, decide_eq_true_iff, decide_eq_true_iff, decide_eq_true_iff,
      idCmp_eq_iff, xorcmp_lt_iff, remoteness, remoteness, le_iff_eq_or_lt, (distance_left_injective id).eq_iff]
  have hsame : ∀ m : Node, idCmp n.id m.id = .eq ↔ remoteness id m = remoteness id n := by
    intro m
    rw [idCmp_eq_iff, remoteness, remoteness, (distance_left_injective id).eq_iff, eq_comm]
  rw [insertClosestNode, offer, hstop]
  generalize (nodes.findIdx fun m => decide (remoteness id n ≤ remoteness id m)) = stop
  cases hget : nodes[stop]? with
  | some m =>
      by_cases hid : idCmp n.id m.id = .eq
      · obtain ⟨hlt, rfl⟩ := List.getElem?_eq_some_iff.mp hget
        simp only [hid, (hsame _).mp hid, if_true, Option.getD_some, List.set_getElem_self]
      · simp only [hid, mt (hsame m).mpr hid, if_false, Option.getD_none]
  | none =>
      by_cases hfull : stop = closestRoom
      · simp only [hfull, if_true]
      · simp only [hfull, if_false, Option.getD_none]

/-! ### Three buckets -/

/-- The nodes of the bucket at a place, of the next one and of the previous one. -/
def around (c : Cursor Bucket) : List Node :=
  c.here.nodes ++ ((nextBucket c).elim [] fun next => next.here.nodes) ++
    ((previousBucket c).elim [] fun previous => previous.here.nodes)

namespace Tables

variable {r : Tables} {af : Family} {c : Cursor Bucket} {id : Hash} {lo hi : Nat}

theorem foldl_insertClosestNode (id : Hash) (items nodes : List Node) :
    items.foldl (insertClosestNode id) nodes =
      items.foldl (fun kept n => offer (remoteness id) closestRoom (fun m => m.getD n) (remoteness id n) kept)
        nodes := by
  have hstep : insertClosestNode id =
      fun kept n => offer (remoteness id) closestRoom (fun m => m.getD n) (remoteness id n) kept := by
    funext kept n
    exact insertClosestNode_eq id kept n
  rw [hstep]

theorem closestNodes_eq (hfind : r.findBucket id af = some c) :
    r.closestNodes id af = ((around c).filter r.nodeGood).foldl (insertClosestNode id) [] := by
  rw [closestNodes, hfind, around]
  dsimp only
  cases nextBucket c <;> cases previousBucket c <;>
    simp only [Option.elim_none, Option.elim_some, List.append_nil, List.filter_append, List.foldl_append,
      bufferClosestNodes]

theorem itemFor_getD (id : Hash) (n : Node) :
    ItemFor (remoteness id) (fun m => m.getD n) (remoteness id n) := ⟨rfl, fun _ hb => hb⟩

theorem closestNodes_nearest (hfind : r.findBucket id af = some c) :
    Nearest (remoteness id) closestRoom (((around c).filter r.nodeGood).map (remoteness id)).toFinset
      (r.closestNodes id af) := by
  have hfold := (Nearest.nil (remoteness id) closestRoom).foldl (fun n => itemFor_getD id n)
    ((around c).filter r.nodeGood)
  rw [Finset.union_empty] at hfold
  rwa [closestNodes_eq hfind, foldl_insertClosestNode]

theorem closestNodes_subset (hfind : r.findBucket id af = some c) :
    ∀ n ∈ r.closestNodes id af, n ∈ (around c).filter r.nodeGood := by
  have hitems : ∀ n ∈ (around c).filter r.nodeGood, n ∈ (around c).filter r.nodeGood := fun _ hn => hn
  have hfold := (Nearest.nil (remoteness id) closestRoom).forall_foldl (fun n => itemFor_getD id n)
    (P := fun n => n ∈ (around c).filter r.nodeGood) (List.forall_mem_nil _) (fun _ _ _ hb => hb) hitems
  rwa [← foldl_insertClosestNode, ← closestNodes_eq hfind] at hfold

/-- The three buckets are part of the table, and have every node once. -/
theorem around_subperm (hat : r.At af c lo hi) : (around c).Subperm (r.nodes af) := by
  have hnext : ((nextBucket c).elim [] fun next => next.here.nodes).Sublist (nodesOf c.after) := by
    rw [nextBucket]
    split
    · exact List.nil_sublist _
    · rename_i next rest hafter
      rw [hafter, nodesOf_cons, Option.elim_some]
      exact List.sublist_append_left _ _
  have hprevious : ((previousBucket c).elim [] fun previous => previous.here.nodes).Sublist (nodesOf c.before) := by
    rw [previousBucket]
    cases hlast : c.before.getLast? with
    | none => exact List.nil_sublist _
    | some p =>
        have hbefore : nodesOf c.before = nodesOf c.before.dropLast ++ p.nodes := by
          have hlast' := congrArg nodesOf (List.dropLast_append_getLast? p hlast)
          rw [nodesOf_append, nodesOf_cons] at hlast'
          rw [← hlast']
          exact congrArg (nodesOf c.before.dropLast ++ ·) (List.append_nil p.nodes)
        rw [hbefore]
        exact List.sublist_append_right _ _
  rw [hat.nodes, around]
  apply List.perm_append_comm.subperm.trans
  exact (hprevious.append ((List.Sublist.refl c.here.nodes).append hnext)).subperm

theorem At.nodup_around (hr : r.Ok) (hat : r.At af c lo hi) : ((around c).map Node.id).Nodup := by
  obtain ⟨nodes, hperm, hsub⟩ := around_subperm hat
  exact (hperm.map Node.id).nodup_iff.mp ((hr.nodup_ids af).sublist (hsub.map Node.id))

/-- What is in the bucket of an id is closer to it than everything else. -/
theorem At.closer (hat : r.At af c lo hi) (hkey : lo ≤ value id ∧ value id < hi) {n m : Node}
    (hn : n ∈ c.here.nodes) (hm : m ∈ r.nodes af) (hout : m ∉ c.here.nodes) :
    distance n.id id < distance m.id id := by
  obtain ⟨depth, hblock⟩ := hat.here.block
  have hfar : ¬(lo ≤ value m.id ∧ value m.id < hi) := fun hin => hout (hat.mem_here hin hm rfl)
  exact hblock.closer hkey (hat.here.range n hn) hfar

end Tables

namespace Globals

variable {sha256 : Bytes → Bytes} {s : Globals} {af : Family} {c : Cursor Bucket} {id : Hash}

theorem nodup_remoteness (hs : Reachable sha256 s) (hfind : s.findBucket id af = some c) :
    (((around c).filter s.nodeGood).map (remoteness id)).Nodup := by
  have hr := (ok_of_reachable hs).tables
  obtain ⟨lo, hi, hat, -⟩ := Tables.findBucket_some hr hfind
  have hnodup : (((around c).filter s.nodeGood).map Node.id).Nodup :=
    (hat.nodup_around hr).sublist (List.filter_sublist.map Node.id)
  have hcomp : remoteness id = (fun other => distance other id) ∘ Node.id := rfl
  rw [hcomp, ← List.map_map]
  exact hnodup.map (distance_left_injective id)

/-- Where a good node is not named, there are eight closer ones. -/
theorem closer_of_not_mem (hs : Reachable sha256 s) (hfind : s.findBucket id af = some c) {n : Node}
    (hn : n ∈ (around c).filter s.nodeGood) (hout : n ∉ s.closestNodes id af) :
    (s.closestNodes id af).length = closestRoom ∧ ∀ m ∈ s.closestNodes id af, distance m.id id < distance n.id id := by
  have hnear := Tables.closestNodes_nearest hfind
  have hoffered : remoteness id n ∈ (((around c).filter s.nodeGood).map (remoteness id)).toFinset :=
    List.mem_toFinset.mpr (List.mem_map_of_mem hn)
  have hfar : remoteness id n ∉ (s.closestNodes id af).map (remoteness id) := by
    intro hmem
    obtain ⟨m, hm, heq⟩ := List.mem_map.mp hmem
    have hsub := Tables.closestNodes_subset hfind m hm
    rw [List.inj_on_of_nodup_map (nodup_remoteness hs hfind) hsub hn heq] at hm
    exact hout hm
  exact ⟨hnear.size_of_not_mem hoffered hfar, fun m hm => hnear.lt_of_not_mem hoffered hfar hm⟩

/-- The good nodes of the bucket are named: the eight that would be closer would be in it, too. -/
theorem mem_closestNodes (hs : Reachable sha256 s) (hfind : s.findBucket id af = some c) {n : Node}
    (hn : n ∈ c.here.nodes) (hgood : s.nodeGood n = true) : n ∈ s.closestNodes id af := by
  obtain ⟨lo, hi, hat, hkey⟩ := Tables.findBucket_some (ok_of_reachable hs).tables hfind
  by_contra hout
  have hgood' : n ∈ (around c).filter s.nodeGood := by
    rw [List.mem_filter]
    exact ⟨List.mem_append_left _ (List.mem_append_left _ hn), hgood⟩
  obtain ⟨hlength, hcloser⟩ := closer_of_not_mem hs hfind hgood' hout
  have hall : n :: s.closestNodes id af ⊆ c.here.nodes := by
    intro m hm
    rcases List.mem_cons.mp hm with rfl | hm
    · exact hn
    · by_contra hfar
      have hmem : m ∈ s.nodes af :=
        (Tables.around_subperm hat).subset (List.mem_of_mem_filter (Tables.closestNodes_subset hfind m hm))
      exact absurd (hat.closer hkey hn hmem hfar) (not_lt.mpr (hcloser m hm).le)
  have hdistinct : (n :: s.closestNodes id af).Nodup := by
    refine List.nodup_cons.mpr ⟨hout, ?_⟩
    exact (Tables.closestNodes_nearest hfind).sorted.imp fun hlt heq => absurd (heq ▸ hlt) (lt_irrefl _)
  have hnine : (n :: s.closestNodes id af).length ≤ c.here.nodes.length := (hdistinct.subperm hall).length_le
  have hroom : c.here.nodes.length ≤ 8 := hat.here.room
  rw [List.length_cons, hlength, closestRoom] at hnine
  omega

/-- **The answer names the closest good nodes of three buckets**, each once and the closer ones first. All
good nodes of the bucket of the id are named, and they are closer than every other node of the table. -/
theorem closestNodes_spec (hs : Reachable sha256 s) (hfind : s.findBucket id af = some c) :
    ((s.closestNodes id af).Pairwise fun a b => distance a.id id < distance b.id id) ∧
      (s.closestNodes id af).length = min 8 ((around c).filter s.nodeGood).length ∧
      (∀ n ∈ s.closestNodes id af, n ∈ (around c).filter s.nodeGood) ∧
      (∀ n ∈ (around c).filter s.nodeGood, n ∉ s.closestNodes id af →
        ∀ m ∈ s.closestNodes id af, distance m.id id < distance n.id id) ∧
      (∀ n ∈ c.here.nodes, s.nodeGood n = true → n ∈ s.closestNodes id af) ∧
      ∀ n ∈ c.here.nodes, ∀ m ∈ s.nodes af, m ∉ c.here.nodes → distance n.id id < distance m.id id := by
  obtain ⟨lo, hi, hat, hkey⟩ := Tables.findBucket_some (ok_of_reachable hs).tables hfind
  have hnear := Tables.closestNodes_nearest hfind
  have hlength : (s.closestNodes id af).length = min 8 ((around c).filter s.nodeGood).length := by
    rw [hnear.length, List.toFinset_card_of_nodup (nodup_remoteness hs hfind), List.length_map]
    rfl
  refine ⟨hnear.sorted, hlength, Tables.closestNodes_subset hfind, ?_, ?_, ?_⟩
  · intro n hn hout
    exact (closer_of_not_mem hs hfind hn hout).2
  · intro n hn hgood
    exact mem_closestNodes hs hfind hn hgood
  · intro n hn m hm hout
    exact hat.closer hkey hn hm hout

/-- Eight of nine nodes in two buckets. -/
theorem closestNodes_spec_nine : ∃ c, populated.findBucket (repeated 3) .inet = some c ∧
    ((populated.closestNodes (repeated 3) .inet).Pairwise fun a b =>
      distance a.id (repeated 3) < distance b.id (repeated 3)) ∧
    (populated.closestNodes (repeated 3) .inet).length = 8 ∧
    ∀ n ∈ (around c).filter populated.nodeGood, n ∉ populated.closestNodes (repeated 3) .inet →
      ∀ m ∈ populated.closestNodes (repeated 3) .inet,
        distance m.id (repeated 3) < distance n.id (repeated 3) := by
  have hgood : (populated.findBucket (repeated 3) .inet).map
      (fun c => ((around c).filter populated.nodeGood).length) = some 9 := by
    decide +kernel
  obtain ⟨c, hfind, hnine⟩ := Option.map_eq_some_iff.mp hgood
  obtain ⟨hsorted, hlength, -, hout, -⟩ := closestNodes_spec reachable_populated hfind
  rw [hnine] at hlength
  exact ⟨c, hfind, hsorted, hlength, hout⟩

end Globals

/-! ### What the asker reads -/

theorem short_of_bytes (n : UInt16) : (n >>> 8).toUInt8.toUInt16 <<< 8 ||| n.toUInt8.toUInt16 = n := by
  have hlt := n.toNat_lt
  have hhigh : n.toNat / 2 ^ 8 % 256 * 2 ^ 8 % 65536 = 2 ^ 8 * (n.toNat / 2 ^ 8) := by omega
  have hlow : n.toNat % 256 < 2 ^ 8 := by omega
  apply UInt16.toNat_inj.mp
  simp only [UInt16.toNat_or, UInt16.toNat_shiftLeft, UInt8.toNat_toUInt16, UInt16.toNat_toUInt8,
    UInt16.toNat_shiftRight, UInt16.reduceToNat, Nat.reduceMod, Nat.shiftLeft_eq, Nat.shiftRight_eq_div_pow]
  rw [hhigh, ← Nat.two_pow_add_eq_or_of_lt hlow]
  omega

theorem netPort_netShort (n : UInt16) {front : Bytes} (rest : Bytes) {i : Nat} (hi : front.length = i) :
    netPort (front ++ (netShort n ++ rest)) i = n := by
  have hhigh : (front ++ (netShort n ++ rest)).getD i 0 = (n >>> 8).toUInt8 := by
    rw [List.getD_eq_getElem?_getD, List.getElem?_append_right hi.le, hi, Nat.sub_self]
    rfl
  have hlow : (front ++ (netShort n ++ rest)).getD (i + 1) 0 = n.toUInt8 := by
    rw [List.getD_eq_getElem?_getD, List.getElem?_append_right (by omega), hi, Nat.add_sub_cancel_left]
    rfl
  rw [netPort, hhigh, hlow, short_of_bytes]

theorem arrayAt_toList {n : Nat} (v : Vector UInt8 n) {front : Bytes} (rest : Bytes) {i : Nat}
    (hi : front.length = i) : arrayAt n (front ++ (v.toList ++ rest)) i = v := by
  apply Vector.ext
  intro j hj
  have hlength : j < v.toList.length := by rwa [Vector.length_toList]
  rw [arrayAt, Vector.getElem_ofFn]
  dsimp only
  rw [List.getD_eq_getElem?_getD, List.getElem?_append_right (by omega), hi, Nat.add_sub_cancel_left,
    List.getElem?_append_left hlength, Vector.getElem?_toList, Vector.getElem?_eq_getElem hj, Option.getD_some]

theorem length_flatMap_compact {nodes : List Node} {size : Nat} (hsize : ∀ n ∈ nodes, (compact n).length = size) :
    (nodes.flatMap compact).length = size * nodes.length := by
  induction nodes with
  | nil => rfl
  | cons n nodes ih =>
      obtain ⟨hn, hrest⟩ := List.forall_mem_cons.mp hsize
      rw [List.flatMap_cons, List.length_append, hn, ih hrest, List.length_cons, Nat.mul_succ, Nat.add_comm]

/-- Around the place of a node in the buffer. -/
theorem flatMap_compact_at {nodes : List Node} {size i : Nat} (hsize : ∀ n ∈ nodes, (compact n).length = size)
    (hi : i < nodes.length) : ∃ front rest, nodes.flatMap compact = front ++ (compact nodes[i] ++ rest) ∧
      front.length = size * i := by
  refine ⟨(nodes.take i).flatMap compact, (nodes.drop (i + 1)).flatMap compact, ?_, ?_⟩
  · rw [← List.flatMap_cons, ← List.flatMap_append, ← List.drop_eq_getElem_cons hi, List.take_append_drop]
  · rw [length_flatMap_compact fun n hn => hsize n (List.mem_of_mem_take hn), List.length_take,
      min_eq_left hi.le]

/-- What `dht_periodic` makes of a node: its address without what only matters at home. -/
def infoOf (n : Node) : NodeInfo where
  id := n.id
  ss := match n.ss with
    | .inet addr port => .inet addr port
    | .inet6 addr port _ _ => .inet6 addr port 0 0

theorem id_at (n : Node) {front : Bytes} (rest : Bytes) {i : Nat} (hi : front.length = i) :
    arrayAt 20 (front ++ (compact n ++ rest)) i = n.id := by
  rw [compact, List.append_assoc, List.append_assoc]
  exact arrayAt_toList n.id _ hi

/-- The address and the port are behind the id. -/
theorem address_at {k : Nat} {addr : Vector UInt8 k} {n : Node} (hip : n.ss.ip = addr.toList) {front : Bytes}
    (rest : Bytes) {i : Nat} (hi : front.length = i) :
    arrayAt k (front ++ (compact n ++ rest)) (i + 20) = addr ∧
      netPort (front ++ (compact n ++ rest)) (i + (20 + k)) = n.ss.port := by
  have hid : (front ++ n.id.toList).length = i + 20 := by rw [List.length_append, hi, Vector.length_toList]
  have haddr : (front ++ n.id.toList ++ addr.toList).length = i + (20 + k) := by
    rw [List.length_append, hid, Vector.length_toList, Nat.add_assoc]
  constructor
  · have hsplit : front ++ (compact n ++ rest) =
        front ++ n.id.toList ++ (addr.toList ++ (netShort n.ss.port ++ rest)) := by
      simp only [compact, hip, List.append_assoc]
    rw [hsplit]
    exact arrayAt_toList addr _ hid
  · have hsplit : front ++ (compact n ++ rest) =
        front ++ n.id.toList ++ addr.toList ++ (netShort n.ss.port ++ rest) := by
      simp only [compact, hip, List.append_assoc]
    rw [hsplit]
    exact netPort_netShort n.ss.port rest haddr

theorem length_compact (n : Node) : (compact n).length = 22 + n.ss.ip.length := by
  rw [compact, List.length_append, List.length_append, Vector.length_toList]
  show 20 + n.ss.ip.length + 2 = _
  omega

/-- Reading what was put behind one another, for addresses of any size. -/
theorem infos_compact {k : Nat} (address : Vector UInt8 k → UInt16 → SockAddr) {nodes : List Node}
    (hnodes : ∀ n ∈ nodes, ∃ addr, n.ss.ip = addr.toList ∧ (infoOf n).ss = address addr n.ss.port) :
    ((List.range ((nodes.flatMap compact).length / (22 + k))).map fun i =>
      ({ id := arrayAt 20 (nodes.flatMap compact) ((22 + k) * i)
         ss := address (arrayAt k (nodes.flatMap compact) ((22 + k) * i + 20))
          (netPort (nodes.flatMap compact) ((22 + k) * i + (20 + k))) } : NodeInfo)) = nodes.map infoOf := by
  have hsize : ∀ n ∈ nodes, (compact n).length = 22 + k := by
    intro n hn
    obtain ⟨addr, hip, -⟩ := hnodes n hn
    rw [length_compact, hip, Vector.length_toList]
  have hlength : (nodes.flatMap compact).length / (22 + k) = nodes.length := by
    rw [length_flatMap_compact hsize, Nat.mul_div_cancel_left _ (by omega)]
  apply List.ext_getElem
  · rw [List.length_map, List.length_map, List.length_range, hlength]
  · intro i hi hi'
    rw [List.length_map] at hi'
    obtain ⟨front, rest, hsplit, hfront⟩ := flatMap_compact_at hsize hi'
    obtain ⟨addr, hip, hss⟩ := hnodes nodes[i] (List.getElem_mem hi')
    obtain ⟨haddr, hnet⟩ := address_at hip rest hfront
    rw [List.getElem_map, List.getElem_map, List.getElem_range, hsplit, id_at _ rest hfront, haddr, hnet, ← hss]
    rfl

theorem nodeInfos_compact {nodes : List Node} (hfamily : ∀ n ∈ nodes, n.ss.family = .inet) :
    nodeInfos (nodes.flatMap compact) = nodes.map infoOf := by
  apply infos_compact fun addr port => .inet addr port
  intro n hn
  have hn' := hfamily n hn
  rw [infoOf]
  cases hss : n.ss with
  | inet addr port => exact ⟨addr, rfl, rfl⟩
  | inet6 addr port flowinfo scopeId =>
      rw [hss] at hn'
      cases hn'

theorem nodeInfos6_compact {nodes : List Node} (hfamily : ∀ n ∈ nodes, n.ss.family = .inet6) :
    nodeInfos6 (nodes.flatMap compact) = nodes.map infoOf := by
  apply infos_compact fun addr port => .inet6 addr port 0 0
  intro n hn
  have hn' := hfamily n hn
  rw [infoOf]
  cases hss : n.ss with
  | inet6 addr port flowinfo scopeId => exact ⟨addr, rfl, rfl⟩
  | inet addr port =>
      rw [hss] at hn'
      cases hn'

theorem ip_length (n : Node) : n.ss.ip.length = if n.ss.family = .inet then 4 else 16 := by
  cases n.ss with
  | inet addr port => exact Vector.length_toList
  | inet6 addr port flowinfo scopeId => exact Vector.length_toList

namespace Globals

variable {sha256 : Bytes → Bytes} {s : Globals} {af : Family} {id : Hash}

theorem closestNodes_family (hs : Reachable sha256 s) (id : Hash) (af : Family) :
    (∀ n ∈ s.closestNodes id af, n.ss.family = af) ∧ (s.closestNodes id af).length ≤ 8 := by
  have hr := (ok_of_reachable hs).tables
  cases hfind : s.findBucket id af with
  | none =>
      rw [Tables.closestNodes, hfind]
      exact ⟨List.forall_mem_nil _, Nat.zero_le 8⟩
  | some c =>
      obtain ⟨lo, hi, hat, -⟩ := Tables.findBucket_some hr hfind
      refine ⟨fun n hn => ?_, ?_⟩
      · have hmem := List.mem_of_mem_filter (Tables.closestNodes_subset hfind n hn)
        exact (hr.findNode_of_mem ((Tables.around_subperm hat).subset hmem)).1.family
      · rw [(Tables.closestNodes_nearest hfind).length]
        exact min_le_left _ _

/-- **The nodes that an answer names are read back**, from buffers that hold whole nodes and have room at the
other end. -/
theorem closestNodes_read (hs : Reachable sha256 s) (id : Hash) :
    (nodeInfos ((s.closestNodes id .inet).flatMap compact) = (s.closestNodes id .inet).map infoOf ∧
      ((s.closestNodes id .inet).flatMap compact).length % 26 = 0 ∧
      ((s.closestNodes id .inet).flatMap compact).length ≤ nodesRoom) ∧
    nodeInfos6 ((s.closestNodes id .inet6).flatMap compact) = (s.closestNodes id .inet6).map infoOf ∧
      ((s.closestNodes id .inet6).flatMap compact).length % 38 = 0 ∧
      ((s.closestNodes id .inet6).flatMap compact).length ≤ nodes6Room := by
  obtain ⟨hfamily, hroom⟩ := closestNodes_family hs id .inet
  obtain ⟨hfamily6, hroom6⟩ := closestNodes_family hs id .inet6
  have hsize : ∀ n ∈ s.closestNodes id .inet, (compact n).length = 26 := by
    intro n hn
    rw [length_compact, ip_length, if_pos (hfamily n hn)]
  have hsize6 : ∀ n ∈ s.closestNodes id .inet6, (compact n).length = 38 := by
    intro n hn
    rw [length_compact, ip_length, hfamily6 n hn, if_neg (by decide)]
  refine ⟨⟨nodeInfos_compact hfamily, ?_, ?_⟩, nodeInfos6_compact hfamily6, ?_, ?_⟩
  · rw [length_flatMap_compact hsize, Nat.mul_mod_right]
  · rw [length_flatMap_compact hsize, nodesRoom]
    omega
  · rw [length_flatMap_compact hsize6, Nat.mul_mod_right]
  · rw [length_flatMap_compact hsize6, nodes6Room]
    omega

/-- The eight nodes of the answer. -/
theorem closestNodes_read_nine :
    nodeInfos ((populated.closestNodes (repeated 3) .inet).flatMap compact) =
        (populated.closestNodes (repeated 3) .inet).map infoOf ∧
      ((populated.closestNodes (repeated 3) .inet).flatMap compact).length = 8 * 26 :=
  ⟨(closestNodes_read reachable_populated (repeated 3)).1.1, by decide +kernel⟩

end Globals

end CLibp2p.Routing.Dht
