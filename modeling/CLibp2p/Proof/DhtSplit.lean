import CLibp2p.Proof.DhtTable

/-!
# Splitting a bucket

A split puts a new bucket behind the old one, starting in the middle of its block, and inserts the nodes
again one after the other. In the end each half has the nodes of its own range.
-/

namespace CLibp2p.Routing.Dht

open Duplex Machine Dyadic

/-! ### What sending leaves alone -/

/-- An `announce_peer` request. -/
def Datagram.Announces (d : Datagram) : Prop :=
  ∃ (o : Outbound) (tid : Bytes) (infohash : Hash) (port : UInt16) (token : Bytes),
    printPieces 512 (o.announcePeerPieces tid infohash port token) = some d.bytes

/-- The address is not on the blacklist; for an `announce_peer` request it is enough that no slot is the same
to its end. -/
def Outbound.Lets (o : Outbound) (d : Datagram) : Prop :=
  o.nodeBlacklisted d.dest = false ∨ d.Announces ∧ o.nodeBlacklisted d.dest storageSize = false

/-- Messages went out where the blacklist lets them, and numbers were drawn. -/
def Sends (o o' : Outbound) : Prop :=
  ∃ more random, (∀ d ∈ more, o.Lets d) ∧ o' = { o with sent := o.sent ++ more, random := random }

theorem Sends.refl (o : Outbound) : Sends o o :=
  ⟨[], o.random, List.forall_mem_nil _, by rw [List.append_nil]⟩

theorem Sends.trans {o o' o'' : Outbound} (h : Sends o o') (h' : Sends o' o'') : Sends o o'' := by
  obtain ⟨more, random, hmore, rfl⟩ := h
  obtain ⟨more', random', hmore', rfl⟩ := h'
  exact ⟨more ++ more', random', List.forall_mem_append.mpr ⟨hmore, hmore'⟩, by rw [List.append_assoc]⟩

theorem Sends.myid {o o' : Outbound} (h : Sends o o') : o'.myid = o.myid := by
  obtain ⟨more, random, -, rfl⟩ := h
  rfl

theorem sends_dhtSend (o : Outbound) (buf : Bytes) (sa : SockAddr) : Sends o (o.dhtSend buf sa) := by
  rw [Outbound.dhtSend]
  split
  · exact Sends.refl o
  · rename_i hallowed
    split
    · exact ⟨[⟨sa, buf⟩], o.random, List.forall_mem_singleton.mpr (Or.inl (Bool.eq_false_iff.mpr hallowed)), rfl⟩
    · exact Sends.refl o

theorem sends_draw (o : Outbound) : Sends o o.draw.2 :=
  ⟨[], fun i => o.random (i + 1), List.forall_mem_nil _, by rw [List.append_nil]; rfl⟩

theorem sends_transmit (o : Outbound) (size : Nat) (sa : SockAddr) (pieces : List Piece) :
    Sends o (o.transmit size sa pieces) := by
  rw [Outbound.transmit]
  split
  · exact Sends.refl o
  · exact sends_dhtSend o _ sa

/-- The only request whose caller says that its address is as long as a `struct sockaddr_storage`. -/
theorem sends_sendAnnouncePeer (o : Outbound) (sa : SockAddr) (tid : Bytes) (infohash : Hash) (port : UInt16)
    (token : Bytes) : Sends o (o.sendAnnouncePeer sa storageSize tid infohash port token) := by
  rw [Outbound.sendAnnouncePeer, Outbound.transmit]
  split
  · exact Sends.refl o
  · rename_i buf hbuf
    rw [Outbound.dhtSend]
    split
    · exact Sends.refl o
    · rename_i hallowed
      split
      · have hlets : o.Lets ⟨sa, buf⟩ :=
          Or.inr ⟨⟨o, tid, infohash, port, token, hbuf⟩, Bool.eq_false_iff.mpr hallowed⟩
        exact ⟨[⟨sa, buf⟩], o.random, List.forall_mem_singleton.mpr hlets, rfl⟩
      · exact Sends.refl o

theorem sends_sendCachedPing (o : Outbound) (b : Bucket) : Sends o (sendCachedPing o b).1 := by
  rw [sendCachedPing]
  split
  · exact Sends.refl o
  · exact sends_transmit o 512 _ _

theorem sendCachedPing_bucket (o : Outbound) (b : Bucket) :
    (sendCachedPing o b).2 = { b with cached := none } := by
  rw [sendCachedPing]
  split
  · rename_i hnone
    rw [← hnone]
  · rfl

namespace Tables

/-- What a function that is about the table of one family leaves alone. -/
structure Within (af : Family) (r r' : Tables) : Prop where
  sends : Sends r.toOutbound r'.toOutbound
  now : r'.now = r.now
  timer : r'.expireStuffTime = r.expireStuffTime
  other : ∀ af', af' ≠ af → r'.table af' = r.table af'

variable {af : Family} {r r' r'' : Tables} {c : Cursor Bucket}

theorem Within.refl (af : Family) (r : Tables) : Within af r r := ⟨Sends.refl _, rfl, rfl, fun _ _ => rfl⟩

theorem Within.trans (h : Within af r r') (h' : Within af r' r'') : Within af r r'' :=
  ⟨h.sends.trans h'.sends, h'.now.trans h.now, h'.timer.trans h.timer,
    fun af' hne => (h'.other af' hne).trans (h.other af' hne)⟩

theorem Within.myid (h : Within af r r') : r'.myid = r.myid := h.sends.myid

theorem within_setTable (r : Tables) (af : Family) (buckets : List Bucket) :
    Within af r (r.setTable af buckets) := by
  refine ⟨?_, now_setTable r af buckets, ?_, fun af' hne => table_setTable_of_ne hne r buckets⟩
  · rw [toOutbound_setTable]
    exact Sends.refl _
  · cases af with
    | inet => rfl
    | inet6 => rfl

theorem within_toOutbound {o : Outbound} (hsends : Sends r.toOutbound o) (af : Family) :
    Within af r { r with toOutbound := o } := by
  refine ⟨hsends, rfl, rfl, fun af' _ => ?_⟩
  cases af' with
  | inet => rfl
  | inet6 => rfl

@[simp] theorem table_toOutbound (r : Tables) (o : Outbound) (af : Family) :
    ({ r with toOutbound := o } : Tables).table af = r.table af := by
  cases af with
  | inet => rfl
  | inet6 => rfl

theorem Ok.within (hok : r.Ok) (h : Within af r r') (htable : TableOk r.myid af (r'.table af)) : r'.Ok := by
  intro af'
  rw [h.myid]
  by_cases hsame : af' = af
  · rw [hsame]
    exact htable
  · rw [h.other af' hsame]
    exact hok af'

/-! ### Two halves -/

/-- The bucket with these nodes put in, one after the other. -/
def pushAll (b : Bucket) (nodes : List Node) : Bucket :=
  { b with nodes := nodes.reverse ++ b.nodes, count := b.count + nodes.length }

theorem pushAll_push (b : Bucket) (n : Node) (nodes : List Node) :
    pushAll (b.push n) nodes = pushAll b (n :: nodes) := by
  rw [pushAll, pushAll, Bucket.push, List.reverse_cons, List.append_assoc, List.singleton_append,
    List.length_cons]
  simp only [Bucket.mk.injEq, true_and, and_true]
  omega

variable {before after : List Bucket} {b new : Bucket} {lo mid hi : Nat}

theorem insertNode_setTable {n : Node} (hfamily : n.ss.family = af)
    (hplaced : Placed Bounds 0 (2 ^ 160) (value n.id) c) :
    (r.setTable af c.close).insertNode n = r.setTable af { c with here := c.here.push n }.close := by
  rw [insertNode, findBucket, hfamily, table_setTable, findBucketFrom_of_placed hplaced]
  exact setTable_setTable r af _ _

/-- Every node goes to the half that it belongs to. -/
theorem foldl_insertNode (hbefore : Tiled Bounds 0 lo before) (hb : Bounds b lo mid)
    (hnew : Bounds new mid hi) (hafter : Tiled Bounds hi (2 ^ 160) after) {nodes : List Node}
    (hnodes : ∀ n ∈ nodes, n.ss.family = af ∧ lo ≤ value n.id ∧ value n.id < hi) :
    nodes.foldl insertNode (r.setTable af (before ++ b :: new :: after)) =
      r.setTable af (before ++ pushAll b (nodes.filter fun n => value n.id < mid) ::
        pushAll new (nodes.filter fun n => mid ≤ value n.id) :: after) := by
  induction nodes generalizing b new with
  | nil => simp [pushAll]
  | cons n nodes ih =>
      obtain ⟨⟨hfamily, hlo, hhi⟩, hrest⟩ := List.forall_mem_cons.mp hnodes
      rw [List.foldl_cons]
      by_cases hkey : value n.id < mid
      · have hplaced : Placed Bounds 0 (2 ^ 160) (value n.id) ⟨before, b, new :: after⟩ :=
          ⟨lo, mid, hbefore, hb, ⟨hi, hnew, hafter⟩, hlo, hkey⟩
        have hinsert : (r.setTable af (before ++ b :: new :: after)).insertNode n =
            r.setTable af (before ++ b.push n :: new :: after) := insertNode_setTable hfamily hplaced
        have hpush : Bounds (b.push n) lo mid := hb
        have hin : (n :: nodes).filter (fun n => decide (value n.id < mid)) = n :: nodes.filter _ :=
          List.filter_cons_of_pos (decide_eq_true hkey)
        have hout : (n :: nodes).filter (fun n => decide (mid ≤ value n.id)) = nodes.filter _ :=
          List.filter_cons_of_neg (by simpa using hkey)
        rw [hinsert, ih hpush hnew hrest, pushAll_push, hin, hout]
      · have hplaced : Placed Bounds 0 (2 ^ 160) (value n.id) ⟨before ++ [b], new, after⟩ :=
          ⟨mid, hi, tiled_append.mpr ⟨lo, hbefore, mid, hb, rfl⟩, hnew, hafter, not_lt.mp hkey, hhi⟩
        have hsplit : ∀ x : Bucket, before ++ b :: x :: after = (before ++ [b]) ++ x :: after := by
          intro x
          rw [List.append_assoc, List.singleton_append]
        have hinsert : (r.setTable af (before ++ b :: new :: after)).insertNode n =
            r.setTable af (before ++ b :: new.push n :: after) := by
          rw [hsplit, hsplit]
          exact insertNode_setTable hfamily hplaced
        have hpush : Bounds (new.push n) mid hi := hnew
        have hin : (n :: nodes).filter (fun n => decide (mid ≤ value n.id)) = n :: nodes.filter _ :=
          List.filter_cons_of_pos (decide_eq_true (not_lt.mp hkey))
        have hout : (n :: nodes).filter (fun n => decide (value n.id < mid)) = nodes.filter _ :=
          List.filter_cons_of_neg (by simpa using hkey)
        rw [hinsert, ih hb hpush hrest, pushAll_push, hin, hout]

/-- The half of a bucket that starts where the bucket starts. -/
def lowerHalf (b : Bucket) (mid : Nat) : Bucket :=
  pushAll b.emptied (b.nodes.filter fun n => value n.id < mid)

def upperHalf (b : Bucket) (newId : Hash) : Bucket :=
  pushAll (b.behind newId) (b.nodes.filter fun n => value newId ≤ value n.id)

theorem redistribute_eq {newId : Hash} (hbefore : Tiled Bounds 0 lo before)
    (hafter : Tiled Bounds hi (2 ^ 160) after) (hfirst : value b.first = lo)
    (hlo : lo < value newId) (hhi : value newId < hi)
    (hnodes : ∀ n ∈ b.nodes, n.ss.family = af ∧ lo ≤ value n.id ∧ value n.id < hi) :
    r.redistribute af ⟨before, b, after⟩ newId =
      r.setTable af (before ++ lowerHalf b (value newId) :: upperHalf b newId :: after) := by
  have hold : Bounds b.emptied lo (value newId) := ⟨hfirst, hlo⟩
  have hnew : Bounds (b.behind newId) (value newId) hi := ⟨rfl, hhi⟩
  exact foldl_insertNode hbefore hold hnew hafter hnodes

/-- The nodes of the two halves are those of the bucket. -/
theorem halves_perm (b : Bucket) (newId : Hash) :
    ((lowerHalf b (value newId)).nodes ++ (upperHalf b newId).nodes).Perm b.nodes := by
  have hnot : (b.nodes.filter fun n => value newId ≤ value n.id) =
      b.nodes.filter fun n => !decide (value n.id < value newId) := by
    apply List.filter_congr
    intro n _
    rw [← decide_not, decide_eq_decide, not_lt]
  have hlower : (lowerHalf b (value newId)).nodes = (b.nodes.filter fun n => value n.id < value newId).reverse :=
    List.append_nil _
  have hupper : (upperHalf b newId).nodes = (b.nodes.filter fun n => value newId ≤ value n.id).reverse :=
    List.append_nil _
  rw [hlower, hupper, hnot]
  exact ((List.reverse_perm _).append (List.reverse_perm _)).trans (List.filter_append_perm _ _)

/-- A bucket whose nodes are some of those of another, in a smaller block. -/
theorem pushAll_ok {myid : Hash} {lo' hi' depth : Nat} (hok : BucketOk myid af b lo hi)
    {p : Node → Bool} (hp : ∀ n ∈ b.nodes, p n = true → lo' ≤ value n.id ∧ value n.id < hi')
    (hfirst : value new.first = lo') (hblock : Block 160 depth lo' hi') (hfamily : new.af = af)
    (hcached : ∀ sa, new.cached = some sa → sa.family = af ∧ isMartian sa = false)
    (hempty : new.nodes = [] ∧ new.count = 0) : BucketOk myid af (pushAll new (b.nodes.filter p)) lo' hi' := by
  have hnodes : (pushAll new (b.nodes.filter p)).nodes = (b.nodes.filter p).reverse := by
    rw [pushAll, hempty.1, List.append_nil]
  have hmem : ∀ {n}, n ∈ (pushAll new (b.nodes.filter p)).nodes → n ∈ b.nodes ∧ p n = true := by
    intro n hn
    rw [hnodes, List.mem_reverse] at hn
    exact List.mem_filter.mp hn
  refine ⟨hfirst, ⟨depth, hblock⟩, hfamily, ?_, ?_, ?_, ?_, ?_, hcached⟩
  · rw [hnodes, List.length_reverse, pushAll, hempty.2, Int.zero_add]
  · rw [hnodes, List.length_reverse]
    exact (List.length_filter_le p b.nodes).trans hok.room
  · rw [hnodes, List.map_reverse, List.nodup_reverse]
    exact hok.nodup.sublist (List.filter_sublist.map Node.id)
  · intro n hn
    exact hp n (hmem hn).1 (hmem hn).2
  · intro n hn
    exact hok.nodes n (hmem hn).1

theorem lowerHalf_ok {depth : Nat} {myid : Hash} (hok : BucketOk myid af b lo hi)
    (hblock : Block 160 depth lo mid) : BucketOk myid af (lowerHalf b mid) lo mid := by
  have hp : ∀ n ∈ b.nodes, decide (value n.id < mid) = true → lo ≤ value n.id ∧ value n.id < mid :=
    fun n hn hlt => ⟨(hok.range n hn).1, of_decide_eq_true hlt⟩
  exact pushAll_ok hok hp hok.first hblock hok.family hok.cached ⟨rfl, rfl⟩

theorem upperHalf_ok {depth : Nat} {myid newId : Hash} (hok : BucketOk myid af b lo hi)
    (hblock : Block 160 depth (value newId) hi) : BucketOk myid af (upperHalf b newId) (value newId) hi := by
  have hp : ∀ n ∈ b.nodes, decide (value newId ≤ value n.id) = true →
      value newId ≤ value n.id ∧ value n.id < hi :=
    fun n hn hle => ⟨of_decide_eq_true hle, (hok.range n hn).2⟩
  have hcached : ∀ sa, (b.behind newId).cached = some sa → sa.family = af ∧ isMartian sa = false := by
    intro sa hsome
    cases hsome
  exact pushAll_ok hok hp rfl hblock hok.family hcached ⟨rfl, rfl⟩

end Tables

end CLibp2p.Routing.Dht
