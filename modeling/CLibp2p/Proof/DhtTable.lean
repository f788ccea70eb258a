import CLibp2p.Proof.DhtIds
import CLibp2p.Routing.Dht.Table

/-!
# The routing table is a tiling

The buckets of a family lie end to end over all ids and each is for a dyadic block of them. A split cuts
a block in half and leaves every node in the half that it belongs to.
-/

namespace CLibp2p.Routing.Dht

open Duplex Machine Dyadic

/-! ### Finding a bucket -/

/-- The ids from `lo` up to `hi` are those that the bucket is for. -/
def Bounds (b : Bucket) (lo hi : Nat) : Prop := value b.first = lo ∧ lo < hi

theorem findBucketFrom_eq_locate (id : Hash) (before cells : List Bucket) :
    findBucketFrom id before cells = locate (fun b : Bucket => value b.first) (value id) before cells := by
  induction cells generalizing before with
  | nil => rw [findBucketFrom, locate]
  | cons b cells ih =>
      cases cells with
      | nil => rw [findBucketFrom, locate]
      | cons next rest =>
          rw [findBucketFrom, locate]
          by_cases hkey : idCmp id next.first = .lt
          · have hless : value id < value next.first := idCmp_lt_iff.mp hkey
            rw [if_pos hkey, if_pos hless]
          · have hless : ¬value id < value next.first := mt idCmp_lt_iff.mpr hkey
            rw [if_neg hkey, if_neg hless, ih]

theorem endOf_nextFirst {c : Cursor Bucket} {hi : Nat} (hafter : Tiled Bounds hi (2 ^ 160) c.after) :
    endOf (nextFirst c) = hi := by
  obtain ⟨before, here, after⟩ := c
  cases after with
  | nil =>
      rw [tiled_nil] at hafter
      rw [hafter, nextFirst, List.head?_nil, Option.map_none, endOf_none]
  | cons next rest =>
      obtain ⟨mid, ⟨hfirst, -⟩, -⟩ := tiled_cons.mp hafter
      rw [nextFirst, List.head?_cons, Option.map_some, endOf_some, hfirst]

theorem inBucket_iff {id : Hash} {c : Cursor Bucket} :
    inBucket id c = true ↔ value c.here.first ≤ value id ∧ value id < endOf (nextFirst c) := by
  rw [inBucket, Bool.and_eq_true, bne_iff_ne, idCmp_le_iff]
  apply and_congr_right
  intro _
  cases nextFirst c with
  | none => exact iff_of_true rfl (endOf_none ▸ value_lt id)
  | some next => rw [beq_iff_eq, idCmp_lt_iff, endOf_some]

/-- A place is the one for an id if the id is in its range. -/
theorem placed_iff {id : Hash} {c : Cursor Bucket} (htiled : Tiled Bounds 0 (2 ^ 160) c.close) :
    Placed Bounds 0 (2 ^ 160) (value id) c ↔ inBucket id c = true := by
  obtain ⟨lo, hi, hbefore, hhere, hafter⟩ := tiled_close.mp htiled
  rw [inBucket_iff, endOf_nextFirst hafter, hhere.1]
  constructor
  · rintro ⟨a, b, -, hhere', hafter', hkey⟩
    have hlo : lo = a := hhere.1.symm.trans hhere'.1
    have hhi : hi = b := (endOf_nextFirst hafter).symm.trans (endOf_nextFirst hafter')
    rwa [hlo, hhi]
  · intro hkey
    exact ⟨lo, hi, hbefore, hhere, hafter, hkey⟩

theorem findBucketFrom_spec {id : Hash} {cells : List Bucket} (htiled : Tiled Bounds 0 (2 ^ 160) cells) :
    ∃ c, findBucketFrom id [] cells = some c ∧ c.close = cells ∧ Placed Bounds 0 (2 ^ 160) (value id) c := by
  have hnil : Tiled Bounds 0 0 [] := rfl
  obtain ⟨c, hlocate, hplaced⟩ :=
    locate_spec (fun _ _ _ h => h) hnil htiled (Nat.zero_le (value id)) (value_lt id)
  refine ⟨c, (findBucketFrom_eq_locate id [] cells).trans hlocate, ?_, hplaced⟩
  rw [locate_close hlocate, List.nil_append]

/-- Where a place is known to be the one for an id, it is the one that is found. -/
theorem findBucketFrom_of_placed {id : Hash} {c : Cursor Bucket}
    (hplaced : Placed Bounds 0 (2 ^ 160) (value id) c) : findBucketFrom id [] c.close = some c := by
  have htiled : Tiled Bounds 0 (2 ^ 160) c.close := by
    obtain ⟨a, b, hbefore, hhere, hafter, -⟩ := hplaced
    exact tiled_close.mpr ⟨a, b, hbefore, hhere, hafter⟩
  obtain ⟨d, hfind, hclose, hplaced'⟩ := @findBucketFrom_spec id _ htiled
  rw [hfind, hplaced'.unique (fun _ _ _ h => h) hplaced hclose]

/-! ### The invariant -/

/-- What a node of a table is: on its way to somewhere, of the family of the table, and not ourselves. -/
structure NodeOk (myid : Hash) (af : Family) (n : Node) : Prop where
  other : n.id ≠ myid
  family : n.ss.family = af
  reach : isMartian n.ss = false

/-- What a bucket of a table is, in the range that it is for. -/
structure BucketOk (myid : Hash) (af : Family) (b : Bucket) (lo hi : Nat) : Prop where
  first : value b.first = lo
  block : ∃ depth, Block 160 depth lo hi
  family : b.af = af
  counted : b.count = b.nodes.length
  room : b.nodes.length ≤ 8
  nodup : (b.nodes.map Node.id).Nodup
  range : ∀ n ∈ b.nodes, lo ≤ value n.id ∧ value n.id < hi
  nodes : ∀ n ∈ b.nodes, NodeOk myid af n
  cached : ∀ sa, b.cached = some sa → sa.family = af ∧ isMartian sa = false

/-- There is no table without a socket, and else one that is a tiling of all ids. -/
def TableOk (myid : Hash) (af : Family) (buckets : List Bucket) : Prop :=
  buckets = [] ∨ Tiled (BucketOk myid af) 0 (2 ^ 160) buckets

def Tables.Ok (r : Tables) : Prop := ∀ af, TableOk r.myid af (r.table af)

variable {myid : Hash} {af : Family}

theorem BucketOk.bounds {b : Bucket} {lo hi : Nat} (hok : BucketOk myid af b lo hi) : Bounds b lo hi := by
  obtain ⟨depth, hblock⟩ := hok.block
  exact ⟨hok.first, hblock.lo_lt_hi⟩

theorem tiled_bounds {buckets : List Bucket} {lo hi : Nat}
    (htiled : Tiled (BucketOk myid af) lo hi buckets) : Tiled Bounds lo hi buckets :=
  htiled.mono fun _ _ _ hok => hok.bounds

/-! ### Tables and their places -/

namespace Tables

variable {r : Tables} {id : Hash} {c : Cursor Bucket}

@[simp] theorem table_setTable (r : Tables) (af : Family) (buckets : List Bucket) :
    (r.setTable af buckets).table af = buckets := by
  cases af with
  | inet => rfl
  | inet6 => rfl

theorem table_setTable_of_ne {af' : Family} (hne : af' ≠ af) (r : Tables) (buckets : List Bucket) :
    (r.setTable af buckets).table af' = r.table af' := by
  cases af with
  | inet =>
      cases af' with
      | inet => exact absurd rfl hne
      | inet6 => rfl
  | inet6 =>
      cases af' with
      | inet => rfl
      | inet6 => exact absurd rfl hne

@[simp] theorem myid_setTable (r : Tables) (af : Family) (buckets : List Bucket) :
    (r.setTable af buckets).myid = r.myid := by
  cases af with
  | inet => rfl
  | inet6 => rfl

@[simp] theorem now_setTable (r : Tables) (af : Family) (buckets : List Bucket) :
    (r.setTable af buckets).now = r.now := by
  cases af with
  | inet => rfl
  | inet6 => rfl

@[simp] theorem toOutbound_setTable (r : Tables) (af : Family) (buckets : List Bucket) :
    (r.setTable af buckets).toOutbound = r.toOutbound := by
  cases af with
  | inet => rfl
  | inet6 => rfl

theorem setTable_setTable (r : Tables) (af : Family) (buckets buckets' : List Bucket) :
    (r.setTable af buckets).setTable af buckets' = r.setTable af buckets' := by
  cases af with
  | inet => rfl
  | inet6 => rfl

/-- The place of an id, and what the invariant says around it. -/
structure At (r : Tables) (af : Family) (c : Cursor Bucket) (lo hi : Nat) : Prop where
  close : c.close = r.table af
  before : Tiled (BucketOk r.myid af) 0 lo c.before
  here : BucketOk r.myid af c.here lo hi
  after : Tiled (BucketOk r.myid af) hi (2 ^ 160) c.after

theorem At.placed {lo hi : Nat} (hat : r.At af c lo hi) (hkey : lo ≤ value id ∧ value id < hi) :
    Placed Bounds 0 (2 ^ 160) (value id) c :=
  ⟨lo, hi, tiled_bounds hat.before, hat.here.bounds, tiled_bounds hat.after, hkey⟩

theorem At.endOf {lo hi : Nat} (hat : r.At af c lo hi) : endOf (nextFirst c) = hi :=
  endOf_nextFirst (tiled_bounds hat.after)

theorem At.inBucket_iff {lo hi : Nat} (hat : r.At af c lo hi) :
    inBucket id c = true ↔ lo ≤ value id ∧ value id < hi := by
  rw [Dht.inBucket_iff, hat.endOf, hat.here.first]

theorem findBucket_none (hfind : r.findBucket id af = none) : r.table af = [] := by
  rw [findBucket, findBucketFrom_eq_locate] at hfind
  exact locate_eq_none_iff.mp hfind

/-- **Every id has its bucket**, and `find_bucket` finds it. -/
theorem findBucket_some (hok : r.Ok) (hfind : r.findBucket id af = some c) :
    ∃ lo hi, r.At af c lo hi ∧ lo ≤ value id ∧ value id < hi := by
  rw [findBucket] at hfind
  rcases hok af with hnone | htiled
  · rw [hnone, findBucketFrom] at hfind
    cases hfind
  · obtain ⟨d, hfind', hclose, hplaced⟩ := @findBucketFrom_spec id _ (tiled_bounds htiled)
    obtain rfl : d = c := Option.some.inj (hfind'.symm.trans hfind)
    rw [← hclose] at htiled
    obtain ⟨lo, hi, hbefore, hhere, hafter⟩ := tiled_close.mp htiled
    have hat : r.At af d lo hi := ⟨hclose, hbefore, hhere, hafter⟩
    refine ⟨lo, hi, hat, ?_⟩
    exact hat.inBucket_iff.mp ((placed_iff (tiled_bounds htiled)).mp hplaced)

theorem At.findBucket {lo hi : Nat} (hat : r.At af c lo hi) (hkey : lo ≤ value id ∧ value id < hi) :
    r.findBucket id af = some c := by
  rw [Tables.findBucket, ← hat.close]
  exact findBucketFrom_of_placed (hat.placed hkey)

/-- A table may change into another that is as it should be. -/
theorem Ok.setTable (hok : r.Ok) {buckets : List Bucket} (hbuckets : TableOk r.myid af buckets) :
    (r.setTable af buckets).Ok := by
  intro af'
  rw [myid_setTable]
  by_cases hsame : af' = af
  · rw [hsame, table_setTable]
    exact hbuckets
  · rw [table_setTable_of_ne hsame]
    exact hok af'

theorem Ok.congr {r' : Tables} (hok : r.Ok) (htable : ∀ af, r'.table af = r.table af)
    (hmyid : r'.myid = r.myid) : r'.Ok := by
  intro af
  rw [htable, hmyid]
  exact hok af

theorem At.congr {r' : Tables} {lo hi : Nat} (hat : r.At af c lo hi) (htable : r'.table af = r.table af)
    (hmyid : r'.myid = r.myid) : r'.At af c lo hi := by
  refine ⟨hat.close.trans htable.symm, ?_, ?_, ?_⟩
  all_goals rw [hmyid]
  · exact hat.before
  · exact hat.here
  · exact hat.after

theorem At.tableOk_put {lo hi : Nat} (hat : r.At af c lo hi) {b : Bucket}
    (hb : BucketOk r.myid af b lo hi) : TableOk r.myid af { c with here := b }.close :=
  Or.inr (tiled_close.mpr ⟨lo, hi, hat.before, hb, hat.after⟩)

theorem Ok.put (hok : r.Ok) {lo hi : Nat} (hat : r.At af c lo hi) {b : Bucket}
    (hb : BucketOk r.myid af b lo hi) : (r.put af c b).Ok :=
  hok.setTable (hat.tableOk_put hb)

theorem At.put {lo hi : Nat} (hat : r.At af c lo hi) {b : Bucket} (hb : BucketOk r.myid af b lo hi) :
    (r.put af c b).At af { c with here := b } lo hi := by
  refine ⟨?_, ?_, ?_, ?_⟩
  · rw [Tables.put, table_setTable]
  all_goals rw [Tables.put, myid_setTable]
  · exact hat.before
  · exact hb
  · exact hat.after

end Tables

end CLibp2p.Routing.Dht
