import CLibp2p.Proof.DhtNewNode
import CLibp2p.Routing.Dht.Maintenance
import CLibp2p.Routing.Dht.Search

/-!
# Pings, expiry and maintenance keep the table a tiling
-/

namespace CLibp2p.Routing.Dht

open Duplex Machine Dyadic

namespace Tables

variable {r r' r'' : Tables} {af : Family} {c : Cursor Bucket} {lo hi : Nat}

/-- The tables after a function that neither takes nodes in nor moves them: they are as they should be. -/
structure Follows (r r' : Tables) : Prop where
  ok : r'.Ok
  now : r'.now = r.now
  sends : Sends r.toOutbound r'.toOutbound
  timer : r'.expireStuffTime = r.expireStuffTime

theorem Follows.myid (h : Follows r r') : r'.myid = r.myid := h.sends.myid

theorem Follows.trans (h : Follows r r') (h' : Follows r' r'') : Follows r r'' :=
  ⟨h'.ok, h'.now.trans h.now, h.sends.trans h'.sends, h'.timer.trans h.timer⟩

theorem Follows.refl (hok : r.Ok) : Follows r r := ⟨hok, rfl, Sends.refl _, rfl⟩

theorem follows_sends (hok : r.Ok) {o : Outbound} (hsends : Sends r.toOutbound o) :
    Follows r { r with toOutbound := o } :=
  ⟨hok.congr (fun af => table_toOutbound r o af) hsends.myid, rfl, hsends, rfl⟩

theorem follows_setTable (hok : r.Ok) {buckets : List Bucket} (hbuckets : TableOk r.myid af buckets) :
    Follows r (r.setTable af buckets) :=
  ⟨hok.setTable hbuckets, now_setTable r af _, (within_setTable r af _).sends, (within_setTable r af _).timer⟩

theorem follows_put (hok : r.Ok) (hat : r.At af c lo hi) {b : Bucket} (hb : BucketOk r.myid af b lo hi) :
    Follows r (r.put af c b) :=
  follows_setTable hok (hat.tableOk_put hb)

/-! ### Pings -/

theorem follows_sendCachedPingAt (hok : r.Ok) (hat : r.At af c lo hi) :
    Follows r (r.sendCachedPingAt af c) := by
  have hsends : Sends r.toOutbound (sendCachedPing r.toOutbound c.here).1 := sends_sendCachedPing _ _
  have hb : BucketOk r.myid af (sendCachedPing r.toOutbound c.here).2 lo hi := by
    rw [sendCachedPing_bucket]
    exact hat.here.clearCached
  rw [sendCachedPingAt]
  generalize sendCachedPing r.toOutbound c.here = pinged at hsends hb ⊢
  obtain ⟨o, b⟩ := pinged
  have hmyid : o.myid = r.myid := hsends.myid
  have hat' : ({ r with toOutbound := o } : Tables).At af c lo hi := hat.congr (table_toOutbound r o af) hmyid
  have hfollows : Follows r { r with toOutbound := o } := follows_sends hok hsends
  exact hfollows.trans (follows_put hfollows.ok hat' (by rwa [hmyid]))

/-- A ping, or another change of a node that leaves its id and its address alone. -/
theorem follows_pinged (hok : r.Ok) (hat : r.At af c lo hi) (i : Nat) (given : Bool) :
    Follows r (r.pinged af c i given) := by
  have hb : BucketOk r.myid af (c.here.modifyNode i r.countPing) lo hi :=
    hat.here.modifyNode (f := r.countPing) (fun _ => rfl) (fun n hn => countPing_ok hn) i
  have hput : Follows r (r.put af c (c.here.modifyNode i r.countPing)) := follows_put hok hat hb
  rw [pinged]
  split
  · exact hput
  · split
    · exact hput
    · split
      · exact hput.trans (follows_sendCachedPingAt hput.ok (hat.put hb))
      · split
        · exact hput
        · rename_i hfind
          obtain ⟨lo', hi', hat', -⟩ := findBucket_some hput.ok hfind
          exact hput.trans (follows_sendCachedPingAt hput.ok hat')

theorem findNode_some {id : Hash} {i : Nat} (hok : r.Ok) (hfind : r.findNode id af = some (c, i)) :
    ∃ lo hi, r.At af c lo hi ∧ lo ≤ value id ∧ value id < hi ∧ c.here.findIdx id = some i := by
  obtain ⟨d, hbucket, hrest⟩ := Option.bind_eq_some_iff.mp hfind
  obtain ⟨j, hnode, hpair⟩ := Option.bind_eq_some_iff.mp hrest
  obtain ⟨rfl, rfl⟩ : d = c ∧ j = i := by simpa using hpair
  obtain ⟨lo, hi, hat, hlo, hhi⟩ := findBucket_some hok hbucket
  exact ⟨lo, hi, hat, hlo, hhi, hnode⟩

theorem follows_pingedIfKnown (hok : r.Ok) (id : Hash) (af : Family) : Follows r (r.pingedIfKnown id af) := by
  rw [pingedIfKnown]
  split
  · exact Follows.refl hok
  · rename_i hfind
    obtain ⟨lo, hi, hat, -⟩ := findNode_some hok hfind
    exact follows_pinged hok hat _ _

/-! ### Expiry -/

/-- The two loops that unlink what is dead leave exactly the rest. -/
theorem unlinkDead_eq_filter (nodes : List Node) :
    unlinkDead (nodes.dropWhile dead) = nodes.filter fun n => !dead n := by
  induction nodes with
  | nil => rw [List.dropWhile_nil, unlinkDead, List.filter_nil]
  | cons n nodes ih =>
      cases hdead : dead n with
      | true => rw [List.dropWhile_cons_of_pos hdead, ih, List.filter_cons_of_neg (by simp [hdead])]
      | false =>
          have hnot : ¬dead n = true := by simp [hdead]
          rw [List.dropWhile_cons_of_neg hnot, unlinkDead, ih, List.filter_cons_of_pos (by simp [hdead])]

theorem expireBucket_spec {o : Outbound} {myid : Hash} {b : Bucket} (hb : BucketOk myid af b lo hi) :
    Sends o (expireBucket o b).1 ∧ BucketOk myid af (expireBucket o b).2 lo hi ∧
      (expireBucket o b).2.nodes = b.nodes.filter fun n => !dead n := by
  have hnodes : unlinkDead (b.nodes.dropWhile dead) = b.nodes.filter fun n => !dead n :=
    unlinkDead_eq_filter b.nodes
  have hle : (b.nodes.filter fun n => !dead n).length ≤ b.nodes.length := List.length_filter_le _ _
  have hok : BucketOk myid af
      { b with
        nodes := b.nodes.filter fun n => !dead n
        count := b.count - (b.nodes.length - (b.nodes.filter fun n => !dead n).length : Nat) } lo hi := by
    have hcounted : b.count = b.nodes.length := hb.counted
    refine { hb with counted := ?_, room := ?_, nodup := ?_, range := ?_, nodes := ?_ }
    · dsimp only
      omega
    · exact hle.trans hb.room
    · exact hb.nodup.sublist (List.filter_sublist.map Node.id)
    · exact fun n hn => hb.range n (List.mem_of_mem_filter hn)
    · exact fun n hn => hb.nodes n (List.mem_of_mem_filter hn)
  rw [expireBucket, hnodes]
  split
  · refine ⟨sends_sendCachedPing _ _, ?_, ?_⟩
    · rw [sendCachedPing_bucket]
      exact hok.clearCached
    · rw [sendCachedPing_bucket]
  · exact ⟨Sends.refl _, hok, rfl⟩

theorem expireFrom_spec {o : Outbound} {myid : Hash} {buckets : List Bucket}
    (htiled : Tiled (BucketOk myid af) lo hi buckets) :
    Sends o (expireFrom o buckets).1 ∧ Tiled (BucketOk myid af) lo hi (expireFrom o buckets).2 ∧
      nodesOf (expireFrom o buckets).2 = (nodesOf buckets).filter fun n => !dead n := by
  induction buckets generalizing lo o with
  | nil => exact ⟨Sends.refl o, htiled, rfl⟩
  | cons b rest ih =>
      obtain ⟨mid, hb, hrest⟩ := htiled
      obtain ⟨hsends, hb', hnodes⟩ := @expireBucket_spec af lo mid o myid b hb
      obtain ⟨hsends', hrest', hnodes'⟩ := @ih mid (expireBucket o b).1 hrest
      refine ⟨hsends.trans hsends', ⟨mid, hb', hrest'⟩, ?_⟩
      rw [expireFrom, nodesOf_cons, nodesOf_cons, hnodes, hnodes', List.filter_append]

theorem table_expireStuffTime (r : Tables) (time : Int) (af : Family) :
    ({ r with expireStuffTime := time } : Tables).table af = r.table af := by
  cases af with
  | inet => rfl
  | inet6 => rfl

/-- The tables after an expiry, which is due again in two to six minutes. -/
structure Expires (r r' : Tables) : Prop where
  ok : r'.Ok
  now : r'.now = r.now
  sends : Sends r.toOutbound r'.toOutbound
  early : r.now + 120 ≤ r'.expireStuffTime
  late : r'.expireStuffTime < r.now + 360

theorem Expires.trans (h : Expires r r') (h' : Expires r' r'') : Expires r r'' :=
  ⟨h'.ok, h'.now.trans h.now, h.sends.trans h'.sends, h.now ▸ h'.early, h.now ▸ h'.late⟩

/-- **Expiry takes out exactly the nodes that did not answer four requests.** -/
theorem expireBuckets_spec (hok : r.Ok) (af : Family) :
    Expires r (r.expireBuckets af) ∧ ((r.expireBuckets af).nodes af = (r.nodes af).filter fun n => !dead n) ∧
      ∀ af', af' ≠ af → (r.expireBuckets af).table af' = r.table af' := by
  have hspec : Sends r.toOutbound (expireFrom r.toOutbound (r.table af)).1 ∧
      TableOk r.myid af (expireFrom r.toOutbound (r.table af)).2 ∧
      nodesOf (expireFrom r.toOutbound (r.table af)).2 = (nodesOf (r.table af)).filter fun n => !dead n := by
    rcases hok af with hnone | htiled
    · rw [hnone]
      exact ⟨Sends.refl _, Or.inl rfl, rfl⟩
    · obtain ⟨hsends, htiled', hnodes⟩ := @expireFrom_spec af 0 (2 ^ 160) r.toOutbound r.myid _ htiled
      exact ⟨hsends, Or.inr htiled', hnodes⟩
  rw [expireBuckets]
  generalize expireFrom r.toOutbound (r.table af) = expired at hspec ⊢
  obtain ⟨o, buckets⟩ := expired
  obtain ⟨hsends, htable, hnodes⟩ := hspec
  have hdraw : Follows r { r with toOutbound := o.draw.2 } := follows_sends hok (hsends.trans (sends_draw o))
  have hset : Follows r (({ r with toOutbound := o.draw.2 } : Tables).setTable af buckets) :=
    hdraw.trans (follows_setTable hdraw.ok (by rw [hdraw.myid]; exact htable))
  refine ⟨⟨hset.ok.congr (fun af' => table_expireStuffTime _ _ af') rfl, hset.now, hset.sends, ?_, ?_⟩, ?_,
    fun af' hne => ?_⟩
  · show r.now + 120 ≤ r.now + 120 + (o.draw.1 % 240 : Nat)
    omega
  · show r.now + 120 + (o.draw.1 % 240 : Nat) < r.now + 360
    omega
  · rw [nodes, table_expireStuffTime, table_setTable, hnodes, nodes]
  · rw [table_expireStuffTime, table_setTable_of_ne hne, table_toOutbound]

/-! ### Maintenance -/

/-- Random numbers were drawn, and nothing else happened. -/
def Draws (r r' : Tables) : Prop := ∃ random, r' = { r with random := random }

theorem Draws.refl (r : Tables) : Draws r r := ⟨r.random, rfl⟩

theorem Draws.trans (h : Draws r r') (h' : Draws r' r'') : Draws r r'' := by
  obtain ⟨random, rfl⟩ := h
  obtain ⟨random', rfl⟩ := h'
  exact ⟨random', rfl⟩

theorem Draws.table (h : Draws r r') (af : Family) : r'.table af = r.table af := by
  obtain ⟨random, rfl⟩ := h
  cases af with
  | inet => rfl
  | inet6 => rfl

theorem Draws.follows (h : Draws r r') (hok : r.Ok) : Follows r r' := by
  have htable := h.table
  obtain ⟨random, rfl⟩ := h
  exact ⟨hok.congr htable rfl, rfl, ⟨[], random, List.forall_mem_nil _, by rw [List.append_nil]⟩, rfl⟩

theorem draws_draw (r : Tables) : Draws r r.draw.2 := ⟨_, rfl⟩

theorem draws_oneInEight (r : Tables) : Draws r r.oneInEight.2 := draws_draw r

theorem draws_randomNode (r : Tables) (b : Bucket) : Draws r (r.randomNode b).2 := by
  rw [randomNode]
  split
  · exact Draws.refl r
  · exact draws_draw r

theorem draws_bucketRandomAt (r : Tables) (c : Cursor Bucket) : Draws r (r.bucketRandomAt c).2 := ⟨_, rfl⟩

theorem draws_wantBoth (r : Tables) (af : Family) (id : Hash) : Draws r (r.wantBoth af id).2 := by
  rw [wantBoth]
  split
  · split
    · exact Draws.refl r
    · exact draws_draw r
  · exact Draws.refl r

/-- Every place of a table has its range. -/
theorem at_of_close (hok : r.Ok) (hclose : c.close = r.table af) : ∃ lo hi, r.At af c lo hi := by
  rcases hok af with hnone | htiled
  · rw [hnone, Cursor.close] at hclose
    cases List.append_eq_nil_iff.mp hclose |>.2
  · rw [← hclose] at htiled
    obtain ⟨lo, hi, hbefore, hhere, hafter⟩ := tiled_close.mp htiled
    exact ⟨lo, hi, hclose, hbefore, hhere, hafter⟩

theorem close_nextBucket {d : Cursor Bucket} (hnext : nextBucket c = some d) : d.close = c.close := by
  rw [nextBucket] at hnext
  split at hnext
  · cases hnext
  · rename_i next rest hafter
    obtain rfl := Option.some.inj hnext
    rw [Cursor.close, Cursor.close, hafter, List.append_assoc, List.singleton_append]

theorem close_previousBucket {d : Cursor Bucket} (hprevious : previousBucket c = some d) :
    d.close = c.close := by
  obtain ⟨p, hp, rfl⟩ := Option.map_eq_some_iff.mp hprevious
  have hbefore : c.before.dropLast ++ [p] = c.before := List.dropLast_append_getLast? p hp
  rw [Cursor.close, Cursor.close, ← hbefore, List.append_assoc, List.singleton_append, hbefore]

theorem orNext_spec (r : Tables) (c : Cursor Bucket) :
    Draws r (r.orNext c).2 ∧ (r.orNext c).1.close = c.close := by
  rw [orNext]
  split
  · exact ⟨Draws.refl r, rfl⟩
  · rename_i hnext
    split
    · exact ⟨Draws.refl r, close_nextBucket hnext⟩
    · split
      · exact ⟨draws_oneInEight r, close_nextBucket hnext⟩
      · exact ⟨draws_oneInEight r, rfl⟩

theorem orPrevious_spec (r : Tables) {c q : Cursor Bucket} (hclose : q.close = c.close) :
    Draws r (r.orPrevious c q).2 ∧ (r.orPrevious c q).1.close = c.close := by
  have hlook : Draws r (if q.here.count = 0 then (true, r) else r.oneInEight).2 := by
    split
    · exact Draws.refl r
    · exact draws_oneInEight r
  rw [orPrevious]
  generalize (if q.here.count = 0 then (true, r) else r.oneInEight) = looked at hlook ⊢
  dsimp only
  split
  · exact ⟨hlook, hclose⟩
  · rename_i hprevious
    split
    · exact ⟨hlook, close_previousBucket hprevious⟩
    · exact ⟨hlook, hclose⟩

theorem neighbour_spec (r : Tables) (c : Cursor Bucket) :
    Draws r (r.neighbour c).2 ∧ (r.neighbour c).1.close = c.close := by
  obtain ⟨hdraws, hclose⟩ := r.orNext_spec c
  obtain ⟨hdraws', hclose'⟩ := (r.orNext c).2.orPrevious_spec hclose
  exact ⟨hdraws.trans hdraws', hclose'⟩

theorem follows_askNode (hok : r.Ok) {q : Cursor Bucket} (hclose : q.close = r.table af) (i : Nat) (id : Hash)
    (want : Want) : Follows r (r.askNode af q i id want) := by
  rw [askNode]
  split
  · exact Follows.refl hok
  · rename_i n _
    have hsend : Follows r { r with toOutbound := r.sendFindNode n.ss (makeTid "fn" 0) id want } :=
      follows_sends hok (sends_transmit _ _ _ _)
    obtain ⟨lo, hi, hat⟩ := at_of_close hsend.ok (hclose.trans (table_toOutbound r _ af).symm)
    exact hsend.trans (follows_pinged hsend.ok hat i true)

theorem follows_neighbourhoodMaintenance (hok : r.Ok) (af : Family) :
    Follows r (r.neighbourhoodMaintenance af).1 := by
  rw [neighbourhoodMaintenance]
  split
  · exact Follows.refl hok
  · rename_i c hfind
    obtain ⟨lo, hi, hat, -⟩ := findBucket_some hok hfind
    obtain ⟨hneighbour, hclose⟩ := r.draw.2.neighbour_spec c
    have hnode := draws_randomNode (r.draw.2.neighbour c).2 (r.draw.2.neighbour c).1.here
    have hdraws := ((draws_draw r).trans hneighbour).trans hnode
    dsimp only
    split
    · rename_i r' hrandom
      rw [hrandom] at hdraws
      exact hdraws.follows hok
    · rename_i i r' hrandom
      rw [hrandom] at hdraws
      have hfollows : Follows r r' := hdraws.follows hok
      have hclose' : (r.draw.2.neighbour c).1.close = r'.table af :=
        hclose.trans (hat.close.trans (hdraws.table af).symm)
      exact hfollows.trans (follows_askNode hfollows.ok hclose' i _ _)

theorem follows_maintenanceFrom (hok : r.Ok) {before rest : List Bucket}
    (htable : before ++ rest = r.table af) : Follows r (maintenanceFrom af before rest r).1 := by
  induction rest generalizing r before with
  | nil => exact Follows.refl hok
  | cons b rest ih =>
      have hnext : ∀ r', Draws r r' → Follows r (maintenanceFrom af (before ++ [b]) rest r').1 := by
        intro r' hdraws
        have hfollows : Follows r r' := hdraws.follows hok
        apply hfollows.trans (ih hfollows.ok _)
        rw [hdraws.table, ← htable, List.append_assoc, List.singleton_append]
      rw [maintenanceFrom]
      split
      · have hid := draws_bucketRandomAt r ⟨before, b, rest⟩
        obtain ⟨hneighbour, hclose⟩ := (r.bucketRandomAt ⟨before, b, rest⟩).2.neighbour_spec ⟨before, b, rest⟩
        have hdraws := (hid.trans hneighbour).trans
          (draws_randomNode _ ((r.bucketRandomAt ⟨before, b, rest⟩).2.neighbour ⟨before, b, rest⟩).1.here)
        dsimp only
        split
        · rename_i r' hrandom
          rw [hrandom] at hdraws
          exact hnext r' hdraws
        · rename_i i r' hrandom
          rw [hrandom] at hdraws
          have hdraws' := hdraws.trans (draws_wantBoth r' af (r.bucketRandomAt ⟨before, b, rest⟩).1)
          have hfollows := hdraws'.follows hok
          apply hfollows.trans (follows_askNode hfollows.ok _ i _ _)
          rw [hdraws'.table, hclose, ← htable]
          rfl
      · exact hnext r (Draws.refl r)

theorem follows_bucketMaintenance (hok : r.Ok) (af : Family) : Follows r (r.bucketMaintenance af).1 :=
  follows_maintenanceFrom hok (List.nil_append _)

end Tables

end CLibp2p.Routing.Dht
