import CLibp2p.Machine.Nearest
import CLibp2p.Proof.DhtMaintenance

/-!
# Searches keep their nodes in order

The nodes of a search are those nearest to its target of all that it was offered, no two of them the same.
Requests and replies change what is known of a node and leave its place alone.
-/

namespace CLibp2p.Routing.Dht

open Duplex Machine Dyadic

/-- What a node of a search is. The struct has room for 40 bytes of a token. -/
structure SearchNodeOk (myid : Hash) (af : Family) (n : SearchNode) : Prop where
  other : n.id ≠ myid
  family : n.ss.family = af
  token : n.token.length < 40
  asked : n.pinged ≤ 3

def nearness (target : Hash) (n : SearchNode) : Nat := distance n.id target

structure SearchOk (myid : Hash) (sr : Search) : Prop where
  sorted : SortedBy (nearness sr.id) sr.nodes
  room : sr.nodes.length ≤ searchNodes
  nodes : ∀ n ∈ sr.nodes, SearchNodeOk myid sr.af n

namespace Search

variable {sr sr' : Search} {r r' : Tables} {myid id : Hash} {sa : SockAddr} {now : Int}

theorem ok_of_nodes {nodes : List SearchNode} (hsorted : SortedBy (nearness sr.id) nodes)
    (hroom : nodes.length ≤ searchNodes) (hnodes : ∀ n ∈ nodes, SearchNodeOk myid sr.af n) :
    SearchOk myid { sr with nodes := nodes } := ⟨hsorted, hroom, hnodes⟩

/-! ### Offers -/

theorem found_id (n : SearchNode) (now : Int) (sa : SockAddr) (replied : Bool) (token : Option Bytes) :
    (n.found now sa replied token).id = n.id := by
  unfold SearchNode.found
  cases replied <;> cases token <;> simp [apply_ite SearchNode.id]

theorem found_ok {af : Family} {n : SearchNode} (hother : n.id ≠ myid) (htoken : n.token.length < 40)
    (hasked : n.pinged ≤ 3) (hfamily : sa.family = af) (now : Int) (replied : Bool) (token : Option Bytes) :
    SearchNodeOk myid af (n.found now sa replied token) := by
  have hreplied : SearchNodeOk myid af
      (if replied then { { n with ss := sa } with
        replied := true, replyTime := now, requestTime := 0, pinged := 0 } else { n with ss := sa }) := by
    split
    · exact ⟨hother, hfamily, htoken, Nat.zero_le 3⟩
    · exact ⟨hother, hfamily, htoken, hasked⟩
  unfold SearchNode.found
  cases token with
  | none => exact hreplied
  | some token =>
      dsimp only
      split
      · exact hreplied
      · rename_i hshort
        exact ⟨hreplied.other, hreplied.family, not_le.mp hshort, hreplied.asked⟩

theorem stops_iff (target : Hash) (n : SearchNode) :
    (decide (idCmp id n.id = .eq) || decide (xorcmp id n.id target = .lt)) =
      decide (distance id target ≤ nearness target n) := by
  rw [Bool.eq_iff_iff, Bool.or_eq_true, decide_eq_true_iff, decide_eq_true_iff, decide_eq_true_iff,
    idCmp_eq_iff, xorcmp_lt_iff, nearness, le_iff_eq_or_lt, (distance_left_injective target).eq_iff]

/-- An insertion is an offer, for a node of the right family. -/
theorem insertSearchNode_eq (hfamily : sa.family = sr.af) (now : Int) (id : Hash) (replied : Bool)
    (token : Option Bytes) :
    sr.insertSearchNode now id sa replied token =
      { sr with
        nodes := offer (nearness sr.id) searchNodes
          (fun n => (n.getD (SearchNode.blank id sa)).found now sa replied token) (distance id sr.id) sr.nodes } := by
  have hstop : (fun n : SearchNode => decide (idCmp id n.id = .eq) || decide (xorcmp id n.id sr.id = .lt)) =
      fun n => decide (distance id sr.id ≤ nearness sr.id n) := by
    funext n
    exact stops_iff sr.id n
  have hsame : ∀ n : SearchNode, idCmp id n.id = .eq ↔ nearness sr.id n = distance id sr.id := by
    intro n
    rw [idCmp_eq_iff, nearness, (distance_left_injective sr.id).eq_iff, eq_comm]
  rw [insertSearchNode, offer, if_neg (not_not.mpr hfamily), hstop]
  generalize (sr.nodes.findIdx fun n => decide (distance id sr.id ≤ nearness sr.id n)) = stop
  cases hget : sr.nodes[stop]? with
  | some n =>
      by_cases hid : idCmp id n.id = .eq
      · simp only [hget, hid, (hsame n).mp hid, if_true, Option.getD_some]
      · simp only [hget, hid, mt (hsame n).mpr hid, if_false, Option.getD_none]
  | none =>
      by_cases hfull : stop = searchNodes
      · rw [hfull] at hget ⊢
        simp only [hget, if_true]
      · simp only [hget, hfull, if_false, Option.getD_none]

theorem insertSearchNode_of_ne (hfamily : sa.family ≠ sr.af) (now : Int) (id : Hash) (replied : Bool)
    (token : Option Bytes) : sr.insertSearchNode now id sa replied token = sr := by
  rw [insertSearchNode, if_pos hfamily]

/-- The search is still the one for this id. -/
structure Kin (sr sr' : Search) : Prop where
  id : sr'.id = sr.id
  af : sr'.af = sr.af

theorem Kin.refl (sr : Search) : Kin sr sr := ⟨rfl, rfl⟩

theorem Kin.trans {sr'' : Search} (h : Kin sr sr') (h' : Kin sr' sr'') : Kin sr sr'' :=
  ⟨h'.id.trans h.id, h'.af.trans h.af⟩

theorem itemFor_found (target id : Hash) (sa : SockAddr) (now : Int) (replied : Bool) (token : Option Bytes) :
    ItemFor (nearness target) (fun n => (n.getD (SearchNode.blank id sa)).found now sa replied token)
      (distance id target) := by
  refine ⟨?_, fun n hn => ?_⟩
  · rw [nearness, found_id]
    rfl
  · rwa [nearness, found_id]

theorem ok_insertSearchNode (hok : SearchOk myid sr) (hother : id ≠ myid) (now : Int) (sa : SockAddr)
    (replied : Bool) (token : Option Bytes) :
    SearchOk myid (sr.insertSearchNode now id sa replied token) ∧
      Kin sr (sr.insertSearchNode now id sa replied token) := by
  by_cases hfamily : sa.family = sr.af
  · rw [insertSearchNode_eq hfamily]
    refine ⟨ok_of_nodes ?_ ?_ ?_, rfl, rfl⟩
    · exact sortedBy_offer hok.sorted hok.room (itemFor_found sr.id id sa now replied token)
    · exact length_offer_le hok.sorted hok.room
    · apply forall_offer hok.sorted hok.room hok.nodes
      · intro b hb _
        have hb' : SearchNodeOk myid sr.af b := hok.nodes b hb
        exact found_ok hb'.other hb'.token hb'.asked hfamily now replied token
      · have htoken : (SearchNode.blank id sa).token.length < 40 := Nat.zero_lt_succ 39
        exact found_ok (n := SearchNode.blank id sa) hother htoken (Nat.zero_le 3) hfamily now replied token
  · rw [insertSearchNode_of_ne hfamily]
    exact ⟨hok, Kin.refl sr⟩

theorem ok_insertSearchBucket (hok : SearchOk myid sr) {b : Bucket} (hb : ∀ n ∈ b.nodes, n.id ≠ myid) (now : Int) :
    SearchOk myid (sr.insertSearchBucket now b) ∧ Kin sr (sr.insertSearchBucket now b) := by
  rw [insertSearchBucket]
  generalize b.nodes = nodes at hb ⊢
  induction nodes generalizing sr with
  | nil => exact ⟨hok, Kin.refl sr⟩
  | cons n nodes ih =>
      obtain ⟨hn, hrest⟩ := List.forall_mem_cons.mp hb
      obtain ⟨hok', hkin⟩ := ok_insertSearchNode hok hn now n.ss false none
      obtain ⟨hok'', hkin'⟩ := ih hok' hrest
      exact ⟨hok'', hkin.trans hkin'⟩

/-! ### Nodes that go -/

theorem ok_sublist (hok : SearchOk myid sr) {nodes : List SearchNode} (hsub : nodes.Sublist sr.nodes) :
    SearchOk myid { sr with nodes := nodes } :=
  ⟨hok.sorted.sublist hsub, hsub.length_le.trans hok.room, fun n hn => hok.nodes n (hsub.subset hn)⟩

theorem discard_spec (id : Hash) (i : Nat) (sr : Search) :
    ∃ nodes, discard id i sr = { sr with nodes := nodes } ∧ nodes.Sublist sr.nodes := by
  fun_induction discard id i sr with
  | case1 i sr hget => exact ⟨sr.nodes, rfl, List.Sublist.refl _⟩
  | case2 i sr n hget hid ih =>
      obtain ⟨nodes, heq, hsub⟩ := ih
      exact ⟨nodes, heq, hsub.trans (List.eraseIdx_sublist _ _)⟩
  | case3 i sr n hget hid ih => exact ih

theorem ok_discard (hok : SearchOk myid sr) (id : Hash) (i : Nat) :
    SearchOk myid (discard id i sr) ∧ Kin sr (discard id i sr) := by
  obtain ⟨nodes, heq, hsub⟩ := discard_spec id i sr
  rw [heq]
  exact ⟨ok_sublist hok hsub, rfl, rfl⟩

theorem doubtful_renew {n : SearchNode} (hn : doubtful now n = false) : doubtful now (renew n) = false := by
  rw [doubtful, Bool.or_eq_false_iff] at hn ⊢
  exact ⟨by rw [renew]; rfl, hn.2⟩

/-- **Starting over after each doubtful node takes out exactly those**, and forgets what was asked of the
rest. -/
theorem again_eq (now : Int) (nodes : List SearchNode) :
    again now nodes = (nodes.filter fun n => !doubtful now n).map renew := by
  fun_induction again now nodes with
  | case1 nodes hnone =>
      have hkeep : nodes.filter (fun n => !doubtful now n) = nodes := by
        apply List.filter_eq_self.mpr
        intro n hn
        rw [List.findIdx?_eq_none_iff.mp hnone n hn, Bool.not_false]
      rw [hkeep]
  | case2 nodes i hfirst ih =>
      obtain ⟨hi, hdoubt, hbefore⟩ := List.findIdx?_eq_some_iff_getElem.mp hfirst
      have hfront : ∀ n ∈ nodes.take i, doubtful now n = false := by
        intro n hn
        obtain ⟨j, hj, rfl⟩ := List.mem_take_iff_getElem.mp hn
        exact Bool.eq_false_iff.mpr (hbefore j (lt_of_lt_of_le hj (min_le_left _ _)))
      have hlength : ((nodes.take i).map renew).length = i := by
        rw [List.length_map, List.length_take, min_eq_left hi.le]
      have hflushed : ((nodes.take i).map renew ++ nodes.drop i).eraseIdx i =
          (nodes.take i).map renew ++ nodes.drop (i + 1) := by
        rw [List.eraseIdx_append_of_length_le (by rw [hlength]), hlength, Nat.sub_self,
          List.drop_eq_getElem_cons hi, List.eraseIdx_cons_zero]
      have hrenewed : ((nodes.take i).map renew).filter (fun n => !doubtful now n) = (nodes.take i).map renew := by
        apply List.filter_eq_self.mpr
        intro n hn
        obtain ⟨m, hm, rfl⟩ := List.mem_map.mp hn
        rw [doubtful_renew (hfront m hm), Bool.not_false]
      have hkept : (nodes.take i).filter (fun n => !doubtful now n) = nodes.take i := by
        apply List.filter_eq_self.mpr
        intro n hn
        rw [hfront n hn, Bool.not_false]
      have htwice : renew ∘ renew = renew := rfl
      calc again now (((nodes.take i).map renew ++ nodes.drop i).eraseIdx i)
          = ((((nodes.take i).map renew ++ nodes.drop i).eraseIdx i).filter fun n => !doubtful now n).map renew := ih
        _ = (nodes.take i).map renew ++ ((nodes.drop (i + 1)).filter fun n => !doubtful now n).map renew := by
          rw [hflushed, List.filter_append, hrenewed, List.map_append, List.map_map, htwice]
        _ = ((nodes.take i ++ nodes[i] :: nodes.drop (i + 1)).filter fun n => !doubtful now n).map renew := by
          rw [List.filter_append, hkept, List.filter_cons_of_neg (by rw [hdoubt]; exact Bool.false_ne_true),
            List.map_append]
        _ = (nodes.filter fun n => !doubtful now n).map renew := by
          rw [← List.drop_eq_getElem_cons hi, List.take_append_drop]

/-! ### Requests -/

/-- The nodes are those of before, with other counts. -/
theorem ok_withNodes (hok : SearchOk myid sr) {nodes : List SearchNode}
    (hids : nodes.map SearchNode.id = sr.nodes.map SearchNode.id)
    (hnodes : ∀ n ∈ nodes, SearchNodeOk myid sr.af n) : SearchOk myid { sr with nodes := nodes } := by
  have hkeys : nodes.map (nearness sr.id) = sr.nodes.map (nearness sr.id) := by
    have hcomp : nearness sr.id = (fun id => distance id sr.id) ∘ SearchNode.id := rfl
    rw [hcomp, ← List.map_map, ← List.map_map, hids]
  have hlength : nodes.length = sr.nodes.length := by
    rw [← List.length_map (f := SearchNode.id), hids, List.length_map]
  refine ⟨?_, hlength ▸ hok.room, hnodes⟩
  have hsorted := hok.sorted
  rw [SortedBy, ← List.pairwise_map] at hsorted ⊢
  rwa [hkeys]

theorem map_id_set {nodes : List SearchNode} {i : Nat} {n n' : SearchNode} (hget : nodes[i]? = some n)
    (hid : n'.id = n.id) : (nodes.set i n').map SearchNode.id = nodes.map SearchNode.id := by
  obtain ⟨hi, rfl⟩ := List.getElem?_eq_some_iff.mp hget
  rw [List.map_set, hid, ← List.getElem_map SearchNode.id (h := by rwa [List.length_map]), List.set_getElem_self]

theorem ok_set (hok : SearchOk myid sr) {i : Nat} {n n' : SearchNode} (hget : sr.nodes[i]? = some n)
    (hid : n'.id = n.id) (hn' : SearchNodeOk myid sr.af n') :
    SearchOk myid { sr with nodes := sr.nodes.set i n' } := by
  apply ok_withNodes hok (map_id_set hget hid)
  intro m hm
  rcases List.mem_or_eq_of_mem_set hm with hold | rfl
  · exact hok.nodes m hold
  · exact hn'

/-- What a step of a search does to it and to the tables. -/
structure Stepped (myid : Hash) (sr sr' : Search) (r r' : Tables) : Prop where
  ok : SearchOk myid sr'
  kin : Kin sr sr'
  ids : sr'.nodes.map SearchNode.id = sr.nodes.map SearchNode.id
  follows : r.Follows r'

theorem Stepped.trans {sr'' : Search} {r'' : Tables} (h : Stepped myid sr sr' r r')
    (h' : Stepped myid sr' sr'' r' r'') : Stepped myid sr sr'' r r'' :=
  ⟨h'.ok, h.kin.trans h'.kin, h'.ids.trans h.ids, h.follows.trans h'.follows⟩

theorem Stepped.refl (hok : SearchOk myid sr) (hr : r.Ok) : Stepped myid sr sr r r :=
  ⟨hok, Kin.refl sr, rfl, Tables.Follows.refl hr⟩

/-- A request to a node, and the ping that it counts as. -/
theorem follows_request (hr : r.Ok) {o : Outbound} (hsends : Sends r.toOutbound o) (id : Hash) (af : Family) :
    r.Follows (({ r with toOutbound := o } : Tables).pingedIfKnown id af) :=
  (Tables.follows_sends hr hsends).trans
    (Tables.follows_pingedIfKnown (Tables.follows_sends hr hsends).ok id af)

theorem stepped_sendGetPeersTo (hok : SearchOk myid sr) (hr : r.Ok) (i : Nat) :
    Stepped myid sr (sr.sendGetPeersTo r i).1 r (sr.sendGetPeersTo r i).2.1 := by
  rw [sendGetPeersTo]
  split
  · exact Stepped.refl hok hr
  · rename_i n hget
    split
    · exact Stepped.refl hok hr
    · rename_i haskable
      have hn : SearchNodeOk myid sr.af n := hok.nodes n (List.mem_of_getElem? hget)
      have hfew : n.pinged < 3 := by
        rw [Bool.not_eq_true, Bool.not_eq_false', askable, Bool.and_eq_true, Bool.and_eq_true] at haskable
        exact of_decide_eq_true haskable.1.1
      refine ⟨ok_set hok hget rfl ⟨hn.other, hn.family, hn.token, hfew⟩, ⟨rfl, rfl⟩, map_id_set hget rfl, ?_⟩
      exact follows_request hr (sends_transmit _ _ _ _) n.id n.ss.family

theorem stepped_sendGetPeers (hok : SearchOk myid sr) (hr : r.Ok) :
    Stepped myid sr (sr.sendGetPeers r).1 r (sr.sendGetPeers r).2 := by
  rw [sendGetPeers]
  split
  · exact Stepped.refl hok hr
  · exact stepped_sendGetPeersTo hok hr _

theorem stepped_askLoop (hok : SearchOk myid sr) (hr : r.Ok) (places : List Nat) (j : Nat) :
    Stepped myid sr (askLoop places j sr r).1 r (askLoop places j sr r).2 := by
  induction places generalizing sr r j with
  | nil => exact Stepped.refl hok hr
  | cons i places ih =>
      have hstep := stepped_sendGetPeersTo hok hr i
      rw [askLoop]
      dsimp only
      generalize (if (sr.sendGetPeersTo r i).2.2 then j + 1 else j) = asked
      split
      · exact hstep
      · exact hstep.trans (ih hstep.ok hstep.follows.ok _)

/-- What is left of the announcements to a part of the nodes. -/
structure Announced (myid : Hash) (af : Family) (nodes nodes' : List SearchNode) (r r' : Tables) : Prop where
  ids : nodes'.map SearchNode.id = nodes.map SearchNode.id
  ok : ∀ n ∈ nodes', SearchNodeOk myid af n
  follows : r.Follows r'

theorem Announced.cons {af : Family} {nodes nodes' : List SearchNode} {r'' : Tables} {n n' : SearchNode}
    (h : Announced myid af nodes nodes' r' r'') (hid : n'.id = n.id) (hn : SearchNodeOk myid af n')
    (hfollows : r.Follows r') : Announced myid af (n :: nodes) (n' :: nodes') r r'' := by
  refine ⟨?_, List.forall_mem_cons.mpr ⟨hn, h.ok⟩, hfollows.trans h.follows⟩
  rw [List.map_cons, List.map_cons, hid, h.ids]

theorem announced_announceLoop {af : Family} {nodes : List SearchNode} (hr : r.Ok)
    (hnodes : ∀ n ∈ nodes, SearchNodeOk myid af n) (sr : Search) (j : Nat) :
    Announced myid af nodes (sr.announceLoop nodes j r).1 r (sr.announceLoop nodes j r).2.1 := by
  induction nodes generalizing r j with
  | nil => exact ⟨rfl, hnodes, Tables.Follows.refl hr⟩
  | cons n nodes ih =>
      obtain ⟨hn, hrest⟩ := List.forall_mem_cons.mp hnodes
      have hself := Tables.Follows.refl hr
      rw [announceLoop]
      split
      · exact ⟨rfl, hnodes, hself⟩
      · split
        · exact (ih hr hrest j).cons rfl hn hself
        · rename_i hfew
          split
          · exact (ih hr hrest (j + 1)).cons rfl ⟨hn.other, hn.family, hn.token, hn.asked⟩ hself
          · have hfollows := follows_request hr
              (sends_sendAnnouncePeer r.toOutbound n.ss (makeTid "ap" sr.tid) sr.id sr.port n.token)
              n.id n.ss.family
            exact (ih hfollows.ok hrest (j + 1)).cons rfl ⟨hn.other, hn.family, hn.token, not_le.mp hfew⟩ hfollows

theorem stepped_searchStep (hok : SearchOk myid sr) (hr : r.Ok) (callback : Bool) :
    Stepped myid sr (sr.searchStep r callback).1 r (sr.searchStep r callback).2.1 := by
  have hbase : ∀ {sr' : Search} {r' : Tables} (stepTime : Int) (done : Bool), Stepped myid sr sr' r r' →
      Stepped myid sr { sr' with stepTime := stepTime, done := done } r r' :=
    fun _ _ h => ⟨⟨h.ok.sorted, h.ok.room, h.ok.nodes⟩, ⟨h.kin.id, h.kin.af⟩, h.ids, h.follows⟩
  have hself := Stepped.refl hok hr
  rw [searchStep]
  split
  · split
    · exact hbase _ _ hself
    · have hloop := announced_announceLoop hr hok.nodes sr 0
      have hannounced : Stepped myid sr { sr with nodes := (sr.announceLoop sr.nodes 0 r).1 } r _ :=
        ⟨ok_withNodes hok hloop.ids hloop.ok, ⟨rfl, rfl⟩, hloop.ids, hloop.follows⟩
      dsimp only
      split
      · exact hbase _ _ hannounced
      · exact hbase _ sr.done hannounced
  · split
    · exact hself
    · have hask := stepped_askLoop hok hr (List.range sr.nodes.length) 0
      exact hbase _ _ hask

/-- A search that is opened once more. -/
theorem ok_again (hok : SearchOk myid sr) (now : Int) : SearchOk myid { sr with nodes := again now sr.nodes } := by
  have hkept : SearchOk myid { sr with nodes := sr.nodes.filter fun n => !doubtful now n } :=
    ok_sublist hok List.filter_sublist
  rw [again_eq]
  apply ok_withNodes hkept
  · rw [List.map_map]
    rfl
  · intro n hn
    obtain ⟨m, hm, rfl⟩ := List.mem_map.mp hn
    have hm' : SearchNodeOk myid sr.af m := hkept.nodes m hm
    exact ⟨hm'.other, hm'.family, Nat.zero_lt_succ 39, Nat.zero_le 3⟩

end Search

/-! ### All searches -/

namespace Searches

def target (sr : Search) : Family × Hash := (sr.af, sr.id)

/-- No two searches have the same target. -/
structure Ok (myid : Hash) (s : Searches) : Prop where
  searches : ∀ sr ∈ s.searches, SearchOk myid sr
  counted : s.numsearches = s.searches.length
  room : s.searches.length ≤ dhtMaxSearches
  distinct : (s.searches.map target).Nodup

variable {s s' : Searches} {myid : Hash} {now : Int}

theorem target_of_kin {sr sr' : Search} (hkin : sr.Kin sr') : target sr' = target sr := by
  rw [target, target, hkin.id, hkin.af]

/-- The searches are those of before, with other nodes. -/
theorem Ok.withSearches (hok : s.Ok myid) {searches : List Search}
    (htargets : searches.map target = s.searches.map target)
    (hsearches : ∀ sr ∈ searches, SearchOk myid sr) : Ok myid { s with searches := searches } := by
  have hlength : searches.length = s.searches.length := by
    rw [← List.length_map (f := target), htargets, List.length_map]
  exact ⟨hsearches, hok.counted.trans (congrArg Nat.cast hlength.symm), hlength ▸ hok.room,
    htargets ▸ hok.distinct⟩

theorem Ok.set (hok : s.Ok myid) {i : Nat} {sr sr' : Search} (hget : s.searches[i]? = some sr)
    (hkin : sr.Kin sr') (hsr' : SearchOk myid sr') : Ok myid { s with searches := s.searches.set i sr' } := by
  obtain ⟨hi, rfl⟩ := List.getElem?_eq_some_iff.mp hget
  apply hok.withSearches
  · have hi' : i < (s.searches.map target).length := by rwa [List.length_map]
    have hsame : target sr' = (s.searches.map target)[i] := by
      rw [target_of_kin hkin, List.getElem_map]
    rw [List.map_set, hsame, List.set_getElem_self]
  · intro m hm
    rcases List.mem_or_eq_of_mem_set hm with hold | rfl
    · exact hok.searches m hold
    · exact hsr'

theorem Ok.map (hok : s.Ok myid) {f : Search → Search}
    (hf : ∀ sr, SearchOk myid sr → SearchOk myid (f sr) ∧ sr.Kin (f sr)) :
    Ok myid { s with searches := s.searches.map f } := by
  apply hok.withSearches
  · rw [List.map_map]
    apply List.map_congr_left
    intro sr hsr
    exact target_of_kin (hf sr (hok.searches sr hsr)).2
  · intro sr hsr
    obtain ⟨old, hold, rfl⟩ := List.mem_map.mp hsr
    exact (hf old (hok.searches old hold)).1

theorem Ok.expireSearches (hok : s.Ok myid) (now : Int) : (s.expireSearches now).Ok myid := by
  have hsub : (s.searches.filter fun sr => !(sr.stepTime < now - dhtSearchExpireTime)).Sublist s.searches :=
    List.filter_sublist
  have hcounted : s.numsearches = s.searches.length := hok.counted
  have hle := hsub.length_le
  rw [Searches.expireSearches]
  refine ⟨fun sr hsr => hok.searches sr (hsub.subset hsr), ?_, hle.trans hok.room,
    hok.distinct.sublist (hsub.map target)⟩
  dsimp only
  omega

theorem oldestFrom_mem {searches rest : List Search} {found : Option (Nat × Search)} {i j : Nat} {sr : Search}
    (hrest : searches.drop j = rest) (hfound : ∀ p, found = some p → searches[p.1]? = some p.2)
    (holdest : oldestFrom found j rest = some (i, sr)) : searches[i]? = some sr := by
  induction rest generalizing found j with
  | nil => exact hfound (i, sr) holdest
  | cons old rest ih =>
      have hold : searches[j]? = some old := by
        rw [← List.head?_drop, hrest, List.head?_cons]
      have hdrop : searches.drop (j + 1) = rest := by
        rw [← List.tail_drop, hrest, List.tail_cons]
      unfold oldestFrom at holdest
      apply ih hdrop _ holdest
      intro p hp
      rcases ite_eq_iff.mp hp with ⟨-, hp'⟩ | ⟨-, hp'⟩
      · obtain rfl := Option.some.inj hp'
        exact hold
      · exact hfound p hp'

/-- The slot is one of those that are there, or a new one in front. -/
inductive Slot (s : Searches) : Searches → Nat → Prop
  | reused (i : Nat) (hi : i < s.searches.length) : Slot s s i
  | made (hroom : s.numsearches < dhtMaxSearches) :
      Slot s { s with searches := emptySlot :: s.searches, numsearches := s.numsearches + 1 } 0

theorem newSearch_spec {i : Nat} (hnew : s.newSearch now = some (s', i)) : Slot s s' i := by
  rw [newSearch] at hnew
  split at hnew
  · rename_i j old holdest
    have hget : s.searches[j]? = some old :=
      oldestFrom_mem (List.drop_zero) (by rintro p ⟨⟩) holdest
    have hj : j < s.searches.length := (List.getElem?_eq_some_iff.mp hget).1
    split at hnew
    · obtain ⟨rfl, rfl⟩ : s = s' ∧ j = i := by simpa using hnew
      exact Slot.reused j hj
    · split at hnew
      · rename_i hroom
        cases hnew
        exact Slot.made hroom
      · obtain ⟨rfl, rfl⟩ : s = s' ∧ j = i := by simpa using hnew
        exact Slot.reused j hj
  · split at hnew
    · rename_i hroom
      cases hnew
      exact Slot.made hroom
    · cases hnew

/-- A slot is for a target that no other search has. -/
theorem Ok.slot (hok : s.Ok myid) {i : Nat} (hslot : Slot s s' i) {f : Search → Search}
    (hf : ∀ sr, SearchOk myid (f sr)) {af : Family} {id : Hash} (htarget : ∀ sr, target (f sr) = (af, id))
    (hnew : (af, id) ∉ s.searches.map target) (searchId : UInt16) :
    Ok myid { s' with searches := s'.searches.modify i f, searchId := searchId } := by
  have hcounted : s.numsearches = s.searches.length := hok.counted
  cases hslot with
  | reused i hi =>
      have hmodify : s.searches.modify i f = s.searches.set i (f s.searches[i]) := by
        rw [List.modify_eq_set_getElem?, List.getElem?_eq_getElem hi]
        rfl
      rw [hmodify]
      refine ⟨fun sr hsr => ?_, ?_, ?_, ?_⟩
      · rcases List.mem_or_eq_of_mem_set hsr with hold | rfl
        · exact hok.searches sr hold
        · exact hf _
      · rw [List.length_set]
        exact hok.counted
      · rw [List.length_set]
        exact hok.room
      · rw [List.map_set, htarget]
        exact hok.distinct.set hnew
  | made hroom =>
      refine ⟨List.forall_mem_cons.mpr ⟨hf _, hok.searches⟩, ?_, ?_, ?_⟩
      · show s.numsearches + 1 = ((f emptySlot :: s.searches).length : Nat)
        rw [List.length_cons, hcounted, Nat.cast_add, Nat.cast_one]
      · show (f emptySlot :: s.searches).length ≤ dhtMaxSearches
        rw [List.length_cons]
        omega
      · show ((f emptySlot :: s.searches).map target).Nodup
        rw [List.map_cons, htarget]
        exact List.nodup_cons.mpr ⟨hnew, hok.distinct⟩

end Searches

end CLibp2p.Routing.Dht
