import CLibp2p.Proof.DhtReply

/-!
# Searches over whole runs

Where a search starts, and what holds of all searches in every state that calls lead to.
-/

namespace CLibp2p.Routing.Dht

open Duplex Machine Dyadic

/-! ### The nodes that a search starts with -/

/-- The search has the nearest of these nodes. -/
structure Gathered (af : Family) (target : Hash) (items : List Node) (sr : Search) : Prop where
  id : sr.id = target
  af : sr.af = af
  nearest : Nearest (nearness target) searchNodes (items.map (remoteness target)).toFinset sr.nodes

namespace Gathered

variable {af : Family} {target : Hash} {items : List Node} {sr : Search}

theorem node (h : Gathered af target items sr) {n : Node} (hn : n.ss.family = af) (now : Int) :
    Gathered af target (items ++ [n]) (sr.insertSearchNode now n.id n.ss false none) := by
  have hitems : ((items ++ [n]).map (remoteness target)).toFinset =
      insert (distance n.id target) (items.map (remoteness target)).toFinset := by
    rw [List.map_append, List.toFinset_append, Finset.union_comm]
    rfl
  obtain ⟨rfl, rfl, hnear⟩ := h
  rw [Search.insertSearchNode_eq hn]
  refine ⟨rfl, rfl, ?_⟩
  rw [hitems]
  exact hnear.offer (Search.itemFor_found sr.id n.id n.ss now false none)

theorem bucket (h : Gathered af target items sr) {b : Bucket} (hb : ∀ n ∈ b.nodes, n.ss.family = af) (now : Int) :
    Gathered af target (items ++ b.nodes) (sr.insertSearchBucket now b) := by
  rw [Search.insertSearchBucket]
  generalize b.nodes = nodes at hb ⊢
  induction nodes generalizing sr items with
  | nil => rwa [List.append_nil]
  | cons n nodes ih =>
      obtain ⟨hn, hrest⟩ := List.forall_mem_cons.mp hb
      have hall := ih (h.node hn now) hrest
      rwa [List.append_assoc, List.singleton_append] at hall

theorem length (h : Gathered af target items sr) (hnodup : (items.map Node.id).Nodup) :
    sr.nodes.length = min searchNodes items.length := by
  have hcomp : remoteness target = (fun id => distance id target) ∘ Node.id := rfl
  have hkeys : (items.map (remoteness target)).Nodup := by
    rw [hcomp, ← List.map_map]
    exact hnodup.map (distance_left_injective target)
  rw [h.nearest.length, List.toFinset_card_of_nodup hkeys, List.length_map]

end Gathered

namespace Globals

variable {sha256 : Bytes → Bytes} {s : Globals} {af : Family} {c : Cursor Bucket} {sr : Search} {id : Hash}

theorem family_of_close (hok : s.Ok) {d : Cursor Bucket} (hclose : d.close = s.table af) :
    ∀ n ∈ d.here.nodes, n.ss.family = af := by
  obtain ⟨lo, hi, hat⟩ := Tables.at_of_close hok.tables hclose
  exact fun n hn => (hat.here.nodes n hn).family

/-- The nodes of our own bucket. -/
def ownNodes (s : Globals) (af : Family) : List Node := (s.findBucket s.myid af).elim [] fun own => own.here.nodes

/-- The nodes that a new search is offered. -/
def candidates (s : Globals) (af : Family) (c : Cursor Bucket) : List Node :=
  around c ++ if (around c).length < searchNodes then s.ownNodes af else []

theorem gathered_fillAround (hok : s.Ok) (hclose : c.close = s.table af) (h : Gathered af id c.here.nodes sr) :
    Gathered af id (around c) (s.fillAround c sr) := by
  rw [fillAround, around]
  cases hnext : nextBucket c with
  | none =>
      cases hprevious : previousBucket c with
      | none =>
          rw [Option.elim_none, List.append_nil, List.append_nil]
          exact h
      | some p =>
          rw [Option.elim_none, Option.elim_some, List.append_nil]
          exact h.bucket (family_of_close hok ((Tables.close_previousBucket hprevious).trans hclose)) s.now
  | some next =>
      have h' := h.bucket (family_of_close hok ((Tables.close_nextBucket hnext).trans hclose)) s.now
      cases hprevious : previousBucket c with
      | none =>
          rw [Option.elim_some, Option.elim_none, List.append_nil]
          exact h'
      | some p =>
          rw [Option.elim_some, Option.elim_some]
          exact h'.bucket (family_of_close hok ((Tables.close_previousBucket hprevious).trans hclose)) s.now

theorem gathered_fillSearch (hok : s.Ok) (hclose : c.close = s.table af) (haf : sr.af = af) (hid : sr.id = id)
    (hempty : sr.nodes = []) : Gathered af id (s.candidates af c) (s.fillSearch c sr) := by
  obtain ⟨lo, hi, hat⟩ := Tables.at_of_close hok.tables hclose
  have hnone : Gathered af id [] sr := ⟨hid, haf, hempty ▸ Nearest.nil _ _⟩
  have hhere := hnone.bucket (family_of_close hok hclose) s.now
  rw [List.nil_append] at hhere
  have hshort : (sr.insertSearchBucket s.now c.here).nodes.length < searchNodes := by
    have hroom : c.here.nodes.length ≤ 8 := hat.here.room
    rw [hhere.length hat.here.nodup, searchNodes]
    omega
  have haround := gathered_fillAround hok hclose hhere
  have hlength := haround.length (hat.nodup_around hok.tables)
  rw [fillSearch, if_pos hshort, candidates]
  by_cases hfew : (around c).length < searchNodes
  · rw [if_pos hfew, if_pos (by omega), haround.af, ownNodes]
    cases hown : s.findBucket s.myid af with
    | none =>
        rw [Option.elim_none, List.append_nil]
        exact haround
    | some own =>
        obtain ⟨lo', hi', hat', -⟩ := Tables.findBucket_some hok.tables hown
        exact haround.bucket (family_of_close hok hat'.close) s.now
  · rw [if_neg hfew, if_neg (by omega), List.append_nil]
    exact haround

/-! ### A new search -/

theorem openSearch_new {lookups : Searches} {i : Nat}
    (hnew : ∀ sr ∈ s.lookups.searches, Searches.target sr ≠ (af, id)) (hopen : s.openSearch id af = some (lookups, i)) :
    ∃ sr, lookups.searches[i]? = some sr ∧ sr.af = af ∧ sr.id = id ∧ sr.nodes = [] := by
  have hnone : (s.lookups.searches.findIdx? fun sr => sr.af == af && idCmp sr.id id == .eq) = none := by
    rw [List.findIdx?_eq_none_iff]
    intro sr hsr
    by_contra hfound
    rw [Bool.not_eq_false, Bool.and_eq_true, beq_iff_eq, beq_iff_eq, idCmp_eq_iff] at hfound
    exact hnew sr hsr (Prod.ext hfound.1 hfound.2)
  rw [openSearch, hnone] at hopen
  dsimp only at hopen
  split at hopen
  · cases hopen
  · rename_i lookups' j hslot
    simp only [Option.some.injEq, Prod.mk.injEq] at hopen
    obtain ⟨rfl, rfl⟩ := hopen
    have hj : j < lookups'.searches.length := by
      cases Searches.newSearch_spec hslot with
      | reused j hi => exact hi
      | made hroom => exact Nat.succ_pos _
    refine ⟨{ lookups'.searches[j] with
      af := af, tid := lookups'.searchId, stepTime := 0, id := id, done := false, nodes := [] }, ?_, rfl, rfl, rfl⟩
    rw [List.getElem?_modify_eq, List.getElem?_eq_getElem hj]
    rfl

theorem openSearch_serveLocal (s : Globals) (id other : Hash) (af : Family) (callback : Bool) :
    (s.serveLocal other callback).openSearch id af = s.openSearch id af := by
  rw [serveLocal]
  split
  · split
    · rfl
    · rfl
  · rfl

theorem fillSearch_serveLocal (s : Globals) (other : Hash) (callback : Bool) (c : Cursor Bucket) (sr : Search) :
    (s.serveLocal other callback).fillSearch c sr = s.fillSearch c sr := by
  rw [serveLocal]
  split
  · split
    · rfl
    · rfl
  · rfl

/-- **A new search starts with the nearest nodes of the buckets around its target**, and of our own bucket
where these are too few. -/
theorem dhtSearch_gathers (hs : Reachable sha256 s) {port : Int} {callback : Bool}
    (hnew : ∀ sr ∈ s.lookups.searches, Searches.target sr ≠ (af, id)) (hfind : s.findBucket id af = some c)
    (hstarted : (s.dhtSearch id port af callback).2 = 1) :
    ∃ sr ∈ (s.dhtSearch id port af callback).1.lookups.searches, sr.af = af ∧ sr.id = id ∧
      sr.nodes.map (nearness id) =
        ((((s.candidates af c).map fun n => distance n.id id).toFinset).sort (· ≤ ·)).take searchNodes := by
  have hok := ok_of_reachable hs
  obtain ⟨lo, hi, hat, -⟩ := Tables.findBucket_some hok.tables hfind
  rw [dhtSearch, hfind] at hstarted ⊢
  dsimp only at hstarted ⊢
  rw [openSearch_serveLocal] at hstarted ⊢
  cases hopen : s.openSearch id af with
  | none =>
      rw [hopen] at hstarted
      cases hstarted
  | some opened =>
      obtain ⟨lookups, i⟩ := opened
      obtain ⟨sr, hget, haf, hid, hempty⟩ := openSearch_new hnew hopen
      have hsr := (openSearch_ok hok hopen).searches sr (List.mem_of_getElem? hget)
      have hport : SearchOk s.myid { sr with port := UInt16.ofInt port } := ⟨hsr.sorted, hsr.room, hsr.nodes⟩
      have hgathered : Gathered af id (s.candidates af c) (s.fillSearch c { sr with port := UInt16.ofInt port }) :=
        gathered_fillSearch hok hat.close haf hid hempty
      obtain ⟨hfilled, -⟩ := ok_fillSearch hok hat.close hport
      have hstep := Search.stepped_searchStep hfilled hok.tables callback
      have htables : (s.serveLocal id callback).toTables = s.toTables := (moves_serveLocal hok id callback).2
      dsimp only
      rw [hget]
      dsimp only
      rw [startSearch, fillSearch_serveLocal, htables]
      refine ⟨((s.fillSearch c { sr with port := UInt16.ofInt port }).searchStep s.toTables callback).1, ?_, ?_, ?_, ?_⟩
      · have hi : i < lookups.searches.length := (List.getElem?_eq_some_iff.mp hget).1
        exact List.mem_of_getElem? (List.getElem?_set_self hi)
      · exact hstep.kin.af.trans hgathered.af
      · exact hstep.kin.id.trans hgathered.id
      · have hcomp : nearness id = (fun other => distance other id) ∘ SearchNode.id := rfl
        have hnear := hgathered.nearest
        rw [Nearest, hcomp, ← List.map_map] at hnear
        rw [hcomp, ← List.map_map, hstep.ids]
        exact hnear

/-- All nine nodes of two buckets. -/
theorem dhtSearch_gathers_nine : ∃ c, populated.findBucket (repeated 3) .inet = some c ∧
    ∃ sr ∈ (populated.dhtSearch (repeated 3) 0 .inet false).1.lookups.searches, sr.nodes.length = 9 ∧
      sr.nodes.map (nearness (repeated 3)) = ((((populated.candidates .inet c).map fun n =>
        distance n.id (repeated 3)).toFinset).sort (· ≤ ·)).take searchNodes := by
  have hnine : (populated.findBucket (repeated 3) .inet).map
      (fun c => ((populated.candidates .inet c).map fun n => distance n.id (repeated 3)).toFinset.card) =
        some 9 := by
    decide +kernel
  obtain ⟨c, hfind, hcard⟩ := Option.map_eq_some_iff.mp hnine
  obtain ⟨sr, hsr, -, -, hnodes⟩ := dhtSearch_gathers reachable_populated (by decide +kernel) hfind
    (show (populated.dhtSearch (repeated 3) 0 .inet false).2 = 1 by decide +kernel)
  refine ⟨c, hfind, sr, hsr, ?_, hnodes⟩
  have hlength := congrArg List.length hnodes
  rw [List.length_map, List.length_take, Finset.length_sort, hcard] at hlength
  exact hlength

/-- **Searches stay in order**: one for each target, with the nodes that it knows from the closest on, each once
and never ourselves, and none that was asked more than three times. -/
theorem searches_sorted (hs : Reachable sha256 s) :
    (s.lookups.searches.map Searches.target).Nodup ∧ s.lookups.numsearches = s.lookups.searches.length ∧
      s.lookups.searches.length ≤ dhtMaxSearches ∧
      ∀ sr ∈ s.lookups.searches,
        (sr.nodes.Pairwise fun a b => distance a.id sr.id < distance b.id sr.id) ∧ sr.nodes.length ≤ searchNodes ∧
          ∀ n ∈ sr.nodes, n.id ≠ s.myid ∧ n.ss.family = sr.af ∧ n.token.length < 40 ∧ n.pinged ≤ 3 := by
  have hok := (ok_of_reachable hs).lookups
  refine ⟨hok.distinct, hok.counted, hok.room, fun sr hsr => ?_⟩
  have hsr' := hok.searches sr hsr
  exact ⟨hsr'.sorted, hsr'.room, fun n hn =>
    ⟨(hsr'.nodes n hn).other, (hsr'.nodes n hn).family, (hsr'.nodes n hn).token, (hsr'.nodes n hn).asked⟩⟩

/-- Two searches, each with the nine nodes. -/
def searching : Option Globals :=
  populated.calls (fun bytes => bytes) [.search (repeated 3) 0 .inet false, .search (repeated 130) 0 .inet true]

theorem searches_sorted_two : ∃ s, searching = some s ∧
    s.lookups.searches.map (fun sr => sr.nodes.length) = [9, 9] ∧
    ∀ sr ∈ s.lookups.searches, sr.nodes.Pairwise fun a b => distance a.id sr.id < distance b.id sr.id := by
  have htwo : searching.map (fun s => s.lookups.searches.map fun sr => sr.nodes.length) = some [9, 9] := by
    decide +kernel
  obtain ⟨s, hs, hlengths⟩ := Option.map_eq_some_iff.mp htwo
  have hsorted := (searches_sorted (reachable_calls reachable_populated hs)).2.2.2
  exact ⟨s, hs, hlengths, fun sr hsr => (hsorted sr hsr).1⟩

end Globals

end CLibp2p.Routing.Dht
