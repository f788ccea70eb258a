import CLibp2p.Machine.Keyed
import CLibp2p.Machine.Runs
import CLibp2p.Proof.DhtIds
import CLibp2p.Routing.Dht.Storage

/-!
# The store is a map that forgets

For each hash and each address the store knows when it was last announced. It takes an announcement where
it has room, and forgets what was not announced again in time.
-/

namespace CLibp2p.Routing.Dht

open Duplex Machine

/-! ### What the store is for -/

/-- When an address was last announced for a hash. -/
abbrev Swarms := Hash → Bytes × UInt16 → Option Int

namespace Swarms

def hashes (m : Swarms) : Set Hash := {id | ∃ addr, m id addr ≠ none}

def peers (m : Swarms) (id : Hash) : Set (Bytes × UInt16) := {addr | m id addr ≠ none}

/-- There is no room for one more address of a hash, or for one more hash. -/
def Full (m : Swarms) (id : Hash) (addr : Bytes × UInt16) : Prop :=
  m id addr = none ∧ (dhtMaxPeers ≤ (m.peers id).ncard ∨ id ∉ m.hashes ∧ dhtMaxHashes ≤ m.hashes.ncard)

open Classical in
noncomputable def announce (m : Swarms) (now : Int) (id : Hash) (addr : Bytes × UInt16) : Swarms :=
  if m.Full id addr then m else Function.update m id (Function.update (m id) addr (some now))

def expire (m : Swarms) (now : Int) : Swarms := fun id addr => (m id addr).filter fun time => !(time < now - 32 * 60)

end Swarms

/-! ### The invariant -/

def Peer.addr (p : Peer) : Bytes × UInt16 := (p.ip, p.port)

structure StorageOk (st : Storage) : Prop where
  nonempty : st.peers ≠ []
  room : st.peers.length ≤ st.maxpeers
  limit : st.maxpeers ≤ dhtMaxPeers
  distinct : Keyed Peer.addr st.peers

structure Store.Ok (s : Store) : Prop where
  storage : ∀ st ∈ s.storage, StorageOk st
  counted : s.numstorage = s.storage.length
  room : s.storage.length ≤ dhtMaxHashes
  distinct : Keyed Storage.id s.storage

/-- When a hash has this address, and since when. -/
def Storage.times (st : Storage) (addr : Bytes × UInt16) : Option Int :=
  (lookup Peer.addr st.peers addr).map Peer.time

def Store.contents (s : Store) : Swarms := fun id addr => (lookup Storage.id s.storage id).bind fun st => st.times addr

/-! ### Peers of a hash -/

namespace Storage

variable {st : Storage} {now : Int} {ip : Bytes} {port : UInt16}

theorem findIdx_peer_eq_none (hnone : st.peers.findIdx? (fun p => p.port == port && p.ip == ip) = none) :
    (ip, port) ∉ st.peers.map Peer.addr := by
  intro hmem
  obtain ⟨p, hp, haddr⟩ := List.mem_map.mp hmem
  obtain ⟨rfl, rfl⟩ : p.ip = ip ∧ p.port = port := Prod.mk.inj haddr
  have hnot := List.findIdx?_eq_none_iff.mp hnone p hp
  rw [beq_self_eq_true, beq_self_eq_true] at hnot
  cases hnot

/-- What becomes of the peers of a hash: one is seen again, or there is no room, or there is one more. -/
inductive Stored (st : Storage) (now : Int) (ip : Bytes) (port : UInt16) : Storage → Prop
  | refreshed (i : Nat) (p : Peer) (hget : st.peers[i]? = some p) (haddr : p.addr = (ip, port)) :
      Stored st now ip port { st with peers := st.peers.set i { p with time := now } }
  | full (hnew : (ip, port) ∉ st.peers.map Peer.addr) (hlength : dhtMaxPeers ≤ st.peers.length) :
      Stored st now ip port st
  | added (maxpeers : Nat) (hnew : (ip, port) ∉ st.peers.map Peer.addr) (hlength : st.peers.length < dhtMaxPeers)
      (hroom : st.peers.length < maxpeers) (hlimit : maxpeers ≤ dhtMaxPeers) :
      Stored st now ip port
        { st with maxpeers := maxpeers, peers := st.peers ++ [{ time := now, ip := ip, port := port }] }

theorem storePeer_spec (hroom : st.peers.length ≤ st.maxpeers) (hlimit : st.maxpeers ≤ dhtMaxPeers) (now : Int)
    (ip : Bytes) (port : UInt16) : Stored st now ip port (st.storePeer now ip port).1 := by
  have hpos : 2 ≤ dhtMaxPeers := by decide
  rw [storePeer]
  split
  · rename_i i hfind
    obtain ⟨hi, haddr, -⟩ := List.findIdx?_eq_some_iff_getElem.mp hfind
    rw [Bool.and_eq_true, beq_iff_eq, beq_iff_eq] at haddr
    have hget : st.peers[i]? = some st.peers[i] := List.getElem?_eq_getElem hi
    have hmodify : (st.peers.modify i fun p => { p with time := now }) =
        st.peers.set i { st.peers[i] with time := now } := by
      rw [List.modify_eq_set_getElem?, hget]
      rfl
    dsimp only
    rw [hmodify]
    exact Stored.refreshed i st.peers[i] hget (Prod.ext haddr.2 haddr.1)
  · rename_i hfind
    have hnew := findIdx_peer_eq_none hfind
    dsimp only
    split
    · split
      · exact Stored.full hnew (by omega)
      · exact Stored.added _ hnew (by omega) (by split <;> omega) (min_le_right _ _)
    · exact Stored.added st.maxpeers hnew (by omega) (by omega) hlimit

theorem ok_of_stored {st' : Storage} (hstored : Stored st now ip port st') (hroom : st.peers.length ≤ st.maxpeers)
    (hlimit : st.maxpeers ≤ dhtMaxPeers) (hdistinct : Keyed Peer.addr st.peers) : StorageOk st' ∧ st'.id = st.id := by
  cases hstored with
  | refreshed i p hget haddr =>
      obtain ⟨hi, rfl⟩ := List.getElem?_eq_some_iff.mp hget
      refine ⟨⟨?_, ?_, hlimit, ?_⟩, rfl⟩
      · intro hnil
        have hempty : st.peers = [] := by simpa using hnil
        rw [hempty, List.length_nil] at hi
        omega
      · rwa [List.length_set]
      · have hi' : i < (st.peers.map Peer.addr).length := by rwa [List.length_map]
        have hsame : ({ st.peers[i] with time := now } : Peer).addr = (st.peers.map Peer.addr)[i] := by
          rw [List.getElem_map]
          rfl
        rwa [Keyed, List.map_set, hsame, List.set_getElem_self]
  | full hnew hlength =>
      have hpos : 0 < dhtMaxPeers := by decide
      refine ⟨⟨?_, hroom, hlimit, hdistinct⟩, rfl⟩
      rintro hnil
      rw [hnil, List.length_nil] at hlength
      omega
  | added maxpeers hnew hlength hroom' hlimit' =>
      refine ⟨⟨List.append_ne_nil_of_right_ne_nil _ (List.cons_ne_nil _ _), ?_, hlimit', ?_⟩, rfl⟩
      · rw [List.length_append, List.length_singleton]
        exact hroom'
      · rw [Keyed, List.map_append, List.map_singleton]
        exact hdistinct.append (List.nodup_singleton _) (List.disjoint_singleton.mpr hnew)

theorem ncard_times (hdistinct : Keyed Peer.addr st.peers) :
    {addr | st.times addr ≠ none}.ncard = st.peers.length := by
  rw [← ncard_keys hdistinct]
  congr 1
  ext addr
  rw [Set.mem_ofPred_eq, Set.mem_ofPred_eq, times, Ne, Option.map_eq_none_iff]

theorem times_of_stored {st' : Storage} (hstored : Stored st now ip port st') (hdistinct : Keyed Peer.addr st.peers) :
    st'.times = if st.times (ip, port) = none ∧ dhtMaxPeers ≤ st.peers.length then st.times
      else Function.update st.times (ip, port) (some now) := by
  have hnone : (ip, port) ∉ st.peers.map Peer.addr → st.times (ip, port) = none := by
    intro hnew
    rw [times, lookup_eq_none_iff.mpr hnew, Option.map_none]
  cases hstored with
  | refreshed i p hget haddr =>
      have hfound : st.times (ip, port) = some p.time := by
        rw [times, (lookup_eq_some_iff hdistinct).mpr ⟨List.mem_of_getElem? hget, haddr⟩, Option.map_some]
      rw [if_neg (by rw [hfound]; exact fun h => Option.some_ne_none _ h.1)]
      ext addr time
      have hset : lookup Peer.addr (st.peers.set i { p with time := now }) addr =
          if addr = p.addr then some { p with time := now } else lookup Peer.addr st.peers addr :=
        lookup_set hdistinct hget rfl
      rw [times, hset, haddr, Function.update_apply]
      split
      · rfl
      · rfl
  | full hnew hlength => rw [if_pos ⟨hnone hnew, hlength⟩]
  | added maxpeers hnew hlength hroom hlimit =>
      rw [if_neg (fun h => absurd h.2 (not_le.mpr hlength))]
      ext addr time
      have hconcat : lookup Peer.addr (st.peers ++ [{ time := now, ip := ip, port := port }]) addr =
          if addr = (ip, port) then some { time := now, ip := ip, port := port } else lookup Peer.addr st.peers addr :=
        lookup_concat hnew
      rw [times, hconcat, Function.update_apply]
      split
      · rfl
      · rfl

end Storage

/-! ### Announcements -/

namespace Store

variable {s s' : Store} {now : Int} {id : Hash} {ip : Bytes} {port : UInt16}

theorem findStorage_eq_none (hnone : s.findStorage id = none) : id ∉ s.storage.map Storage.id := by
  intro hmem
  obtain ⟨st, hst, rfl⟩ := List.mem_map.mp hmem
  exact of_decide_eq_false (List.findIdx?_eq_none_iff.mp hnone st hst) (idCmp_eq_iff.mpr rfl)

theorem findStorage_eq_some {i : Nat} (hfind : s.findStorage id = some i) :
    ∃ st, s.storage[i]? = some st ∧ st.id = id := by
  obtain ⟨hi, hid, -⟩ := List.findIdx?_eq_some_iff_getElem.mp hfind
  exact ⟨s.storage[i], List.getElem?_eq_getElem hi, (idCmp_eq_iff.mp (of_decide_eq_true hid)).symm⟩

abbrev emptyStorage (id : Hash) : Storage := { id := id, maxpeers := 0, peers := [] }

/-- What becomes of the store: a hash that is there has its peers changed, or there is no room, or there is
one more hash. -/
inductive Announced (s : Store) (now : Int) (id : Hash) (ip : Bytes) (port : UInt16) : Store → Prop
  | known (i : Nat) (st st' : Storage) (hget : s.storage[i]? = some st) (hid : st.id = id)
      (hstored : Storage.Stored st now ip port st') :
      Announced s now id ip port { s with storage := s.storage.set i st' }
  | full (hnew : id ∉ s.storage.map Storage.id) (hlength : dhtMaxHashes ≤ s.storage.length) :
      Announced s now id ip port s
  | added (st' : Storage) (hnew : id ∉ s.storage.map Storage.id) (hlength : s.storage.length < dhtMaxHashes)
      (hstored : Storage.Stored (emptyStorage id) now ip port st') :
      Announced s now id ip port { storage := st' :: s.storage, numstorage := s.numstorage + 1 }

theorem storageStore_spec (hok : s.Ok) (now : Int) (id : Hash) (sa : SockAddr) (port : UInt16) :
    Announced s now id sa.ip port (s.storageStore now id sa port).1 := by
  have hcounted : s.numstorage = s.storage.length := hok.counted
  rw [storageStore]
  split
  · rename_i i hfind
    obtain ⟨st, hget, hid⟩ := findStorage_eq_some hfind
    have hst : StorageOk st := hok.storage st (List.mem_of_getElem? hget)
    rw [hget]
    exact Announced.known i st _ hget hid (Storage.storePeer_spec hst.room hst.limit now sa.ip port)
  · rename_i hfind
    have hnew := findStorage_eq_none hfind
    split
    · exact Announced.full hnew (by omega)
    · exact Announced.added _ hnew (by omega)
        (@Storage.storePeer_spec (emptyStorage id) (Nat.le_refl 0) (Nat.zero_le dhtMaxPeers) now sa.ip port)

theorem Announced.ok (h : Announced s now id ip port s') (hok : s.Ok) : s'.Ok := by
  have hcounted : s.numstorage = s.storage.length := hok.counted
  rcases h with ⟨i, st, st', hget, hid, hstored⟩ | - | ⟨st', hnew, hlength, hstored⟩
  · have hst : StorageOk st := hok.storage st (List.mem_of_getElem? hget)
    obtain ⟨hst', hsame⟩ := Storage.ok_of_stored hstored hst.room hst.limit hst.distinct
    obtain ⟨hi, rfl⟩ := List.getElem?_eq_some_iff.mp hget
    refine ⟨fun x hx => ?_, ?_, ?_, ?_⟩
    · rcases List.mem_or_eq_of_mem_set hx with hold | rfl
      · exact hok.storage x hold
      · exact hst'
    · rwa [List.length_set]
    · rw [List.length_set]
      exact hok.room
    · have hi' : i < (s.storage.map Storage.id).length := by rwa [List.length_map]
      have hid' : st'.id = (s.storage.map Storage.id)[i] := by rw [hsame, List.getElem_map]
      rw [Keyed, List.map_set, hid', List.set_getElem_self]
      exact hok.distinct
  · exact hok
  · obtain ⟨hst', hsame⟩ :=
      Storage.ok_of_stored hstored (Nat.le_refl 0) (Nat.zero_le dhtMaxPeers) List.nodup_nil
    refine ⟨List.forall_mem_cons.mpr ⟨hst', hok.storage⟩, ?_, ?_, ?_⟩
    · show s.numstorage + 1 = ((st' :: s.storage).length : Nat)
      rw [List.length_cons, hcounted, Nat.cast_add, Nat.cast_one]
    · exact hlength
    · rw [Keyed, List.map_cons, hsame]
      exact List.nodup_cons.mpr ⟨hnew, hok.distinct⟩

theorem exists_times (hok : s.Ok) {st : Storage} (hst : st ∈ s.storage) : ∃ addr, st.times addr ≠ none := by
  obtain ⟨p, hp⟩ := List.exists_mem_of_ne_nil _ (hok.storage st hst).nonempty
  refine ⟨p.addr, ?_⟩
  rw [Storage.times, (lookup_eq_some_iff (hok.storage st hst).distinct).mpr ⟨hp, rfl⟩]
  exact Option.some_ne_none _

/-- The hashes of the contents are those that the store has. -/
theorem mem_hashes_iff (hok : s.Ok) : id ∈ s.contents.hashes ↔ lookup Storage.id s.storage id ≠ none := by
  constructor
  · rintro ⟨addr, hsome⟩ hnone
    exact hsome (by rw [contents, hnone, Option.bind_none])
  · intro hsome
    obtain ⟨st, hfound⟩ := Option.ne_none_iff_exists'.mp hsome
    obtain ⟨addr, haddr⟩ := exists_times hok ((lookup_eq_some_iff hok.distinct).mp hfound).1
    exact ⟨addr, by rwa [contents, hfound, Option.bind_some]⟩

theorem ncard_hashes (hok : s.Ok) : s.contents.hashes.ncard = s.storage.length := by
  rw [← ncard_keys hok.distinct]
  congr 1
  ext id
  exact mem_hashes_iff hok

theorem contents_set {i : Nat} {st st' : Storage} (hok : s.Ok) (hget : s.storage[i]? = some st) (hid : st.id = id)
    (hstored : Storage.Stored st now ip port st') :
    contents { s with storage := s.storage.set i st' } = s.contents.announce now id (ip, port) := by
  have hst : StorageOk st := hok.storage st (List.mem_of_getElem? hget)
  have hfound : lookup Storage.id s.storage id = some st :=
    (lookup_eq_some_iff hok.distinct).mpr ⟨List.mem_of_getElem? hget, hid⟩
  have hmem : id ∈ s.contents.hashes := (mem_hashes_iff hok).mpr (by rw [hfound]; exact Option.some_ne_none st)
  have htimes : s.contents id = st.times := by
    funext addr
    rw [contents, hfound, Option.bind_some]
  have hfull : s.contents.Full id (ip, port) ↔ st.times (ip, port) = none ∧ dhtMaxPeers ≤ st.peers.length := by
    rw [Swarms.Full, Swarms.peers, htimes, Storage.ncard_times hst.distinct]
    tauto
  have hsame : st'.id = st.id := (Storage.ok_of_stored hstored hst.room hst.limit hst.distinct).2
  have hset : ∀ k, lookup Storage.id (s.storage.set i st') k =
      if k = id then some st' else lookup Storage.id s.storage k := by
    intro k
    rw [lookup_set hok.distinct hget hsame, hid]
  funext k addr
  rw [contents, hset, Swarms.announce]
  by_cases hk : k = id
  · rw [if_pos hk, Option.bind_some, Storage.times_of_stored hstored hst.distinct, hk]
    by_cases hno : s.contents.Full id (ip, port)
    · rw [if_pos (hfull.mp hno), if_pos hno, htimes]
    · rw [if_neg (mt hfull.mpr hno), if_neg hno, Function.update_self, htimes]
  · rw [if_neg hk]
    split
    · rfl
    · rw [Function.update_of_ne hk]
      rfl

theorem full_of_new (hok : s.Ok) (hnew : id ∉ s.storage.map Storage.id) (hlength : dhtMaxHashes ≤ s.storage.length) :
    s.contents.Full id (ip, port) := by
  have hout : id ∉ s.contents.hashes := by
    rw [mem_hashes_iff hok, lookup_eq_none_iff.mpr hnew]
    exact not_not.mpr rfl
  have hnone : s.contents id (ip, port) = none := by
    by_contra hsome
    exact hout ⟨_, hsome⟩
  exact ⟨hnone, Or.inr ⟨hout, by rwa [ncard_hashes hok]⟩⟩

theorem contents_cons {st' : Storage} (hok : s.Ok) (hnew : id ∉ s.storage.map Storage.id)
    (hlength : s.storage.length < dhtMaxHashes) (hstored : Storage.Stored (emptyStorage id) now ip port st') :
    contents { storage := st' :: s.storage, numstorage := s.numstorage + 1 } =
      s.contents.announce now id (ip, port) := by
  have hhashes : s.contents.hashes.ncard = s.storage.length := ncard_hashes hok
  have hfound : lookup Storage.id s.storage id = none := lookup_eq_none_iff.mpr hnew
  have hempty : s.contents id = fun _ => none := by
    funext addr
    rw [contents, hfound, Option.bind_none]
  have hroom : ¬s.contents.Full id (ip, port) := by
    rintro ⟨-, hpeers | ⟨-, hmany⟩⟩
    · have hzero : (s.contents.peers id).ncard = 0 := by
        rw [Swarms.peers, hempty]
        simp
      have hpos : 0 < dhtMaxPeers := by decide
      omega
    · omega
  have hkeyed : Keyed Peer.addr (emptyStorage id).peers := List.nodup_nil
  have hsame : st'.id = id := (Storage.ok_of_stored hstored (Nat.le_refl 0) (Nat.zero_le dhtMaxPeers) hkeyed).2
  have htimes : st'.times = Function.update (fun _ => none) (ip, port) (some now) := by
    rw [Storage.times_of_stored hstored hkeyed, if_neg]
    · rfl
    · exact fun h => Nat.not_succ_le_zero 2047 h.2
  funext k addr
  rw [contents, lookup_cons, hsame, Swarms.announce, if_neg hroom, hempty]
  by_cases hk : k = id
  · rw [if_pos hk, Option.bind_some, htimes, hk, Function.update_self]
  · rw [if_neg hk, Function.update_of_ne hk]
    rfl

/-- **An announcement to the store is one to the map.** -/
theorem Announced.contents_eq (h : Announced s now id ip port s') (hok : s.Ok) :
    s'.contents = s.contents.announce now id (ip, port) := by
  cases h with
  | known i st st' hget hid hstored => exact contents_set hok hget hid hstored
  | full hnew hlength => rw [Swarms.announce, if_pos (full_of_new hok hnew hlength)]
  | added st' hnew hlength hstored => exact contents_cons hok hnew hlength hstored

end Store

/-! ### Expiry -/

/-- What is left is the front, and what was behind the peer in some order. -/
theorem swapRemove_spec {peers : List Peer} {i : Nat} (hi : i < peers.length) :
    ∃ back, swapRemove peers i = peers.take i ++ back ∧ back.Perm (peers.drop (i + 1)) := by
  obtain ⟨init, last, rfl⟩ : ∃ init last, peers = init ++ [last] := by
    have hne : peers ≠ [] := List.ne_nil_of_length_pos (by omega)
    exact ⟨peers.dropLast, peers.getLast hne, (List.dropLast_append_getLast hne).symm⟩
  have hlast : (init ++ [last]).getLast? = some last := List.getLast?_concat
  rw [List.length_append, List.length_singleton] at hi
  rw [swapRemove, hlast]
  dsimp only
  rw [List.length_append, List.length_singleton, Nat.add_sub_cancel]
  by_cases hend : i = init.length
  · rw [if_neg (not_not.mpr hend), List.dropLast_concat, hend]
    refine ⟨[], ?_, ?_⟩
    · rw [List.take_append_of_le_length (Nat.le_refl _), List.take_length, List.append_nil]
    · rw [List.drop_of_length_le (by rw [List.length_append, List.length_singleton])]
  · have hlt : i < init.length := by omega
    rw [if_pos hend, List.set_append_left i last hlt, List.dropLast_concat, List.set_eq_take_append_cons_drop,
      if_pos hlt]
    refine ⟨last :: init.drop (i + 1), ?_, ?_⟩
    · rw [List.take_append_of_le_length hlt.le]
    · rw [List.drop_append_of_le_length (by omega)]
      exact (List.perm_append_singleton last _).symm

/-- **Moving the last peer over each stale one takes out exactly the stale ones.** -/
theorem expirePeers_perm (now : Int) (peers : List Peer) (i : Nat) :
    (expirePeers now peers i).Perm (peers.take i ++ (peers.drop i).filter fun p => !stale now p) := by
  fun_induction expirePeers now peers i with
  | case1 peers i hi hstale ih =>
      obtain ⟨back, hswap, hback⟩ := swapRemove_spec hi
      have hlength : (peers.take i).length = i := by rw [List.length_take, min_eq_left hi.le]
      have htake : (swapRemove peers i).take i = peers.take i := by
        rw [hswap, List.take_append_of_le_length hlength.ge, List.take_of_length_le hlength.le]
      have hdrop : (swapRemove peers i).drop i = back := by
        rw [hswap, List.drop_append_of_le_length hlength.ge, List.drop_of_length_le hlength.le, List.nil_append]
      rw [htake, hdrop] at ih
      apply ih.trans
      rw [List.drop_eq_getElem_cons hi, List.filter_cons_of_neg (by rw [hstale]; exact Bool.false_ne_true)]
      exact (hback.filter _).append_left _
  | case2 peers i hi hfresh ih =>
      have hkeep : (!stale now peers[i]) = true := by rw [Bool.not_eq_true] at hfresh; rw [hfresh]; rfl
      apply ih.trans
      rw [List.drop_eq_getElem_cons hi, List.filter_cons_of_pos (p := fun p => !stale now p) hkeep, List.take_succ_eq_append_getElem hi,
        List.append_assoc, List.singleton_append]
  | case3 peers i hi =>
      rw [List.take_of_length_le (not_lt.mp hi), List.drop_of_length_le (not_lt.mp hi), List.filter_nil,
        List.append_nil]

theorem perm_expirePeers (now : Int) (peers : List Peer) :
    (expirePeers now peers 0).Perm (peers.filter fun p => !stale now p) := expirePeers_perm now peers 0

namespace Storage

variable {now : Int} {st st' : Storage}

/-- A hash with the peers that are not stale, if there are any. -/
def expired (now : Int) (st : Storage) : Option Storage :=
  if expirePeers now st.peers 0 = [] then none else some { st with peers := expirePeers now st.peers 0 }

theorem id_of_expired (st st' : Storage) (hexpired : st.expired now = some st') : st'.id = st.id := by
  rw [expired] at hexpired
  split at hexpired
  · cases hexpired
  · obtain rfl := Option.some.inj hexpired
    rfl

theorem ok_of_expired (hst : StorageOk st) (hexpired : st.expired now = some st') : StorageOk st' := by
  have hperm := perm_expirePeers now st.peers
  rw [expired] at hexpired
  split at hexpired
  · cases hexpired
  · rename_i hne
    obtain rfl := Option.some.inj hexpired
    refine ⟨hne, ?_, hst.limit, ?_⟩
    · dsimp only
      rw [hperm.length_eq]
      exact (List.length_filter_le _ _).trans hst.room
    · exact ((hperm.map Peer.addr).nodup_iff).mpr (hst.distinct.sublist (List.filter_sublist.map Peer.addr))

theorem times_expired (hst : StorageOk st) (addr : Bytes × UInt16) :
    ((st.expired now).bind fun st => st.times addr) = (st.times addr).filter fun time => !(time < now - 32 * 60) := by
  have hperm := perm_expirePeers now st.peers
  have hkeyed : Keyed Peer.addr (st.peers.filter fun p => !stale now p) :=
    hst.distinct.sublist (List.filter_sublist.map Peer.addr)
  have hfilter : ((lookup Peer.addr (expirePeers now st.peers 0) addr).map Peer.time) =
      (st.times addr).filter fun time => !(time < now - 32 * 60) := by
    rw [lookup_perm hkeyed hperm.symm, lookup_filter hst.distinct, times, Option.filter_map]
    rfl
  rw [expired]
  split
  · rename_i hnil
    rw [hnil] at hfilter
    exact hfilter
  · exact hfilter

end Storage

namespace Store

variable {s : Store} {now : Int}

theorem expireFrom_eq (now : Int) (storage : List Storage) (numstorage : Int) (hcount : storage.length ≤ numstorage) :
    expireFrom now storage numstorage =
      (storage.filterMap (Storage.expired now),
        numstorage - storage.length + (storage.filterMap (Storage.expired now)).length) := by
  induction storage generalizing numstorage with
  | nil => simp [expireFrom]
  | cons st storage ih =>
      rw [List.length_cons, Nat.cast_add, Nat.cast_one] at hcount
      rw [expireFrom, List.length_cons]
      dsimp only
      by_cases hnil : expirePeers now st.peers 0 = []
      · have hnone : st.expired now = none := if_pos hnil
        rw [if_pos (by rw [hnil, List.length_nil]), List.filterMap_cons_none hnone, if_neg (by omega),
          ih _ (by omega)]
        simp only [Prod.mk.injEq, true_and]
        omega
      · have hsome : st.expired now = some { st with peers := expirePeers now st.peers 0 } := if_neg hnil
        rw [if_neg (mt List.length_eq_zero_iff.mp hnil), List.filterMap_cons_some hsome, ih _ (by omega),
          List.length_cons]
        simp only [Prod.mk.injEq, true_and]
        omega

theorem expireStorage_eq (hok : s.Ok) (now : Int) :
    s.expireStorage now =
      { storage := s.storage.filterMap (Storage.expired now)
        numstorage := (s.storage.filterMap (Storage.expired now)).length } := by
  have hcounted : s.numstorage = s.storage.length := hok.counted
  rw [expireStorage, expireFrom_eq now s.storage s.numstorage hcounted.ge]
  simp only [mk.injEq, true_and]
  omega

theorem Ok.expireStorage (hok : s.Ok) (now : Int) : (s.expireStorage now).Ok := by
  rw [expireStorage_eq hok]
  refine ⟨fun st hst => ?_, rfl, ?_, keyed_filterMap hok.distinct Storage.id_of_expired⟩
  · obtain ⟨old, hold, hexpired⟩ := List.mem_filterMap.mp hst
    exact Storage.ok_of_expired (hok.storage old hold) hexpired
  · exact (List.length_filterMap_le _ _).trans hok.room

/-- **Expiry of the store is expiry of the map.** -/
theorem contents_expireStorage (hok : s.Ok) (now : Int) : (s.expireStorage now).contents = s.contents.expire now := by
  funext id addr
  have hlookup : lookup Storage.id (s.storage.filterMap (Storage.expired now)) id =
      (lookup Storage.id s.storage id).bind (Storage.expired now) :=
    lookup_filterMap hok.distinct Storage.id_of_expired
  rw [expireStorage_eq hok, contents, hlookup, Swarms.expire, contents]
  cases hfound : lookup Storage.id s.storage id with
  | none => rfl
  | some st =>
      have hst : StorageOk st := hok.storage st ((lookup_eq_some_iff hok.distinct).mp hfound).1
      exact Storage.times_expired hst addr

end Store

/-! ### Runs -/

inductive StoreOp where
  | announce (now : Int) (id : Hash) (sa : SockAddr) (port : UInt16)
  | expire (now : Int)

def Store.apply (s : Store) : StoreOp → Store
  | .announce now id sa port => (s.storageStore now id sa port).1
  | .expire now => s.expireStorage now

noncomputable def Swarms.apply (m : Swarms) : StoreOp → Swarms
  | .announce now id sa port => m.announce now id (sa.ip, port)
  | .expire now => m.expire now

theorem Store.Ok.apply {s : Store} (hok : s.Ok) (op : StoreOp) :
    (s.apply op).Ok ∧ (s.apply op).contents = s.contents.apply op := by
  cases op with
  | announce now id sa port =>
      have hspec := Store.storageStore_spec hok now id sa port
      exact ⟨hspec.ok hok, hspec.contents_eq hok⟩
  | expire now => exact ⟨hok.expireStorage now, Store.contents_expireStorage hok now⟩

theorem Store.Ok.run {s : Store} (hok : s.Ok) (ops : List StoreOp) :
    (run Store.apply s ops).Ok ∧ (run Store.apply s ops).contents = run Swarms.apply s.contents ops := by
  induction ops generalizing s with
  | nil => exact ⟨hok, rfl⟩
  | cons op ops ih =>
      obtain ⟨hok', hcontents⟩ := hok.apply op
      rw [run_cons, run_cons, ← hcontents]
      exact ih hok'

end CLibp2p.Routing.Dht
