import CLibp2p.Machine.Window
import CLibp2p.Proof.Base58
import CLibp2p.Routing.DhtUtils

/-!
# The closest peers are the closest

The array of the closest peers is a window over the peers of the peerstore that are not the local one.
Comparing two distances byte by byte is comparing the numbers they stand for.
-/

namespace CLibp2p.Routing

open Duplex Peer Machine Crypto

variable {sha256 : Bytes → Bytes} {targetKey : Bytes}

/-- The XOR distance of a peer from the hash of the key, as a number. -/
def distanceTo (sha256 : Bytes → Bytes) (targetKey : Bytes) (peer : Libp2pPeer) : Nat :=
  bigEndian (xorDistance (hashPeerId sha256 targetKey) (hashPeerId sha256 peer.id))

def nonLocal (peerstore : PeerEntries) : List Libp2pPeer :=
  peerstore.nodes.filter fun peer => !peer.isLocal

/-! ### Distances -/

theorem distanceLt_iff {d1 d2 : Bytes} (hlength : d1.length = d2.length) :
    distanceLt d1 d2 = true ↔ bigEndian d1 < bigEndian d2 := by
  induction d1 generalizing d2 with
  | nil =>
      obtain rfl := List.length_eq_zero_iff.mp hlength.symm
      simp [distanceLt]
  | cons x d1 ih =>
      cases d2 with
      | nil => cases hlength
      | cons y d2 =>
          have hrest : d1.length = d2.length := Nat.succ.inj hlength
          have hd1 := bigEndian_lt d1
          have hd2 := bigEndian_lt d2
          rw [bigEndian_cons, bigEndian_cons, distanceLt, hrest]
          rw [hrest] at hd1
          by_cases hsame : x = y
          · rw [if_neg (not_not.mpr hsame), ih hrest, hsame]
            omega
          · rw [if_pos hsame, decide_eq_true_iff, UInt8.lt_iff_toNat_lt]
            have hne : x.toNat ≠ y.toNat := mt UInt8.toNat_inj.mp hsame
            constructor
            · intro hless
              have hmul : (x.toNat + 1) * 256 ^ d2.length ≤ y.toNat * 256 ^ d2.length :=
                Nat.mul_le_mul_right _ hless
              rw [Nat.add_mul, Nat.one_mul] at hmul
              omega
            · intro hless
              by_contra hnot
              have hmul : (y.toNat + 1) * 256 ^ d2.length ≤ x.toNat * 256 ^ d2.length :=
                Nat.mul_le_mul_right _ (by omega)
              rw [Nat.add_mul, Nat.one_mul] at hmul
              omega

theorem length_hashPeerId (hsha : ∀ data, (sha256 data).length = 32) (peerId : Bytes) :
    (hashPeerId sha256 peerId).length = dhtIdSize := by
  rw [hashPeerId, List.length_take, hsha]
  rfl

theorem length_xorDistance {a b : Bytes} (hlength : a.length = b.length) :
    (xorDistance a b).length = a.length := by
  rw [xorDistance, List.length_zipWith, hlength, Nat.min_self]

/-- Only the complement has the greatest distance. -/
theorem xorDistance_eq_replicate_iff {a b : Bytes} (hlength : a.length = b.length) :
    xorDistance a b = List.replicate a.length 0xff ↔ b = a.map fun byte => ~~~byte := by
  induction a generalizing b with
  | nil =>
      obtain rfl := List.length_eq_zero_iff.mp hlength.symm
      simp [xorDistance]
  | cons x a ih =>
      cases b with
      | nil => cases hlength
      | cons y b =>
          have hcomplement : x ^^^ ~~~x = 0xff := by
            rw [UInt8.xor_not, UInt8.xor_self]
            rfl
          have hbyte : x ^^^ y = 0xff ↔ y = ~~~x := by
            rw [← hcomplement, UInt8.xor_right_inj]
          rw [xorDistance, List.zipWith_cons_cons, ← xorDistance, List.length_cons, List.replicate_succ,
            List.cons.injEq, ih (Nat.succ.inj hlength), List.map_cons, List.cons.injEq, hbyte]

theorem bigEndian_lt_greatest {distance : Bytes} (hlength : distance.length = dhtIdSize)
    (hne : distance ≠ List.replicate dhtIdSize 0xff) :
    bigEndian distance < bigEndian (List.replicate dhtIdSize 0xff) := by
  have hlt := bigEndian_lt distance
  rw [hlength] at hlt
  have hgreatest : bigEndian (List.replicate dhtIdSize 0xff) = 256 ^ dhtIdSize - 1 := by decide
  have hother : bigEndian distance ≠ bigEndian (List.replicate dhtIdSize 0xff) := by
    intro heq
    exact hne (bigEndian_injective (by rw [hlength, List.length_replicate]) heq)
  omega

/-! ### The scan -/

/-- The key that the array of the closest peers is sorted by. -/
def distanceKey (entry : Bytes × Libp2pPeer) : Nat := bigEndian entry.1

theorem findIdx?_congr {α : Type} {p q : α → Bool} {list : List α} (hsame : ∀ a ∈ list, p a = q a) :
    list.findIdx? p = list.findIdx? q := by
  induction list with
  | nil => rfl
  | cons a list ih =>
      obtain ⟨hhead, htail⟩ := List.forall_mem_cons.mp hsame
      rw [List.findIdx?_cons, List.findIdx?_cons, hhead, ih htail]

/-- A peer that is not at the greatest distance is put in its place in the window. -/
theorem insertClosest_eq {numResults : Nat} {distance : Bytes} {peer : Libp2pPeer}
    {closest : List (Bytes × Libp2pPeer)} (hlength : distance.length = dhtIdSize)
    (hne : distance ≠ List.replicate dhtIdSize 0xff)
    (hclosest : ∀ entry ∈ closest, entry.1.length = dhtIdSize) (hroom : closest.length ≤ numResults) :
    insertClosest numResults distance peer closest =
      windowStep distanceKey numResults closest (distance, peer) := by
  have hsame : closest.findIdx? (fun entry => distanceLt distance entry.1) =
      closest.findIdx? fun entry => decide (distanceKey (distance, peer) < distanceKey entry) := by
    refine findIdx?_congr fun entry hentry => ?_
    rw [Bool.eq_iff_iff, decide_eq_true_iff]
    exact distanceLt_iff (by rw [hlength, hclosest entry hentry])
  rw [insertClosest, hsame, windowStep]
  cases hfound : closest.findIdx? fun entry =>
      decide (distanceKey (distance, peer) < distanceKey entry) with
  | some i => rw [place_of_findIdx?_eq_some hfound]
  | none =>
      have hgreatest : distanceLt distance (List.replicate dhtIdSize 0xff) = true :=
        (distanceLt_iff (by rw [hlength, List.length_replicate])).mpr (bigEndian_lt_greatest hlength hne)
      rw [place_of_findIdx?_eq_none hfound, hgreatest, Bool.and_true]
      dsimp only
      by_cases hfull : closest.length < numResults
      · rw [if_pos (by simpa using hfull), List.take_of_length_le]
        rw [List.length_append, List.length_singleton]
        exact hfull
      · rw [if_neg (by simpa using hfull), List.take_append_of_le_length (by omega), List.take_of_length_le hroom]

/-- The entry of a peer in the array. -/
def entryFor (sha256 : Bytes → Bytes) (targetKey : Bytes) (peer : Libp2pPeer) : Bytes × Libp2pPeer :=
  (xorDistance (hashPeerId sha256 targetKey) (hashPeerId sha256 peer.id), peer)

/-- No peer has the complement of the hash of the key. -/
def NoComplement (sha256 : Bytes → Bytes) (targetKey : Bytes) (peers : List Libp2pPeer) : Prop :=
  ∀ peer ∈ peers,
    hashPeerId sha256 peer.id ≠ (hashPeerId sha256 targetKey).map fun byte => ~~~byte

theorem foldl_insertClosest (hsha : ∀ data, (sha256 data).length = 32) {numResults : Nat}
    {peers : List Libp2pPeer} (hcomplement : NoComplement sha256 targetKey peers)
    {closest : List (Bytes × Libp2pPeer)} (hclosest : ∀ entry ∈ closest, entry.1.length = dhtIdSize)
    (hroom : closest.length ≤ numResults) :
    peers.foldl (fun closest peer => insertClosest numResults
        (xorDistance (hashPeerId sha256 targetKey) (hashPeerId sha256 peer.id)) peer closest) closest =
      (peers.map (entryFor sha256 targetKey)).foldl (windowStep distanceKey numResults) closest := by
  induction peers generalizing closest with
  | nil => rfl
  | cons peer peers ih =>
      obtain ⟨hpeer, hpeers⟩ := List.forall_mem_cons.mp hcomplement
      have hhashes : (hashPeerId sha256 targetKey).length = (hashPeerId sha256 peer.id).length := by
        rw [length_hashPeerId hsha, length_hashPeerId hsha]
      have hlength : (xorDistance (hashPeerId sha256 targetKey)
          (hashPeerId sha256 peer.id)).length = dhtIdSize := by
        rw [length_xorDistance hhashes, length_hashPeerId hsha]
      have hne : xorDistance (hashPeerId sha256 targetKey) (hashPeerId sha256 peer.id) ≠
          List.replicate dhtIdSize 0xff := by
        intro heq
        rw [← length_hashPeerId hsha targetKey, xorDistance_eq_replicate_iff hhashes] at heq
        exact hpeer heq
      rw [List.foldl_cons, List.map_cons, List.foldl_cons, insertClosest_eq hlength hne hclosest hroom]
      refine ih hpeers (fun entry hentry => ?_) (List.length_take_le _ _)
      rcases List.mem_cons.mp ((perm_place _ closest).mem_iff.mp (List.mem_of_mem_take hentry))
        with rfl | hold
      · exact hlength
      · exact hclosest entry hold

theorem findClosestPeers_eq (hsha : ∀ data, (sha256 data).length = 32) (peerstore : PeerEntries)
    (hcomplement : NoComplement sha256 targetKey (nonLocal peerstore)) (numResults : Nat) :
    findClosestPeers sha256 peerstore targetKey numResults =
      (((nonLocal peerstore).map (entryFor sha256 targetKey)).foldl
        (windowStep distanceKey numResults) []).map Prod.snd := by
  rw [← foldl_insertClosest hsha hcomplement (List.forall_mem_nil _) (Nat.zero_le _), nonLocal,
    List.foldl_filter, findClosestPeers]
  congr 2
  funext closest peer
  cases peer.isLocal <;> rfl

/-- The peers that are returned and those that are not, together in the order of their distances. -/
theorem findClosestPeers_append_left (hsha : ∀ data, (sha256 data).length = 32)
    (peerstore : PeerEntries) (hcomplement : NoComplement sha256 targetKey (nonLocal peerstore))
    (numResults : Nat) :
    ∃ left, (findClosestPeers sha256 peerstore targetKey numResults ++ left).Perm (nonLocal peerstore) ∧
      (findClosestPeers sha256 peerstore targetKey numResults).length =
        min numResults (nonLocal peerstore).length ∧
      (findClosestPeers sha256 peerstore targetKey numResults ++ left).Pairwise fun peer next =>
        distanceTo sha256 targetKey peer ≤ distanceTo sha256 targetKey next := by
  obtain ⟨left, hperm, hlength, hsorted⟩ := foldl_windowStep_spec distanceKey numResults
    ((nonLocal peerstore).map (entryFor sha256 targetKey))
  have hkey : ∀ entry ∈ (nonLocal peerstore).map (entryFor sha256 targetKey),
      distanceKey entry = distanceTo sha256 targetKey entry.2 := by
    intro entry hentry
    obtain ⟨peer, -, rfl⟩ := List.mem_map.mp hentry
    rfl
  have hpeers : ((nonLocal peerstore).map (entryFor sha256 targetKey)).map Prod.snd =
      nonLocal peerstore := by
    rw [List.map_map]
    exact List.map_id _
  rw [findClosestPeers_eq hsha peerstore hcomplement]
  refine ⟨left.map Prod.snd, ?_, ?_, ?_⟩
  · have hall := hperm.map Prod.snd
    rwa [hpeers, List.map_append] at hall
  · rw [List.length_map, hlength, List.length_map]
  · rw [← List.map_append, List.pairwise_map]
    refine hsorted.imp_of_mem fun hentry hnext hle => ?_
    rwa [hkey _ (hperm.mem_iff.mp hentry), hkey _ (hperm.mem_iff.mp hnext)] at hle

/-- **The closest peers.** As many as there are and were asked for, each of them once and none of them
local, the nearest first, and none nearer is left out. -/
theorem findClosestPeers_spec (hsha : ∀ data, (sha256 data).length = 32) {peerstore : PeerEntries}
    (hdistinct : peerstore.nodes.Nodup)
    (hcomplement : NoComplement sha256 targetKey (nonLocal peerstore)) (numResults : Nat) :
    (findClosestPeers sha256 peerstore targetKey numResults).length =
        min numResults (nonLocal peerstore).length ∧
      (findClosestPeers sha256 peerstore targetKey numResults).Nodup ∧
      (∀ peer ∈ findClosestPeers sha256 peerstore targetKey numResults,
        peer ∈ peerstore.nodes ∧ peer.isLocal = false) ∧
      (findClosestPeers sha256 peerstore targetKey numResults).Pairwise (fun peer next =>
        distanceTo sha256 targetKey peer ≤ distanceTo sha256 targetKey next) ∧
      ∀ other ∈ nonLocal peerstore, other ∉ findClosestPeers sha256 peerstore targetKey numResults →
        ∀ peer ∈ findClosestPeers sha256 peerstore targetKey numResults,
          ¬distanceTo sha256 targetKey other < distanceTo sha256 targetKey peer := by
  obtain ⟨left, hperm, hlength, hsorted⟩ :=
    findClosestPeers_append_left hsha peerstore hcomplement numResults
  have hnodup : (findClosestPeers sha256 peerstore targetKey numResults ++ left).Nodup :=
    hperm.nodup_iff.mpr (hdistinct.filter _)
  obtain ⟨hresults, -, hacross⟩ := List.pairwise_append.mp hsorted
  refine ⟨hlength, hnodup.of_append_left, fun peer hpeer => ?_, hresults, ?_⟩
  · obtain ⟨hmem, hlocal⟩ := List.mem_filter.mp (hperm.mem_iff.mp (List.mem_append_left left hpeer))
    exact ⟨hmem, by simpa using hlocal⟩
  · intro other hother hout peer hpeer
    have hleft : other ∈ left :=
      (List.mem_append.mp (hperm.mem_iff.mpr hother)).resolve_left hout
    exact not_lt.mpr (hacross peer hpeer other hleft)

/-! ### Three peers -/

def digestBytes (digest : Nat) : Bytes :=
  (List.range 32).map fun i => UInt8.ofNat (digest / 256 ^ (31 - i))

/-- SHA-256, as far as the texts `a`, `b`, `c` and `k` go. -/
def fewDigests (data : Bytes) : Bytes :=
  if data = [97] then
    digestBytes 0xca978112ca1bbdcafac231b39a23dc4da786eff8147c4e72b9807785afee48bb
  else if data = [98] then
    digestBytes 0x3e23e8160039594a33894f6564e1b1348bbd7a0088d42c4acb73eeaed59c009d
  else if data = [99] then
    digestBytes 0x2e7d2c03a9507ae265ecf5b5356885a53393a2029d241394997265a1a25aefc6
  else if data = [107] then
    digestBytes 0x8254c329a92850f6d539dd376f4816ee2764517da5e0235514af433164480d7a
  else digestBytes 0

theorem length_fewDigests (data : Bytes) : (fewDigests data).length = 32 := by
  have hdigest : ∀ digest, (digestBytes digest).length = 32 := fun digest => by simp [digestBytes]
  unfold fewDigests
  split_ifs <;> exact hdigest _

def fewPeers : PeerEntries :=
  ⟨[⟨[99], [], .notConnected, none, true⟩, ⟨[97], [], .notConnected, none, false⟩,
    ⟨[98], [], .notConnected, none, false⟩], some 2⟩

/-- The nearest of two peers that are not the local one. -/
theorem findClosestPeers_spec_one :
    (findClosestPeers fewDigests fewPeers [107] 1).length = min 1 (nonLocal fewPeers).length ∧
      (findClosestPeers fewDigests fewPeers [107] 1).Nodup ∧
      (∀ peer ∈ findClosestPeers fewDigests fewPeers [107] 1,
        peer ∈ fewPeers.nodes ∧ peer.isLocal = false) ∧
      (findClosestPeers fewDigests fewPeers [107] 1).Pairwise (fun peer next =>
        distanceTo fewDigests [107] peer ≤ distanceTo fewDigests [107] next) ∧
      ∀ other ∈ nonLocal fewPeers, other ∉ findClosestPeers fewDigests fewPeers [107] 1 →
        ∀ peer ∈ findClosestPeers fewDigests fewPeers [107] 1,
          ¬distanceTo fewDigests [107] other < distanceTo fewDigests [107] peer :=
  findClosestPeers_spec length_fewDigests (by decide) (by unfold NoComplement; decide) 1

end CLibp2p.Routing
