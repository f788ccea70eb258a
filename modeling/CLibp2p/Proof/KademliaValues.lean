import CLibp2p.Machine.Register
import CLibp2p.Proof.Kademlia

/-!
# Values that come in batches

The DHT library hands over the values of a search as one piece of memory, entry after entry. The callback
looks at the first entry of it.
-/

namespace CLibp2p.Routing

open Duplex Machine

namespace CallbackCall

/-- The call as it would be for the data behind so many bytes. -/
def behind (call : CallbackCall) (bytes : Nat) : CallbackCall :=
  { call with data := fun i => call.data (bytes + i) }

/-- The addresses of so many compact entries of 6 bytes. -/
def announced (call : CallbackCall) (n : Nat) : List (Vector UInt8 4 × UInt16) :=
  (List.range n).map fun i => (call.behind (6 * i)).ipv4.address

/-- The addresses of so many compact entries of 18 bytes. -/
def announced6 (call : CallbackCall) (n : Nat) : List Ipv6Struct :=
  (List.range n).map fun i => (call.behind (18 * i)).ipv6

end CallbackCall

/-- The entry of the hash keeps its hash and is changed as `R` says, and the other entries stay as they
are. -/
def ChangesEntry (before after : List SearchStruct) (infoHash : Hash)
    (R : SearchStruct → SearchStruct → Prop) : Prop :=
  ∀ front rp back, before = front ++ rp :: back → rp.hash = infoHash →
    (∀ sp ∈ front, sp.hash ≠ infoHash) →
      ∃ rp', after = front ++ rp' :: back ∧ rp'.hash = rp.hash ∧ R rp rp'

/-- All addresses of an event with `n` values are entered, in order. -/
def RecordsAll (searchResult : List SearchStruct) (call : CallbackCall) (n : Nat) : Prop :=
  match call.event with
  | .values => ChangesEntry searchResult (callback searchResult call) call.infoHash fun rp rp' =>
      rp'.ipv4.map Ipv4Struct.address =
          (call.announced n).foldl (enter dhtMaxIpv4) (rp.ipv4.map Ipv4Struct.address) ∧
        rp'.ipv6 = rp.ipv6
  | .values6 => ChangesEntry searchResult (callback searchResult call) call.infoHash fun rp rp' =>
      rp'.ipv6 = (call.announced6 n).foldl (enter dhtMaxIpv6) rp.ipv6 ∧ rp'.ipv4 = rp.ipv4
  | .searchDone | .searchDone6 | .none => True

/-- The first address serves for all of them, and an IPv4 address that the entry has and has room for comes
with the padding that it was stored with. -/
def FirstIsAll (searchResult : List SearchStruct) (call : CallbackCall) (n : Nat) : Prop :=
  ∀ rp ∈ entryOf searchResult call.infoHash,
    match call.event with
    | .values =>
        FirstServes dhtMaxIpv4 (rp.ipv4.map Ipv4Struct.address) call.ipv4.address (call.announced n) ∧
          (rp.ipv4.length ≠ dhtMaxIpv4 → call.ipv4.address ∈ rp.ipv4.map Ipv4Struct.address →
            call.ipv4 ∈ rp.ipv4)
    | .values6 => FirstServes dhtMaxIpv6 rp.ipv6 call.ipv6 (call.announced6 n)
    | .searchDone | .searchDone6 | .none => True

theorem behind_zero (call : CallbackCall) : call.behind 0 = call := by
  simp [CallbackCall.behind]

theorem eq_of_head_map_range {α : Type} {f : Nat → α} {n : Nat} {first : α}
    (hhead : ((List.range n).map f).head? = some first) : first = f 0 := by
  cases n with
  | zero => cases hhead
  | succ n =>
      rw [List.range_succ_eq_map, List.map_cons, List.head?_cons] at hhead
      exact (Option.some.inj hhead).symm

theorem head_announced (call : CallbackCall) (n : Nat) :
    ∀ address, (call.announced n).head? = some address → address = call.ipv4.address := by
  intro address hhead
  rw [eq_of_head_map_range hhead, Nat.mul_zero, behind_zero]

theorem head_announced6 (call : CallbackCall) (n : Nat) :
    ∀ address, (call.announced6 n).head? = some address → address = call.ipv6 := by
  intro address hhead
  rw [eq_of_head_map_range hhead, Nat.mul_zero, behind_zero]

theorem addIpv6_eq (rp : SearchStruct) (ipv6 : Ipv6Struct) :
    rp.addIpv6 ipv6 = { rp with ipv6 := enter dhtMaxIpv6 rp.ipv6 ipv6 } := by
  rw [SearchStruct.addIpv6, enter]
  split_ifs <;> rfl

/-- The address is entered as it should be, unless the padding makes it a new one. -/
theorem addIpv4_iff (rp : SearchStruct) (ipv4 : Ipv4Struct)
    {items : List (Vector UInt8 4 × UInt16)}
    (hfirst : ∀ address, items.head? = some address → address = ipv4.address) :
    (rp.addIpv4 ipv4).ipv4.map Ipv4Struct.address =
        items.foldl (enter dhtMaxIpv4) (rp.ipv4.map Ipv4Struct.address) ↔
      FirstServes dhtMaxIpv4 (rp.ipv4.map Ipv4Struct.address) ipv4.address items ∧
        (rp.ipv4.length ≠ dhtMaxIpv4 → ipv4.address ∈ rp.ipv4.map Ipv4Struct.address →
          ipv4 ∈ rp.ipv4) := by
  rw [← enter_eq_foldl_iff hfirst]
  by_cases hharmless : rp.ipv4.length ≠ dhtMaxIpv4 → ipv4.address ∈ rp.ipv4.map Ipv4Struct.address →
      ipv4 ∈ rp.ipv4
  · have hsame : (rp.addIpv4 ipv4).ipv4.map Ipv4Struct.address =
        enter dhtMaxIpv4 (rp.ipv4.map Ipv4Struct.address) ipv4.address := by
      rw [SearchStruct.addIpv4]
      split_ifs with hfull hold
      · exact (enter_of_full (by rwa [List.length_map]) _).symm
      · exact (enter_of_mem (List.mem_map_of_mem hold)).symm
      · rw [enter_of_new (by rwa [List.length_map]) fun hmem => hold (hharmless hfull hmem),
          List.map_append, List.map_singleton]
    rw [hsame, and_iff_left hharmless]
  · refine iff_of_false (fun hsame => ?_) fun h => hharmless h.2
    push Not at hharmless
    obtain ⟨hroom, hmem, hnew⟩ := hharmless
    obtain ⟨fresh, hfold, hfresh⟩ :=
      foldl_enter_eq_append dhtMaxIpv4 (rp.ipv4.map Ipv4Struct.address) items
    rw [SearchStruct.addIpv4, if_neg hroom, if_neg hnew, hfold, List.map_append,
      List.append_cancel_left_eq, List.map_singleton] at hsame
    exact hfresh ipv4.address (by rw [← hsame]; exact List.mem_singleton_self _) hmem

theorem changesEntry_atHash_iff {searchResult : List SearchStruct} {infoHash : Hash}
    {f : SearchStruct → SearchStruct} (hhash : ∀ rp, (f rp).hash = rp.hash)
    {R : SearchStruct → SearchStruct → Prop} :
    ChangesEntry searchResult (atHash searchResult infoHash f) infoHash R ↔
      ∀ rp ∈ entryOf searchResult infoHash, R rp (f rp) := by
  constructor
  · intro hchanges rp hentry
    obtain ⟨hrp, front, back, rfl, hfront⟩ := entryOf_eq_some_iff.mp hentry
    obtain ⟨rp', hafter, -, hR⟩ := hchanges front rp back rfl hrp hfront
    rw [atHash_append hrp hfront, List.append_cancel_left_eq] at hafter
    rwa [(List.cons.inj hafter).1]
  · intro hall front rp back hsplit hrp hfront
    refine ⟨f rp, by rw [hsplit, atHash_append hrp hfront], hhash rp, ?_⟩
    exact hall rp (entryOf_eq_some_iff.mpr ⟨hrp, front, back, hsplit, hfront⟩)

/-- **Values in batches.** All values of an event are recorded if and only if the first one serves for
them. -/
theorem recordsAll_iff_firstIsAll (searchResult : List SearchStruct) (call : CallbackCall) (n : Nat) :
    RecordsAll searchResult call n ↔ FirstIsAll searchResult call n := by
  cases hevent : call.event with
  | values =>
      have hkept : ∀ rp : SearchStruct, (rp.addIpv4 call.ipv4).ipv6 = rp.ipv6 := by
        intro rp
        rw [SearchStruct.addIpv4]
        split_ifs <;> rfl
      simp only [RecordsAll, FirstIsAll, callback, hevent]
      rw [changesEntry_atHash_iff fun rp => hash_addIpv4 rp _]
      refine forall₂_congr fun rp _ => ?_
      rw [and_iff_left (hkept rp), addIpv4_iff rp call.ipv4 (head_announced call n)]
  | values6 =>
      simp only [RecordsAll, FirstIsAll, callback, hevent]
      rw [changesEntry_atHash_iff fun rp => hash_addIpv6 rp _]
      refine forall₂_congr fun rp _ => ?_
      rw [addIpv6_eq, and_iff_left rfl, enter_eq_foldl_iff (head_announced6 call n)]
  | searchDone => simp [RecordsAll, FirstIsAll, hevent]
  | searchDone6 => simp [RecordsAll, FirstIsAll, hevent]
  | none => simp [RecordsAll, FirstIsAll, hevent]

/-- Two values for an entry that has none. -/
theorem not_recordsAll_two :
    ¬RecordsAll [⟨Vector.replicate 20 7, [], []⟩]
      ⟨.values, Vector.replicate 20 7, fun i => UInt8.ofNat i, 0, true⟩ 2 := by
  intro hrecords
  obtain ⟨rp', hafter, -, hall, -⟩ := hrecords [] _ [] rfl rfl (by simp)
  have hone : callback [⟨Vector.replicate 20 7, [], []⟩]
      ⟨.values, Vector.replicate 20 7, fun i => UInt8.ofNat i, 0, true⟩ =
        [⟨Vector.replicate 20 7, [⟨Vector.ofFn fun i => UInt8.ofNat i, 1029, 0⟩], []⟩] := by
    decide
  rw [hone] at hafter
  obtain ⟨rfl, -⟩ := List.cons.inj hafter
  exact absurd hall (by decide)

end CLibp2p.Routing
