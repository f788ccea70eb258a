import CLibp2p.Machine.Runs
import CLibp2p.Routing.Kademlia

/-!
# What the search results hold

The callback keeps one entry for a hash and stores no address twice as long as two of its shortcuts do
no harm. The search for the entry of a finished search stops before the last entry, and the comparison
of IPv4 addresses takes the padding of the local struct with it.
-/

namespace CLibp2p.Routing

open Duplex Machine

/-- No address twice, and not more of them than the arrays have places. -/
structure SearchStruct.Distinct (rp : SearchStruct) : Prop where
  ipv4 : (rp.ipv4.map Ipv4Struct.address).Nodup
  ipv6 : rp.ipv6.Nodup
  ipv4_le : rp.ipv4.length ≤ dhtMaxIpv4
  ipv6_le : rp.ipv6.length ≤ dhtMaxIpv6

structure SearchesDistinct (searchResult : List SearchStruct) : Prop where
  hash : (searchResult.map SearchStruct.hash).Nodup
  entries : ∀ rp ∈ searchResult, rp.Distinct

/-- The end of a search whose hash has an entry changes nothing. -/
def KnownSearchKept (searchResult : List SearchStruct) (call : CallbackCall) : Prop :=
  call.event = .searchDone ∨ call.event = .searchDone6 →
    call.infoHash ∈ searchResult.map SearchStruct.hash → callback searchResult call = searchResult

/-- The entry that a value for the hash goes to. -/
def entryOf (searchResult : List SearchStruct) (infoHash : Hash) : Option SearchStruct :=
  searchResult.find? fun rp => rp.hash == infoHash

/-- A finished search is not that of the last entry, unless there is no memory for another one. An IPv4
address that the entry has and has room for comes with the padding that it was stored with. -/
def ShortcutsHarmless (searchResult : List SearchStruct) (call : CallbackCall) : Prop :=
  match call.event with
  | .searchDone | .searchDone6 =>
      call.granted → searchResult.getLast?.map SearchStruct.hash ≠ some call.infoHash
  | .values => ∀ rp ∈ entryOf searchResult call.infoHash, rp.ipv4.length < dhtMaxIpv4 →
      call.ipv4.address ∈ rp.ipv4.map Ipv4Struct.address → call.ipv4 ∈ rp.ipv4
  | .values6 | .none => True

/-! ### Values -/

/-- The first entry of the hash is changed. -/
theorem atHash_append {front back : List SearchStruct} {rp : SearchStruct} {infoHash : Hash}
    (hhash : rp.hash = infoHash) (hfront : ∀ sp ∈ front, sp.hash ≠ infoHash)
    (f : SearchStruct → SearchStruct) :
    atHash (front ++ rp :: back) infoHash f = front ++ f rp :: back := by
  have hidx : (front ++ rp :: back).findIdx? (fun sp => sp.hash == infoHash) = some front.length := by
    rw [List.findIdx?_append, List.findIdx?_eq_none_iff.mpr (by simpa using hfront),
      List.findIdx?_cons, hhash]
    simp
  rw [atHash, hidx]
  dsimp only
  rw [List.modify_eq_take_cons_drop (by simp)]
  simp

theorem entryOf_eq_some_iff {searchResult : List SearchStruct} {infoHash : Hash} {rp : SearchStruct} :
    entryOf searchResult infoHash = some rp ↔ rp.hash = infoHash ∧
      ∃ front back, searchResult = front ++ rp :: back ∧ ∀ sp ∈ front, sp.hash ≠ infoHash := by
  rw [entryOf, List.find?_eq_some_iff_append]
  simp

theorem atHash_of_entryOf {searchResult : List SearchStruct} {infoHash : Hash} {rp : SearchStruct}
    (hentry : entryOf searchResult infoHash = some rp) (f : SearchStruct → SearchStruct) :
    ∃ before after, searchResult = before ++ rp :: after ∧
      atHash searchResult infoHash f = before ++ f rp :: after := by
  obtain ⟨hhash, before, after, rfl, hbefore⟩ := entryOf_eq_some_iff.mp hentry
  exact ⟨before, after, rfl, atHash_append hhash hbefore f⟩

theorem atHash_of_entryOf_none {searchResult : List SearchStruct} {infoHash : Hash}
    (hentry : entryOf searchResult infoHash = none) (f : SearchStruct → SearchStruct) :
    atHash searchResult infoHash f = searchResult := by
  have hidx : searchResult.findIdx? (fun sp => sp.hash == infoHash) = none := by
    rw [List.findIdx?_eq_none_iff]
    simpa [entryOf] using hentry
  rw [atHash, hidx]

theorem SearchesDistinct.atHash {searchResult : List SearchStruct}
    (hdistinct : SearchesDistinct searchResult) {infoHash : Hash} {f : SearchStruct → SearchStruct}
    (hhash : ∀ rp, (f rp).hash = rp.hash)
    (hkeep : ∀ rp ∈ entryOf searchResult infoHash, rp.Distinct → (f rp).Distinct) :
    SearchesDistinct (atHash searchResult infoHash f) := by
  cases hentry : entryOf searchResult infoHash with
  | none => rwa [atHash_of_entryOf_none hentry]
  | some rp =>
      obtain ⟨before, after, rfl, hat⟩ := atHash_of_entryOf hentry f
      have hrp : (f rp).Distinct :=
        hkeep rp hentry (hdistinct.entries rp (by simp))
      rw [hat]
      refine ⟨?_, fun sp hsp => ?_⟩
      · simpa [hhash] using hdistinct.hash
      · rcases List.mem_append.mp hsp with hbefore | htail
        · exact hdistinct.entries sp (List.mem_append_left _ hbefore)
        · rcases List.mem_cons.mp htail with rfl | hafter
          · exact hrp
          · exact hdistinct.entries sp (List.mem_append_right _ (List.mem_cons_of_mem _ hafter))

@[simp] theorem hash_addIpv4 (rp : SearchStruct) (ipv4 : Ipv4Struct) :
    (rp.addIpv4 ipv4).hash = rp.hash := by
  unfold SearchStruct.addIpv4
  split_ifs <;> rfl

@[simp] theorem hash_addIpv6 (rp : SearchStruct) (ipv6 : Ipv6Struct) :
    (rp.addIpv6 ipv6).hash = rp.hash := by
  unfold SearchStruct.addIpv6
  split_ifs <;> rfl

theorem SearchStruct.Distinct.addIpv6 {rp : SearchStruct} (hdistinct : rp.Distinct)
    (ipv6 : Ipv6Struct) : (rp.addIpv6 ipv6).Distinct := by
  unfold SearchStruct.addIpv6
  split_ifs with hfull hold
  · exact hdistinct
  · exact hdistinct
  · refine ⟨hdistinct.ipv4, ?_, hdistinct.ipv4_le, ?_⟩
    · exact List.nodup_append_comm.mp (List.nodup_cons.mpr ⟨hold, hdistinct.ipv6⟩)
    · have hle := hdistinct.ipv6_le
      rw [List.length_append, List.length_singleton]
      omega

/-- An address is stored once if it is compared with the padding it was stored with, and twice
otherwise. -/
theorem SearchStruct.Distinct.addIpv4_iff {rp : SearchStruct} (hdistinct : rp.Distinct)
    (ipv4 : Ipv4Struct) :
    (rp.addIpv4 ipv4).Distinct ↔ (rp.ipv4.length < dhtMaxIpv4 →
      ipv4.address ∈ rp.ipv4.map Ipv4Struct.address → ipv4 ∈ rp.ipv4) := by
  have hle := hdistinct.ipv4_le
  unfold SearchStruct.addIpv4
  split_ifs with hfull hold
  · exact ⟨fun _ hroom => absurd hroom (by omega), fun _ => hdistinct⟩
  · exact ⟨fun _ _ _ => hold, fun _ => hdistinct⟩
  · constructor
    · intro hnew _ hmem
      have hnodup := hnew.ipv4
      rw [List.map_append] at hnodup
      exact absurd hmem ((List.nodup_cons.mp (List.nodup_append_comm.mp hnodup)).1)
    · intro hharmless
      have hroom : rp.ipv4.length < dhtMaxIpv4 := by omega
      have hnew : ipv4.address ∉ rp.ipv4.map Ipv4Struct.address :=
        fun hmem => hold (hharmless hroom hmem)
      refine ⟨?_, hdistinct.ipv6, ?_, hdistinct.ipv6_le⟩
      · rw [List.map_append]
        exact List.nodup_append_comm.mp (List.nodup_cons.mpr ⟨hnew, hdistinct.ipv4⟩)
      · rw [List.length_append, List.length_singleton]
        exact hroom

/-! ### Finished searches -/

theorem getLast_hash_notMem_dropLast {searchResult : List SearchStruct}
    (hdistinct : SearchesDistinct searchResult) {infoHash : Hash}
    (hlast : searchResult.getLast?.map SearchStruct.hash = some infoHash) :
    ∀ sp ∈ searchResult.dropLast, sp.hash ≠ infoHash := by
  obtain ⟨last, hat, rfl⟩ := Option.map_eq_some_iff.mp hlast
  obtain ⟨before, rfl⟩ := List.getLast?_eq_some_iff.mp hat
  have hnodup := hdistinct.hash
  rw [List.map_append] at hnodup
  have hnotMem := (List.nodup_cons.mp (List.nodup_append_comm.mp hnodup)).1
  intro sp hsp heq
  rw [List.dropLast_concat] at hsp
  exact hnotMem (heq ▸ List.mem_map_of_mem hsp)

/-- What the two events for a finished search do. -/
theorem callback_searchDone {searchResult : List SearchStruct} {call : CallbackCall}
    (hevent : call.event = .searchDone ∨ call.event = .searchDone6) :
    callback searchResult call =
      if (∀ sp ∈ searchResult.dropLast, sp.hash ≠ call.infoHash) ∧ call.granted then
        searchResult ++ [⟨call.infoHash, [], []⟩]
      else searchResult := by
  have hsame : callback searchResult call =
      callback searchResult { call with event := .searchDone } := by
    rcases hevent with hevent | hevent <;> simp only [callback, hevent]
  rw [hsame]
  simp only [callback]
  cases searchResult with
  | nil => simp
  | cons head tail =>
      dsimp only
      by_cases hknown : ∀ sp ∈ (head :: tail).dropLast, sp.hash ≠ call.infoHash
      · have hany : (head :: tail).dropLast.any (fun sp => sp.hash == call.infoHash) = false := by
          simpa using hknown
        rw [if_neg (by simp [hany])]
        exact if_congr (and_iff_right hknown).symm rfl rfl
      · have hany : (head :: tail).dropLast.any (fun sp => sp.hash == call.infoHash) = true := by
          simpa using hknown
        rw [if_pos hany, if_neg fun h => hknown h.1]

theorem mem_dropLast_of_getLast_ne {searchResult : List SearchStruct} {infoHash : Hash}
    (hknown : infoHash ∈ searchResult.map SearchStruct.hash)
    (hlast : searchResult.getLast?.map SearchStruct.hash ≠ some infoHash) :
    ∃ sp ∈ searchResult.dropLast, sp.hash = infoHash := by
  obtain ⟨sp, hsp, rfl⟩ := List.mem_map.mp hknown
  rcases List.eq_nil_or_concat' searchResult with rfl | ⟨before, last, rfl⟩
  · simp at hsp
  · refine ⟨sp, ?_, rfl⟩
    rw [List.dropLast_concat]
    rcases List.mem_append.mp hsp with hbefore | htail
    · exact hbefore
    · obtain rfl := List.mem_singleton.mp htail
      simp at hlast

theorem KnownSearchKept.of_harmless {searchResult : List SearchStruct} {call : CallbackCall}
    (hharmless : ShortcutsHarmless searchResult call) : KnownSearchKept searchResult call := by
  intro hevent hknown
  have hlast : call.granted → searchResult.getLast?.map SearchStruct.hash ≠ some call.infoHash := by
    rcases hevent with hevent | hevent <;> simpa [ShortcutsHarmless, hevent] using hharmless
  rw [callback_searchDone hevent, if_neg]
  rintro ⟨hnone, hgranted⟩
  obtain ⟨sp, hsp, hhash⟩ := mem_dropLast_of_getLast_ne hknown (hlast hgranted)
  exact hnone sp hsp hhash

/-! ### One call and a run -/

theorem SearchesDistinct.searchDone {searchResult : List SearchStruct} {call : CallbackCall}
    (hdistinct : SearchesDistinct searchResult)
    (hevent : call.event = .searchDone ∨ call.event = .searchDone6) :
    SearchesDistinct (callback searchResult call) ↔
      (call.granted → searchResult.getLast?.map SearchStruct.hash ≠ some call.infoHash) := by
  rw [callback_searchDone hevent]
  constructor
  · intro hnew hgranted hlast
    rw [if_pos ⟨getLast_hash_notMem_dropLast hdistinct hlast, hgranted⟩] at hnew
    have hnodup := hnew.hash
    rw [List.map_append] at hnodup
    obtain ⟨last, hlast, hhash⟩ := Option.map_eq_some_iff.mp hlast
    refine (List.nodup_cons.mp (List.nodup_append_comm.mp hnodup)).1 ?_
    exact List.mem_map.mpr ⟨last, List.mem_of_getLast? hlast, hhash⟩
  · intro hlast
    split_ifs with hadd
    · have hfresh : call.infoHash ∉ searchResult.map SearchStruct.hash := by
        intro hknown
        obtain ⟨sp, hsp, hhash⟩ := mem_dropLast_of_getLast_ne hknown (hlast hadd.2)
        exact hadd.1 sp hsp hhash
      refine ⟨?_, fun rp hrp => ?_⟩
      · rw [List.map_append]
        exact List.nodup_append_comm.mp (List.nodup_cons.mpr ⟨hfresh, hdistinct.hash⟩)
      · rcases List.mem_append.mp hrp with hold | hnew
        · exact hdistinct.entries rp hold
        · obtain rfl := List.mem_singleton.mp hnew
          exact ⟨List.nodup_nil, List.nodup_nil, Nat.zero_le _, Nat.zero_le _⟩
    · exact hdistinct

theorem SearchesDistinct.callback_iff {searchResult : List SearchStruct} {call : CallbackCall}
    (hdistinct : SearchesDistinct searchResult) :
    SearchesDistinct (callback searchResult call) ↔ ShortcutsHarmless searchResult call := by
  cases hevent : call.event with
  | none => simpa [callback, ShortcutsHarmless, hevent] using hdistinct
  | searchDone =>
      rw [hdistinct.searchDone (.inl hevent)]
      simp [ShortcutsHarmless, hevent]
  | searchDone6 =>
      rw [hdistinct.searchDone (.inr hevent)]
      simp [ShortcutsHarmless, hevent]
  | values6 =>
      simp only [callback, ShortcutsHarmless, hevent, iff_true]
      exact hdistinct.atHash (fun rp => hash_addIpv6 rp _) fun rp _ hrp => hrp.addIpv6 _
  | values =>
      simp only [callback, ShortcutsHarmless, hevent]
      constructor
      · intro hnew rp hentry
        obtain ⟨before, after, hsplit, hat⟩ := atHash_of_entryOf hentry fun rp => rp.addIpv4 call.ipv4
        have hrp : rp.Distinct := hdistinct.entries rp (by rw [hsplit]; simp)
        have hadded : (rp.addIpv4 call.ipv4).Distinct := hnew.entries _ (by rw [hat]; simp)
        exact (hrp.addIpv4_iff _).mp hadded
      · intro hharmless
        refine hdistinct.atHash (fun rp => hash_addIpv4 rp _) fun rp hentry hrp => ?_
        exact (hrp.addIpv4_iff _).mpr (hharmless rp hentry)

/-- In every state that the calls lead to, one entry for a hash and no address twice, and every call for
a finished search whose hash is known changes nothing. -/
def SearchesKept (calls : List CallbackCall) : Prop :=
  (∀ reached, reached <+: calls → SearchesDistinct (run callback [] reached)) ∧
    Along callback KnownSearchKept [] calls

theorem searchesKept_iff (calls : List CallbackCall) :
    SearchesKept calls ↔ Along callback ShortcutsHarmless [] calls := by
  have hruns : (∀ reached, reached <+: calls → SearchesDistinct (run callback [] reached)) ↔
      Along callback ShortcutsHarmless [] calls :=
    along_iff_good callback (fun _ => id) (fun _ _ hdistinct => hdistinct.callback_iff.mpr)
      (fun _ _ hdistinct => mt hdistinct.callback_iff.mp) ⟨List.nodup_nil, by simp⟩
  refine ⟨fun hkept => hruns.mp hkept.1, fun hharmless => ⟨hruns.mpr hharmless, ?_⟩⟩
  exact hharmless.mono fun _ _ => KnownSearchKept.of_harmless

/-- A search that is finished twice has two entries. -/
theorem not_searchesKept_same_search :
    ¬SearchesKept (List.replicate 2 ⟨.searchDone, Vector.replicate 20 7, fun _ => 0, 0, true⟩) := by
  intro hkept
  have hnodup := (hkept.1 _ (List.prefix_refl _)).hash
  revert hnodup
  decide

end CLibp2p.Routing
