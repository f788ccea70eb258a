import CLibp2p.Hashmap.Hashmap
import Mathlib.Data.Finset.Card
import Mathlib.Tactic.Ring

/-!
# When the hashmap is a finite map

`libp2p_hashmap_put` counts every call, also one that only overwrites. So the length is right as long as
no key is put that is there. A put succeeds where the probe chains are not crowded, be it in a larger
table, and a rehash then keeps every entry.
-/

namespace CLibp2p.Hashmap

open Duplex
open ProbeTable (Placed Holds entries search fit)

variable {κ α : Type}

theorem length_chain (hash : κ → UInt64) (tableSize : Nat) (key : κ) :
    (chain hash tableSize key).length = maxChainLength := by
  rw [chain, List.length_map, List.length_range]

theorem lt_of_mem_chain {hash : κ → UInt64} {tableSize : Nat} (hsize : 0 < tableSize) {key : κ}
    {i : Nat} (hmem : i ∈ chain hash tableSize key) : i < tableSize := by
  rw [chain, List.mem_map] at hmem
  obtain ⟨step, -, rfl⟩ := hmem
  exact Nat.mod_lt _ hsize

theorem nodup_chain (hash : κ → UInt64) {tableSize : Nat} (hsize : maxChainLength ≤ tableSize)
    (key : κ) : (chain hash tableSize key).Nodup := by
  refine List.Nodup.map_on ?_ List.nodup_range
  intro i hi j hj hplace
  have hstart : (hash key).toNat % tableSize < tableSize :=
    Nat.mod_lt _ (Nat.lt_of_lt_of_le (by decide) hsize)
  rw [List.mem_range] at hi hj
  have hsame : i % tableSize = j % tableSize := Nat.ModEq.add_left_cancel' _ hplace
  rwa [Nat.mod_eq_of_lt (Nat.lt_of_lt_of_le hi hsize),
    Nat.mod_eq_of_lt (Nat.lt_of_lt_of_le hj hsize)] at hsame

namespace HashmapMap

/-- The table has as many places as are counted, and each of its entries is counted once. -/
structure WellFormed (hash : κ → UInt64) (m : HashmapMap κ α) : Prop where
  length : m.data.length = m.tableSize
  initial_le : initialSize ≤ m.tableSize
  size : m.size = (entries m.data).length
  placed : Placed (chain hash m.tableSize) m.data

def Absent (m : HashmapMap κ α) (key : κ) : Prop := ∀ entry ∈ entries m.data, entry.1 ≠ key

variable {hash : κ → UInt64} {m : HashmapMap κ α}

theorem WellFormed.empty (hash : κ → UInt64) {tableSize : Nat} (hinitial : initialSize ≤ tableSize) :
    (⟨tableSize, 0, List.replicate tableSize none⟩ : HashmapMap κ α).WellFormed hash :=
  ⟨List.length_replicate, hinitial, by rw [ProbeTable.entries_replicate]; rfl,
    ProbeTable.placed_replicate _ _⟩

theorem WellFormed.chain_lt (hwf : m.WellFormed hash) {key : κ} {i : Nat}
    (hmem : i ∈ chain hash m.tableSize key) : i < m.data.length := by
  rw [hwf.length]
  exact lt_of_mem_chain (Nat.lt_of_lt_of_le (by decide) hwf.initial_le) hmem

theorem Absent.of_perm {key : κ} {m' : HashmapMap κ α} {added : List (κ × α)}
    (hperm : (entries m'.data).Perm (added ++ entries m.data))
    (hadded : ∀ entry ∈ added, entry.1 ≠ key) (habsent : m.Absent key) : m'.Absent key := by
  intro entry hentry
  obtain hentry | hentry := List.mem_append.mp (hperm.mem_iff.mp hentry)
  · exact hadded entry hentry
  · exact habsent entry hentry

variable [DecidableEq κ]

theorem WellFormed.get_eq_some_iff (hwf : m.WellFormed hash) {key : κ} {value : α} :
    m.get hash key = some value ↔ (key, value) ∈ entries m.data := by
  rw [get, Option.bind_eq_some_iff, ProbeTable.mem_entries_iff]
  constructor
  · rintro ⟨i, hfound, hvalue⟩
    obtain ⟨other, hholds⟩ := hwf.placed.search_eq_some_iff.mp hfound
    have hat : m.data.getD i none = some (key, other) := by
      rw [List.getD_eq_getElem?_getD, hholds]
      rfl
    rw [hat] at hvalue
    cases hvalue
    exact ⟨i, hholds⟩
  · rintro ⟨i, hholds⟩
    refine ⟨i, hwf.placed.search_eq_some_iff.mpr ⟨value, hholds⟩, ?_⟩
    rw [List.getD_eq_getElem?_getD, hholds]
    rfl

theorem WellFormed.store (hwf : m.WellFormed hash) {key : κ} {i : Nat}
    (hplace : m.hashmapHash hash key = some i) (habsent : m.Absent key) (value : α) :
    (m.store i key value).WellFormed hash ∧
      (entries (m.store i key value).data).Perm ((key, value) :: entries m.data) := by
  rw [hashmapHash] at hplace
  split at hplace
  · cases hplace
  · have hchain : i ∈ chain hash m.tableSize key := List.mem_of_find?_eq_some hplace
    obtain ⟨-, hfree⟩ := ProbeTable.fit_free hplace (hwf.chain_lt hchain) habsent
    have hperm : (entries (m.store i key value).data).Perm ((key, value) :: entries m.data) :=
      ProbeTable.entries_store hfree (key, value)
    refine ⟨⟨?_, hwf.initial_le, ?_, ?_⟩, hperm⟩
    · exact List.length_set.trans hwf.length
    · rw [hperm.length_eq, List.length_cons, ← hwf.size]
      rfl
    · refine hwf.placed.store hchain ?_
      intro j other hholds
      exact habsent other (ProbeTable.mem_entries_iff.mpr ⟨j, hholds⟩)

theorem WellFormed.remove (hwf : m.WellFormed hash) (key : κ) :
    (m.remove hash key).WellFormed hash ∧
      ∀ entry, entry ∈ entries (m.remove hash key).data ↔
        entry ∈ entries m.data ∧ entry.1 ≠ key := by
  cases hsearch : search m.data (chain hash m.tableSize key) key with
  | none =>
      have hsame : m.remove hash key = m := by rw [HashmapMap.remove, hsearch]
      have habsent := hwf.placed.search_eq_none_iff.mp hsearch
      rw [hsame]
      exact ⟨hwf, fun entry => (and_iff_left_of_imp fun hentry => habsent entry hentry).symm⟩
  | some i =>
      obtain ⟨value, hholds⟩ := ProbeTable.search_some_holds hsearch
      have hperm := ProbeTable.entries_clear hholds
      have hremove : m.remove hash key =
          { m with data := m.data.set i none, size := m.size - 1 } := by
        rw [HashmapMap.remove, hsearch]
      rw [hremove]
      refine ⟨⟨List.length_set.trans hwf.length, hwf.initial_le, ?_, hwf.placed.clear i⟩, ?_⟩
      · dsimp only
        rw [hwf.size, hperm.length_eq, List.length_cons, Nat.add_sub_cancel]
      · intro entry
        rw [ProbeTable.mem_entries_iff, ProbeTable.mem_entries_iff]
        dsimp only
        constructor
        · rintro ⟨j, hj⟩
          obtain ⟨-, -, hfree⟩ | ⟨hne, hj⟩ := ProbeTable.holds_set_iff.mp hj
          · cases hfree
          · exact ⟨⟨j, hj⟩, fun hkey => hne (hwf.placed.unique i j _ _ hholds hj hkey.symm)⟩
        · rintro ⟨⟨j, hj⟩, hkey⟩
          refine ⟨j, ProbeTable.holds_set_iff.mpr (Or.inr ⟨?_, hj⟩)⟩
          rintro rfl
          rw [Holds, hholds] at hj
          cases hj
          exact hkey rfl

/-! ### Putting -/

/-- The keys fill no more than half of the places, and no chain meets as many others as it has places. -/
structure Sparse (hash : κ → UInt64) (tableSize : Nat) (keys : Finset κ) : Prop where
  half : 2 * keys.card ≤ tableSize
  chains : ∀ key ∈ keys,
    (ProbeTable.neighbours (chain hash tableSize) keys key).card < maxChainLength

instance (tableSize : Nat) (keys : Finset κ) : Decidable (Sparse hash tableSize keys) :=
  decidable_of_iff (2 * keys.card ≤ tableSize ∧ ∀ key ∈ keys,
      (ProbeTable.neighbours (chain hash tableSize) keys key).card < maxChainLength)
    ⟨fun h => ⟨h.1, h.2⟩, fun h => ⟨h.half, h.chains⟩⟩

theorem WellFormed.size_eq_card (hwf : m.WellFormed hash) :
    m.size = ((entries m.data).map Prod.fst).toFinset.card := by
  rw [List.toFinset_card_of_nodup hwf.placed.nodup_keys, List.length_map, hwf.size]

/-- Where the keys are sparse, one of them that is absent finds a place. -/
theorem WellFormed.exists_hashmapHash (hwf : m.WellFormed hash) {keys : Finset κ}
    (hsparse : Sparse hash m.tableSize keys) (hkeys : ∀ entry ∈ entries m.data, entry.1 ∈ keys)
    {key : κ} (hkey : key ∈ keys) (habsent : m.Absent key) :
    ∃ i, m.hashmapHash hash key = some i := by
  have hcard : m.size < keys.card := by
    have hsub : ((entries m.data).map Prod.fst).toFinset ⊆ keys.erase key := by
      intro other hother
      obtain ⟨entry, hentry, rfl⟩ := List.mem_map.mp (List.mem_toFinset.mp hother)
      exact Finset.mem_erase.mpr ⟨habsent entry hentry, hkeys entry hentry⟩
    rw [hwf.size_eq_card]
    exact Nat.lt_of_le_of_lt (Finset.card_le_card hsub) (Finset.card_erase_lt_of_mem hkey)
  have hhalf := hsparse.half
  have hplaces : maxChainLength ≤ m.tableSize := Nat.le_trans (by decide) hwf.initial_le
  rw [hashmapHash, if_neg (by omega)]
  refine hwf.placed.exists_fit hkeys (nodup_chain hash hplaces key) (fun i => hwf.chain_lt) habsent ?_
  rw [length_chain]
  exact hsparse.chains key hkey

/-- The table can still be doubled this often before it has the size at which the keys are sparse. -/
structure Grows (hash : κ → UInt64) (target : Nat) (keys : Finset κ) (left : Nat)
    (m : HashmapMap κ α) : Prop where
  wellFormed : m.WellFormed hash
  target : m.tableSize * 2 ^ left = target
  keys : ∀ entry ∈ entries m.data, entry.1 ∈ keys

/-- The put succeeds, adds its entry to those that are there, and the table stays below its target. -/
def Adds (hash : κ → UInt64) (target : Nat) (keys : Finset κ) (left : Nat) (m : HashmapMap κ α)
    (added : List (κ × α)) (result : HashmapMap κ α × PutStatus) : Prop :=
  result.2 = .ok ∧ (∃ left', left' ≤ left ∧ Grows hash target keys left' result.1) ∧
    (entries result.1.data).Perm (added ++ entries m.data)

/-- What `Grows` says of a put that is tried in the tables from here on. -/
def PutAdds (hash : κ → UInt64) (target : Nat) (keys : Finset κ) (left : Nat)
    (put : HashmapMap κ α → κ → α → HashmapMap κ α × PutStatus) : Prop :=
  ∀ left' ≤ left, ∀ m, Grows hash target keys left' m → ∀ key ∈ keys, m.Absent key →
    ∀ value, Adds hash target keys left' m [(key, value)] (put m key value)

section

variable {target : Nat} {keys : Finset κ} {left : Nat}

omit [DecidableEq κ] in
/-- One put after the other adds all the entries. -/
theorem Grows.reput {put : HashmapMap κ α → κ → α → HashmapMap κ α × PutStatus}
    (hput : PutAdds hash target keys left put) {rest : List (κ × α)}
    (hnodup : (rest.map Prod.fst).Nodup) (hrest : ∀ entry ∈ rest, entry.1 ∈ keys)
    (hgrows : Grows hash target keys left m) (habsent : ∀ entry ∈ rest, m.Absent entry.1) :
    Adds hash target keys left m rest (HashmapMap.reput put m rest) := by
  induction rest generalizing left m with
  | nil => exact ⟨rfl, ⟨left, Nat.le_refl left, hgrows⟩, List.Perm.refl _⟩
  | cons entry rest ih =>
      obtain ⟨key, value⟩ := entry
      rw [List.map_cons, List.nodup_cons] at hnodup
      obtain ⟨hkey, hrest⟩ := List.forall_mem_cons.mp hrest
      obtain ⟨hfree, habsent⟩ := List.forall_mem_cons.mp habsent
      obtain ⟨hok, ⟨left', hle, hgrows'⟩, hperm⟩ :=
        hput left (Nat.le_refl left) m hgrows key hkey hfree value
      generalize hresult : put m key value = result at hok hgrows' hperm
      obtain ⟨m', status⟩ := result
      obtain rfl : status = .ok := hok
      have habsent' : ∀ entry ∈ rest, m'.Absent entry.1 := by
        intro entry hentry
        refine Absent.of_perm hperm ?_ (habsent entry hentry)
        rintro other hother hsame
        rw [List.mem_singleton.mp hother] at hsame
        exact hnodup.1 (hsame ▸ List.mem_map_of_mem hentry)
      obtain ⟨hok', ⟨left'', hle', hgrows''⟩, hperm'⟩ :=
        ih (fun left'' hle'' => hput left'' (Nat.le_trans hle'' hle)) hnodup.2 hrest hgrows' habsent'
      rw [HashmapMap.reput, hresult]
      refine ⟨hok', ⟨left'', Nat.le_trans hle' hle, hgrows''⟩, hperm'.trans ?_⟩
      exact (hperm.append_left rest).trans List.perm_middle

theorem Grows.store (hgrows : Grows hash target keys left m) {key : κ} (hkey : key ∈ keys)
    (habsent : m.Absent key) {i : Nat} (hplace : m.hashmapHash hash key = some i) (value : α) :
    Adds hash target keys left m [(key, value)] (m.store i key value, .ok) := by
  obtain ⟨hwf, hperm⟩ := hgrows.wellFormed.store hplace habsent value
  refine ⟨rfl, ⟨left, Nat.le_refl left, hwf, hgrows.target, fun entry hentry => ?_⟩, hperm⟩
  obtain rfl | hentry := List.mem_cons.mp (hperm.mem_iff.mp hentry)
  · exact hkey
  · exact hgrows.keys entry hentry

omit [DecidableEq κ] in
/-- A rehash keeps every entry. -/
theorem Grows.rehash {put : HashmapMap κ α → κ → α → HashmapMap κ α × PutStatus}
    (hput : PutAdds hash target keys left put) {granted : Nat → Bool} (hbound : target < intBound)
    (hgranted : ∀ n ≤ target, granted n = true) (hgrows : Grows hash target keys (left + 1) m) :
    ∃ m' left', m.hashmapRehash put granted = (m', .ok) ∧ left' ≤ left ∧
      Grows hash target keys left' m' ∧ (entries m'.data).Perm (entries m.data) := by
  have hdouble : 2 * m.tableSize * 2 ^ left = target := by
    rw [← hgrows.target]
    ring
  have hle : 2 * m.tableSize ≤ target := by
    rw [← hdouble]
    exact Nat.le_mul_of_pos_right _ (Nat.two_pow_pos left)
  have hinitial := hgrows.wellFormed.initial_le
  have hnone : entries (List.replicate (2 * m.tableSize) none : ProbeTable.Table κ α) = [] :=
    ProbeTable.entries_replicate _
  have hempty : Grows hash target keys left
      (⟨2 * m.tableSize, 0, List.replicate (2 * m.tableSize) none⟩ : HashmapMap κ α) := by
    refine ⟨WellFormed.empty hash (by omega), hdouble, fun entry hentry => ?_⟩
    rw [hnone] at hentry
    cases hentry
  have hfree : ∀ entry ∈ entries m.data, Absent
      (⟨2 * m.tableSize, 0, List.replicate (2 * m.tableSize) none⟩ : HashmapMap κ α) entry.1 := by
    intro entry _ other hother
    rw [hnone] at hother
    cases hother
  obtain ⟨hok, ⟨left', hleft', hgrows'⟩, hperm⟩ :=
    Grows.reput hput hgrows.wellFormed.placed.nodup_keys hgrows.keys hempty hfree
  rw [hnone, List.append_nil] at hperm
  rw [hashmapRehash, hgranted _ hle, Bool.true_and, if_pos (decide_eq_true (by omega))]
  exact ⟨_, left', Prod.ext rfl hok, hleft', hgrows', hperm⟩

/-- By induction on the doublings. At the target every key finds a place; before it, a key that finds
none has the table doubled, and all entries are put again. -/
theorem putAdds_putWith (hsparse : Sparse hash target keys) {granted : Nat → Bool}
    (hbound : target < intBound) (hgranted : ∀ n ≤ target, granted n = true) (doublings : Nat) :
    PutAdds hash target keys doublings (putWith hash granted doublings :
      HashmapMap κ α → κ → α → HashmapMap κ α × PutStatus) := by
  have htarget : ∀ m : HashmapMap κ α, Grows hash target keys 0 m → ∀ key ∈ keys, m.Absent key →
      ∃ i, m.hashmapHash hash key = some i := by
    intro m hgrows key hkey habsent
    have hsize : m.tableSize = target := by simpa using hgrows.target
    exact hgrows.wellFormed.exists_hashmapHash (hsize ▸ hsparse) hgrows.keys hkey habsent
  induction doublings with
  | zero =>
      intro left hleft m hgrows key hkey habsent value
      obtain rfl : left = 0 := Nat.le_zero.mp hleft
      obtain ⟨i, hplace⟩ := htarget m hgrows key hkey habsent
      rw [HashmapMap.putWith, hplace]
      exact hgrows.store hkey habsent hplace value
  | succ doublings ih =>
      intro left hleft m hgrows key hkey habsent value
      rw [HashmapMap.putWith]
      cases hplace : m.hashmapHash hash key with
      | some i => exact hgrows.store hkey habsent hplace value
      | none =>
          obtain _ | left := left
          · obtain ⟨i, hfound⟩ := htarget m hgrows key hkey habsent
            rw [hplace] at hfound
            cases hfound
          · have hput : PutAdds hash target keys left (HashmapMap.putWith hash granted doublings) :=
              fun left' hle => ih left' (Nat.le_trans hle (Nat.le_of_succ_le_succ hleft))
            obtain ⟨m', left', hrehash, hleft', hgrows', hperm⟩ := hgrows.rehash hput hbound hgranted
            rw [hrehash]
            have habsent' : m'.Absent key :=
              fun entry hentry => habsent entry (hperm.mem_iff.mp hentry)
            obtain ⟨hok, ⟨left'', hleft'', hgrows''⟩, hperm'⟩ :=
              hput left' hleft' m' hgrows' key hkey habsent' value
            exact ⟨hok, ⟨left'', by omega, hgrows''⟩, hperm'.trans (hperm.append_left _)⟩

end

/-! ### The doublings are enough -/

omit [DecidableEq κ] in
theorem le_tableSize_reput {put : HashmapMap κ α → κ → α → HashmapMap κ α × PutStatus}
    (hput : ∀ m key value, m.tableSize ≤ (put m key value).1.tableSize) (m : HashmapMap κ α)
    (rest : List (κ × α)) : m.tableSize ≤ (HashmapMap.reput put m rest).1.tableSize := by
  induction rest generalizing m with
  | nil => exact Nat.le_refl _
  | cons entry rest ih =>
      have hfirst := hput m entry.1 entry.2
      rw [HashmapMap.reput]
      generalize put m entry.1 entry.2 = result at hfirst
      obtain ⟨m', _ | _⟩ := result
      · exact Nat.le_trans hfirst (ih m')
      · exact hfirst

omit [DecidableEq κ] in
theorem hashmapRehash_grows {put : HashmapMap κ α → κ → α → HashmapMap κ α × PutStatus}
    (hput : ∀ m key value, m.tableSize ≤ (put m key value).1.tableSize) (granted : Nat → Bool)
    (m : HashmapMap κ α) :
    m.hashmapRehash put granted = (m, .outOfMemory) ∨
      2 * m.tableSize ≤ (m.hashmapRehash put granted).1.tableSize := by
  rw [hashmapRehash]
  split
  · have hafter := le_tableSize_reput hput
      ⟨2 * m.tableSize, 0, List.replicate (2 * m.tableSize) none⟩ (entries m.data)
    exact Or.inr hafter
  · exact Or.inl rfl

theorem le_tableSize_putWith (hash : κ → UInt64) (granted : Nat → Bool) (doublings : Nat)
    (m : HashmapMap κ α) (key : κ) (value : α) :
    m.tableSize ≤ (putWith hash granted doublings m key value).1.tableSize := by
  induction doublings generalizing m key value with
  | zero =>
      rw [putWith]
      split <;> exact Nat.le_refl _
  | succ doublings ih =>
      rw [putWith]
      split
      · exact Nat.le_refl _
      · obtain hrefused | hgrown := hashmapRehash_grows ih granted m
        · rw [hrefused]
        · generalize m.hashmapRehash (putWith hash granted doublings) granted = result at hgrown
          obtain ⟨m', _ | _⟩ := result
          · dsimp only at hgrown ⊢
            exact Nat.le_trans (by omega) (ih m' key value)
          · dsimp only at hgrown ⊢
            omega

omit [DecidableEq κ] in
theorem reput_congr {put put' : HashmapMap κ α → κ → α → HashmapMap κ α × PutStatus} {bound : Nat}
    (hput : ∀ m key value, m.tableSize ≤ (put m key value).1.tableSize)
    (hsame : ∀ m, bound ≤ m.tableSize → ∀ key value, put m key value = put' m key value)
    (hbound : bound ≤ m.tableSize) (rest : List (κ × α)) :
    HashmapMap.reput put m rest = HashmapMap.reput put' m rest := by
  induction rest generalizing m with
  | nil => rfl
  | cons entry rest ih =>
      have hfirst := hput m entry.1 entry.2
      rw [HashmapMap.reput, HashmapMap.reput, ← hsame m hbound]
      generalize put m entry.1 entry.2 = result at hfirst
      obtain ⟨m', _ | _⟩ := result
      · exact ih (Nat.le_trans hbound hfirst)
      · rfl

/-- A table that is too large to be doubled that often has no use for one more doubling. -/
theorem putWith_succ {granted : Nat → Bool} {doublings : Nat}
    (hlarge : intBound ≤ m.tableSize * 2 ^ (doublings + 1)) (key : κ) (value : α) :
    putWith hash granted (doublings + 1) m key value = putWith hash granted doublings m key value := by
  induction doublings generalizing m key value with
  | zero =>
      rw [putWith, putWith]
      cases m.hashmapHash hash key with
      | some i => rfl
      | none =>
          rw [hashmapRehash, if_neg (by simp; omega)]
  | succ doublings ih =>
      have hnext : ∀ m' : HashmapMap κ α, 2 * m.tableSize ≤ m'.tableSize → ∀ key value,
          putWith hash granted (doublings + 1) m' key value =
            putWith hash granted doublings m' key value := by
        intro m' hle key value
        refine ih (Nat.le_trans hlarge ?_) key value
        calc m.tableSize * 2 ^ (doublings + 1 + 1)
            = 2 * m.tableSize * 2 ^ (doublings + 1) := by ring
          _ ≤ m'.tableSize * 2 ^ (doublings + 1) := Nat.mul_le_mul_right _ hle
      have hrehash : m.hashmapRehash (putWith hash granted (doublings + 1)) granted =
          m.hashmapRehash (putWith hash granted doublings) granted := by
        rw [hashmapRehash, hashmapRehash,
          reput_congr (le_tableSize_putWith hash granted (doublings + 1)) hnext (Nat.le_refl _)]
      rw [putWith, hrehash]
      conv_rhs => rw [putWith]
      cases m.hashmapHash hash key with
      | some i => rfl
      | none =>
          obtain hrefused | hgrown :=
            hashmapRehash_grows (le_tableSize_putWith hash granted doublings) granted m
          · rw [hrefused]
          · generalize m.hashmapRehash (putWith hash granted doublings) granted = result at hgrown
            obtain ⟨m', _ | _⟩ := result
            · exact hnext m' hgrown key value
            · rfl

/-- `libp2p_hashmap_put` and `hashmap_rehash` call each other without a bound. A put that could double
the table more often would do the same. -/
def DoublesFreely (hash : κ → UInt64) (m : HashmapMap κ α) : Prop :=
  ∀ (granted : Nat → Bool) (more : Nat) (key : κ) (value : α),
    putWith hash granted (maxDoublings + more) m key value = m.put hash granted key value

/-- No table is doubled more than 22 times. -/
theorem WellFormed.doublesFreely (hwf : m.WellFormed hash) : m.DoublesFreely hash := by
  intro granted more key value
  induction more with
  | zero => rfl
  | succ more ih =>
      have hlarge : intBound ≤ m.tableSize * 2 ^ (maxDoublings + more + 1) := by
        calc intBound = initialSize * 2 ^ (maxDoublings + 1) := by decide
          _ ≤ m.tableSize * 2 ^ (maxDoublings + more + 1) :=
            Nat.mul_le_mul hwf.initial_le (Nat.pow_le_pow_right Nat.two_pos (by omega))
      rw [← Nat.add_assoc, putWith_succ hlarge, ih]

end HashmapMap

/-! ### Runs -/

variable [DecidableEq κ] {hash : κ → UInt64}

/-- What a call needs. A key that is put is absent, and it finds a place: right away, or because the keys
are sparse in the table after some doublings, for which there is the memory. -/
def HashmapRun.Fits (hash : κ → UInt64) (run : HashmapRun κ α) : HashmapCall κ α → Prop
  | .put key _ granted =>
      key ∉ run.2 ∧
        ((run.1.hashmapHash hash key).isSome ∨
          ∃ doublings, run.1.tableSize * 2 ^ doublings < intBound ∧
            (∀ n ≤ run.1.tableSize * 2 ^ doublings, granted n = true) ∧
            HashmapMap.Sparse hash (run.1.tableSize * 2 ^ doublings) (insert key run.2.keys))
  | _ => True

structure HashmapRun.Agrees (hash : κ → UInt64) (run : HashmapRun κ α) : Prop where
  wellFormed : run.1.WellFormed hash
  entries : ∀ key value, (key, value) ∈ ProbeTable.entries run.1.data ↔ run.2.lookup key = some value

theorem HashmapRun.Agrees.new (hash : κ → UInt64) :
    HashmapRun.Agrees hash (HashmapMap.new κ α, ∅) := by
  refine ⟨HashmapMap.WellFormed.empty hash (Nat.le_refl _), fun key value => ?_⟩
  rw [Finmap.lookup_empty]
  simp [HashmapMap.new, ProbeTable.entries_replicate]

theorem HashmapRun.Agrees.isMap {run : HashmapRun κ α} (hagrees : run.Agrees hash) :
    run.IsMap hash := by
  constructor
  · intro key
    ext value
    rw [hagrees.wellFormed.get_eq_some_iff, hagrees.entries]
  · have hkeys : ((ProbeTable.entries run.1.data).map Prod.fst).toFinset = run.2.keys := by
      ext key
      rw [List.mem_toFinset, List.mem_map, Finmap.mem_keys, Finmap.mem_iff]
      constructor
      · rintro ⟨entry, hentry, rfl⟩
        exact ⟨entry.2, (hagrees.entries _ _).mp hentry⟩
      · rintro ⟨value, hlookup⟩
        exact ⟨(key, value), (hagrees.entries _ _).mpr hlookup, rfl⟩
    rw [HashmapMap.length, hagrees.wellFormed.size_eq_card, hkeys]

theorem HashmapRun.Agrees.absent {run : HashmapRun κ α} (hagrees : run.Agrees hash) {key : κ}
    (habsent : key ∉ run.2) : run.1.Absent key := by
  rintro ⟨other, value⟩ hentry rfl
  exact habsent (Finmap.mem_of_lookup_eq_some ((hagrees.entries _ _).mp hentry))

/-- A put that fits returns `MAP_OK`, and its entry is the only one that is new. -/
theorem HashmapRun.Agrees.put {run : HashmapRun κ α} (hagrees : run.Agrees hash) {key : κ} {value : α}
    {granted : Nat → Bool} (hfits : run.Fits hash (.put key value granted)) :
    (run.1.put hash granted key value).2 = .ok ∧
      (run.1.put hash granted key value).1.WellFormed hash ∧
      (ProbeTable.entries (run.1.put hash granted key value).1.data).Perm
        ((key, value) :: ProbeTable.entries run.1.data) := by
  obtain ⟨hfree, hplace | ⟨doublings, hbound, hgranted, hsparse⟩⟩ := hfits
  · obtain ⟨i, hi⟩ := Option.isSome_iff_exists.mp hplace
    have hput : run.1.put hash granted key value = (run.1.store i key value, .ok) := by
      rw [HashmapMap.put, HashmapMap.maxDoublings, HashmapMap.putWith, hi]
    rw [hput]
    exact ⟨rfl, hagrees.wellFormed.store hi (hagrees.absent hfree) value⟩
  · have hinitial := hagrees.wellFormed.initial_le
    have hdoublings : doublings ≤ HashmapMap.maxDoublings := by
      have hpow : 2 ^ doublings < 2 ^ 23 := by
        have hmul := Nat.mul_le_mul_right (2 ^ doublings) hinitial
        rw [intBound] at hbound
        rw [initialSize] at hmul
        omega
      exact Nat.le_of_lt_succ ((Nat.pow_lt_pow_iff_right (by decide)).mp hpow)
    have hgrows : HashmapMap.Grows hash (run.1.tableSize * 2 ^ doublings) (insert key run.2.keys)
        doublings run.1 := by
      refine ⟨hagrees.wellFormed, rfl, fun entry hentry => Finset.mem_insert_of_mem ?_⟩
      exact Finmap.mem_keys.mpr
        (Finmap.mem_of_lookup_eq_some ((hagrees.entries entry.1 entry.2).mp hentry))
    obtain ⟨hok, ⟨left, -, hgrown⟩, hperm⟩ :=
      HashmapMap.putAdds_putWith hsparse hbound hgranted HashmapMap.maxDoublings doublings hdoublings
        run.1 hgrows key (Finset.mem_insert_self _ _) (hagrees.absent hfree) value
    exact ⟨hok, hgrown.wellFormed, hperm⟩

theorem HashmapRun.Agrees.call {run : HashmapRun κ α} (hagrees : run.Agrees hash)
    {call : HashmapCall κ α} (hfits : run.Fits hash call) : (run.call hash call).Agrees hash := by
  cases call with
  | put key value granted =>
      obtain ⟨-, hwf, hperm⟩ := hagrees.put hfits
      refine ⟨hwf, fun other value' => ?_⟩
      have hnew : (other, value') ∈ ProbeTable.entries (run.1.put hash granted key value).1.data ↔
          (other, value') = (key, value) ∨ run.2.lookup other = some value' := by
        rw [hperm.mem_iff, List.mem_cons, hagrees.entries]
      refine hnew.trans ?_
      change _ ↔ (run.2.insert key value).lookup other = some value'
      by_cases hkey : other = key
      · subst hkey
        rw [Finmap.lookup_insert, Finmap.lookup_eq_none.mpr hfits.1]
        simp [eq_comm]
      · rw [Finmap.lookup_insert_of_ne _ hkey]
        simp [hkey]
  | get key => exact hagrees
  | remove key =>
      obtain ⟨hwf, hentries⟩ := hagrees.wellFormed.remove key
      refine ⟨hwf, fun other value => (hentries (other, value)).trans ?_⟩
      change _ ↔ (run.2.erase key).lookup other = some value
      rw [hagrees.entries]
      by_cases hkey : other = key
      · subst hkey
        rw [Finmap.lookup_erase]
        simp
      · rw [Finmap.lookup_erase_ne hkey]
        exact and_iff_left hkey

/-- **The hashmap.** On a run in which only absent keys are put, and each finds a place, the hashmap is
at every moment the finite map that the same calls make. The map keeps pointers to its keys; a key is a value
here, so the caller leaves its string as it is while it is in the map. -/
theorem hashmap_isMap (hash : κ → UInt64) {calls : List (HashmapCall κ α)}
    (hfits : Machine.Along (HashmapRun.call hash) (HashmapRun.Fits hash) (HashmapMap.new κ α, ∅) calls)
    {reached : List (HashmapCall κ α)} (hreached : reached <+: calls) :
    (Machine.run (HashmapRun.call hash) (HashmapMap.new κ α, ∅) reached).IsMap hash ∧
      (Machine.run (HashmapRun.call hash) (HashmapMap.new κ α, ∅) reached).1.DoublesFreely hash := by
  obtain ⟨rest, rfl⟩ := hreached
  have hstep : ∀ (run : HashmapRun κ α) (call : HashmapCall κ α),
      run.Agrees hash → run.Fits hash call → (run.call hash call).Agrees hash :=
    fun run call hagrees hfits => hagrees.call hfits
  have hagrees := (Machine.along_append.mp hfits).1.invariant hstep (HashmapRun.Agrees.new hash)
  exact ⟨hagrees.isMap, hagrees.wellFormed.doublesFreely⟩

/-- Every key starts its chain at the first place, until the table has 512 places. -/
def crowdedHash (key : Nat) : UInt64 := UInt64.ofNat (256 * key)

/-- The ninth key finds no place, and the table is doubled. -/
theorem hashmap_isMap_grown :
    (Machine.run (HashmapRun.call crowdedHash) (HashmapMap.new Nat Nat, ∅)
      (((List.range 9).map fun key => .put key (10 * key) fun _ => true) ++
        [.remove 3, .put 3 33 fun _ => true])).IsMap crowdedHash := by
  have hfits : Machine.Along (HashmapRun.call crowdedHash) (HashmapRun.Fits crowdedHash)
      (HashmapMap.new Nat Nat, ∅)
      (((List.range 9).map fun key => .put key (10 * key) fun _ => true) ++
        [.remove 3, .put 3 33 fun _ => true]) := by
    refine ⟨⟨?_, Or.inl ?_⟩, ⟨?_, Or.inl ?_⟩, ⟨?_, Or.inl ?_⟩, ⟨?_, Or.inl ?_⟩, ⟨?_, Or.inl ?_⟩,
      ⟨?_, Or.inl ?_⟩, ⟨?_, Or.inl ?_⟩, ⟨?_, Or.inl ?_⟩,
      ⟨?_, Or.inr ⟨1, by decide +kernel, fun _ _ => rfl, ?_⟩⟩, trivial, ⟨?_, Or.inl ?_⟩, trivial⟩
    all_goals decide +kernel
  exact (hashmap_isMap crowdedHash hfits (List.prefix_refl _)).1

/-- A key that is put twice counts twice. -/
theorem hashmap_isMap_fails :
    ¬ (Machine.run (HashmapRun.call stringHash) (HashmapMap.new Bytes Nat, ∅)
      [.put [97] 1 fun _ => true, .put [97] 2 fun _ => true]).IsMap stringHash := by
  intro hmap
  exact absurd hmap.2 (by decide)

end CLibp2p.Hashmap
