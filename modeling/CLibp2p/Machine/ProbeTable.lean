import Mathlib.Data.Finset.Card
import Mathlib.Data.List.Basic
import Mathlib.Data.List.Perm.Basic
import Mathlib.Tactic.Common

/-!
# Tables with open addressing

A table is a list of places, each free or with an entry. Every key has a chain, the places it may lie
in, and a key is looked for along its whole chain, so free places in it do no harm. The entries are
taken as a list up to order: storing adds one, clearing takes one away.
-/

namespace ProbeTable

variable {κ α : Type}

abbrev Table (κ α : Type) := List (Option (κ × α))

def entries (table : Table κ α) : List (κ × α) := table.filterMap id

def Holds (table : Table κ α) (i : Nat) (entry : κ × α) : Prop := table[i]? = some (some entry)

theorem mem_entries_iff {table : Table κ α} {entry : κ × α} :
    entry ∈ entries table ↔ ∃ i, Holds table i entry := by
  simp [entries, Holds, ← List.mem_iff_getElem?]

/-- Every entry lies in the chain of its key, and no key lies in two places. -/
structure Placed (chain : κ → List Nat) (table : Table κ α) : Prop where
  inChain : ∀ i entry, Holds table i entry → i ∈ chain entry.1
  unique : ∀ i j entry other, Holds table i entry → Holds table j other → entry.1 = other.1 → i = j

theorem entries_replicate (n : Nat) : entries (List.replicate n none : Table κ α) = [] := by
  simp [entries]

theorem placed_replicate (chain : κ → List Nat) (n : Nat) :
    Placed chain (List.replicate n none : Table κ α) := by
  have hfree : ∀ i entry, ¬ Holds (List.replicate n none : Table κ α) i entry := by
    intro i entry hholds
    rw [Holds, List.getElem?_replicate] at hholds
    split at hholds <;> simp at hholds
  exact ⟨fun i entry hholds => absurd hholds (hfree i entry),
    fun i _ entry _ hholds => absurd hholds (hfree i entry)⟩

theorem Placed.nodup_keys {chain : κ → List Nat} {table : Table κ α} (hplaced : Placed chain table) :
    ((entries table).map Prod.fst).Nodup := by
  rw [List.Nodup, List.pairwise_map, entries, List.pairwise_filterMap, List.pairwise_iff_getElem]
  intro i j hi hj hlt entry hentry other hother hkey
  have hsame := hplaced.unique i j entry other (List.getElem?_eq_some_iff.mpr ⟨hi, hentry⟩)
    (List.getElem?_eq_some_iff.mpr ⟨hj, hother⟩) hkey
  exact absurd hsame (Nat.ne_of_lt hlt)

/-! ### Storing and clearing -/

theorem split_at {table : Table κ α} {i : Nat} {place : Option (κ × α)}
    (hplace : table[i]? = some place) (new : Option (κ × α)) :
    ∃ before after, table = before ++ place :: after ∧ table.set i new = before ++ new :: after := by
  obtain ⟨hlt, rfl⟩ := List.getElem?_eq_some_iff.mp hplace
  refine ⟨table.take i, table.drop (i + 1), ?_, ?_⟩
  · rw [List.getElem_cons_drop, List.take_append_drop]
  · rw [List.set_eq_take_append_cons_drop, if_pos hlt]

theorem entries_store {table : Table κ α} {i : Nat} (hfree : table[i]? = some none)
    (entry : κ × α) : (entries (table.set i (some entry))).Perm (entry :: entries table) := by
  obtain ⟨before, after, htable, hset⟩ := split_at hfree (some entry)
  rw [hset, htable, entries, entries, List.filterMap_append, List.filterMap_append]
  exact List.perm_middle

theorem entries_clear {table : Table κ α} {i : Nat} {entry : κ × α} (hholds : Holds table i entry) :
    (entries table).Perm (entry :: entries (table.set i none)) := by
  obtain ⟨before, after, htable, hset⟩ := split_at hholds none
  rw [hset]
  nth_rewrite 1 [htable]
  rw [entries, entries, List.filterMap_append, List.filterMap_append]
  exact List.perm_middle

theorem holds_set_iff {table : Table κ α} {i j : Nat} {place : Option (κ × α)} {entry : κ × α} :
    Holds (table.set i place) j entry ↔
      (i = j ∧ j < table.length ∧ place = some entry) ∨ (i ≠ j ∧ Holds table j entry) := by
  rw [Holds, Holds, List.getElem?_set]
  by_cases heq : i = j
  · subst heq
    by_cases hlt : i < table.length <;> simp [hlt]
  · simp [heq]

theorem Placed.store {chain : κ → List Nat} {table : Table κ α} (hplaced : Placed chain table)
    {i : Nat} {entry : κ × α} (hchain : i ∈ chain entry.1)
    (habsent : ∀ j other, Holds table j other → other.1 ≠ entry.1) :
    Placed chain (table.set i (some entry)) := by
  constructor
  · intro j other hholds
    obtain ⟨rfl, -, hentry⟩ | ⟨-, hholds⟩ := holds_set_iff.mp hholds
    · cases hentry
      exact hchain
    · exact hplaced.inChain j other hholds
  · intro j k first second hfirst hsecond hkeys
    obtain ⟨rfl, -, hentry⟩ | ⟨-, hfirst⟩ := holds_set_iff.mp hfirst <;>
      obtain ⟨rfl, -, hentry'⟩ | ⟨-, hsecond⟩ := holds_set_iff.mp hsecond
    · rfl
    · cases hentry
      exact absurd hkeys.symm (habsent k second hsecond)
    · cases hentry'
      exact absurd hkeys (habsent j first hfirst)
    · exact hplaced.unique j k first second hfirst hsecond hkeys

theorem Placed.clear {chain : κ → List Nat} {table : Table κ α} (hplaced : Placed chain table)
    (i : Nat) : Placed chain (table.set i none) := by
  have hbefore : ∀ j entry, Holds (table.set i none) j entry → Holds table j entry := by
    intro j entry hholds
    obtain ⟨-, -, hentry⟩ | ⟨-, hholds⟩ := holds_set_iff.mp hholds
    · cases hentry
    · exact hholds
  exact ⟨fun j entry hholds => hplaced.inChain j entry (hbefore j entry hholds),
    fun j k first second hfirst hsecond =>
      hplaced.unique j k first second (hbefore j first hfirst) (hbefore k second hsecond)⟩

/-! ### Looking along a chain -/

variable [DecidableEq κ]

/-- The first place of the chain that holds the key. -/
def search (table : Table κ α) (chain : List Nat) (key : κ) : Option Nat :=
  chain.find? fun i => ((table.getD i none).map Prod.fst) = some key

/-- The first place of the chain that is free or holds the key. -/
def fit (table : Table κ α) (chain : List Nat) (key : κ) : Option Nat :=
  chain.find? fun i => (table.getD i none).all fun entry => entry.1 = key

theorem search_some_holds {table : Table κ α} {chain : List Nat} {key : κ} {i : Nat}
    (hfound : search table chain key = some i) : ∃ value, Holds table i (key, value) := by
  have hkey : (table.getD i none).map Prod.fst = some key := by
    rw [search, List.find?_eq_some_iff_append] at hfound
    exact of_decide_eq_true hfound.1
  rw [List.getD_eq_getElem?_getD] at hkey
  cases hat : table[i]? with
  | none => simp [hat] at hkey
  | some place =>
      cases place with
      | none => simp [hat] at hkey
      | some entry =>
          obtain rfl : entry.1 = key := by simpa [hat] using hkey
          exact ⟨entry.2, hat⟩

/-- The whole chain is looked through, so a key that is there is found. -/
theorem Placed.search_eq_some_iff {chain : κ → List Nat} {table : Table κ α}
    (hplaced : Placed chain table) {key : κ} {i : Nat} :
    search table (chain key) key = some i ↔ ∃ value, Holds table i (key, value) := by
  constructor
  · exact search_some_holds
  · rintro ⟨value, hholds⟩
    cases hsearch : search table (chain key) key with
    | none =>
        have hmissed := List.find?_eq_none.mp hsearch i (hplaced.inChain i _ hholds)
        rw [Holds] at hholds
        simp [List.getD_eq_getElem?_getD, hholds] at hmissed
    | some j =>
        obtain ⟨other, hother⟩ := search_some_holds hsearch
        rw [hplaced.unique j i _ _ hother hholds rfl]

theorem Placed.search_eq_none_iff {chain : κ → List Nat} {table : Table κ α}
    (hplaced : Placed chain table) {key : κ} :
    search table (chain key) key = none ↔ ∀ entry ∈ entries table, entry.1 ≠ key := by
  constructor
  · rintro hnone ⟨key', value⟩ hentry rfl
    obtain ⟨i, hholds⟩ := mem_entries_iff.mp hentry
    rw [hplaced.search_eq_some_iff.mpr ⟨value, hholds⟩] at hnone
    cases hnone
  · intro habsent
    by_contra hsome
    obtain ⟨i, hfound⟩ := Option.ne_none_iff_exists'.mp hsome
    obtain ⟨value, hholds⟩ := search_some_holds hfound
    exact habsent _ (mem_entries_iff.mpr ⟨i, hholds⟩) rfl

/-- An absent key gets a free place of its chain. -/
theorem fit_free {table : Table κ α} {chain : List Nat} {key : κ} {i : Nat}
    (hfit : fit table chain key = some i) (hlt : i < table.length)
    (habsent : ∀ entry ∈ entries table, entry.1 ≠ key) : i ∈ chain ∧ table[i]? = some none := by
  refine ⟨List.mem_of_find?_eq_some hfit, ?_⟩
  have hall := List.find?_some hfit
  rw [List.getD_eq_getElem?_getD, List.getElem?_eq_getElem hlt, Option.getD_some] at hall
  rw [List.getElem?_eq_getElem hlt]
  cases hat : table[i] with
  | none => rfl
  | some entry =>
      rw [hat] at hall
      refine absurd (of_decide_eq_true hall) (habsent entry (mem_entries_iff.mpr ⟨i, ?_⟩))
      rw [Holds, List.getElem?_eq_getElem hlt, hat]

theorem fit_none_holds {table : Table κ α} {chain : List Nat} {key : κ}
    (hnone : fit table chain key = none) {i : Nat} (hmem : i ∈ chain) (hlt : i < table.length) :
    ∃ entry, Holds table i entry := by
  have hmissed := List.find?_eq_none.mp hnone i hmem
  rw [List.getD_eq_getElem?_getD, List.getElem?_eq_getElem hlt, Option.getD_some] at hmissed
  cases hat : table[i] with
  | none => simp [hat] at hmissed
  | some entry => exact ⟨entry, List.getElem?_eq_some_iff.mpr ⟨hlt, hat⟩⟩

/-! ### Crowded chains -/

/-- The other keys whose chains meet the one of this key. -/
def neighbours (chain : κ → List Nat) (keys : Finset κ) (key : κ) : Finset κ :=
  keys.filter fun other => other ≠ key ∧ ∃ i ∈ chain key, i ∈ chain other

/-- A chain with more places than neighbours has one for its key: each place that is taken is taken by
another neighbour. -/
theorem Placed.exists_fit {chain : κ → List Nat} {table : Table κ α} (hplaced : Placed chain table)
    {keys : Finset κ} (hkeys : ∀ entry ∈ entries table, entry.1 ∈ keys) {key : κ}
    (hnodup : (chain key).Nodup) (hlt : ∀ i ∈ chain key, i < table.length)
    (habsent : ∀ entry ∈ entries table, entry.1 ≠ key)
    (hfew : (neighbours chain keys key).card < (chain key).length) :
    ∃ i, fit table (chain key) key = some i := by
  apply Option.ne_none_iff_exists'.mp
  intro hnone
  have htaken : ∀ i, ∃ other, i ∈ chain key → ∃ value, Holds table i (other, value) := by
    intro i
    by_cases hmem : i ∈ chain key
    · obtain ⟨entry, hholds⟩ := fit_none_holds hnone hmem (hlt i hmem)
      exact ⟨entry.1, fun _ => ⟨entry.2, hholds⟩⟩
    · exact ⟨key, fun h => absurd h hmem⟩
  choose keyAt hkeyAt using htaken
  refine absurd hfew (Nat.not_lt.mpr ?_)
  rw [← List.toFinset_card_of_nodup hnodup]
  refine Finset.card_le_card_of_injOn keyAt ?_ ?_
  · intro i hi
    have hmem : i ∈ chain key := List.mem_toFinset.mp hi
    obtain ⟨value, hholds⟩ := hkeyAt i hmem
    have hentry : (keyAt i, value) ∈ entries table := mem_entries_iff.mpr ⟨i, hholds⟩
    exact Finset.mem_filter.mpr
      ⟨hkeys _ hentry, habsent _ hentry, i, hmem, hplaced.inChain i _ hholds⟩
  · intro i hi j hj hsame
    obtain ⟨value, hholds⟩ := hkeyAt i (List.mem_toFinset.mp hi)
    obtain ⟨value', hholds'⟩ := hkeyAt j (List.mem_toFinset.mp hj)
    exact hplaced.unique i j _ _ hholds hholds' hsame

end ProbeTable
