import Mathlib.Data.List.Basic
import Mathlib.Tactic.Common

/-!
# Tables of slots

A table holds a key in each slot and marks the slots in use. A new entry goes into the first slot that is
not in use or else into one more slot, and a slot is freed by taking its mark away. A lookup that ignores
the marks still finds the right slot as long as a key is placed only while no slot in use holds it.
-/

namespace Machine

variable {κ : Type}

structure Slot (κ : Type) where
  key : κ
  live : Bool
deriving Repr, DecidableEq

namespace SlotTable

def countLive (table : List (Slot κ)) : Nat := table.countP Slot.live

def firstDead (table : List (Slot κ)) : Option Nat := table.findIdx? fun slot => !slot.live

def place (table : List (Slot κ)) (key : κ) : List (Slot κ) :=
  match firstDead table with
  | some i => table.set i ⟨key, true⟩
  | none => table ++ [⟨key, true⟩]

/-- No slot in use holds the key. -/
def Fresh (table : List (Slot κ)) (key : κ) : Prop := ∀ slot ∈ table, slot.live → slot.key ≠ key

/-- The key of a slot in use is in no slot before it. -/
def Separated (table : List (Slot κ)) : Prop :=
  table.Pairwise fun before slot => slot.live → before.key ≠ slot.key

theorem firstDead_eq_none {table : List (Slot κ)} :
    firstDead table = none ↔ ∀ slot ∈ table, slot.live := by
  simp [firstDead, List.findIdx?_eq_none_iff]

theorem firstDead_eq_some {table : List (Slot κ)} {i : Nat} (hdead : firstDead table = some i) :
    ∃ hlt : i < table.length, table[i].live = false ∧
      ∀ j (_ : j < table.length), j < i → table[j].live := by
  obtain ⟨hlt, hat, hbefore⟩ := List.findIdx?_eq_some_iff_getElem.mp hdead
  refine ⟨hlt, by simpa using hat, fun j _ hj => ?_⟩
  simpa using hbefore j hj

theorem countLive_eq_length {table : List (Slot κ)} :
    countLive table = table.length ↔ ∀ slot ∈ table, slot.live := List.countP_eq_length

theorem countLive_place (table : List (Slot κ)) (key : κ) :
    countLive (place table key) = countLive table + 1 := by
  unfold place
  cases hdead : firstDead table with
  | none => simp [countLive, List.countP_append]
  | some i =>
      obtain ⟨hlt, hat, -⟩ := firstDead_eq_some hdead
      simp [countLive, List.countP_set hlt, hat]

theorem separated_append_singleton {table : List (Slot κ)} (hsep : Separated table) {slot : Slot κ}
    (hkey : ∀ other ∈ table, other.key ≠ slot.key) : Separated (table ++ [slot]) := by
  refine List.pairwise_append.mpr ⟨hsep, List.pairwise_singleton _ _, ?_⟩
  intro before hbefore other hother _
  obtain rfl := List.mem_singleton.mp hother
  exact hkey before hbefore

theorem separated_place {table : List (Slot κ)} (hsep : Separated table) {key : κ}
    (hfresh : Fresh table key) : Separated (place table key) := by
  unfold place
  cases hdead : firstDead table with
  | none =>
      have hlive := firstDead_eq_none.mp hdead
      exact separated_append_singleton hsep fun other hother => hfresh other hother (hlive other hother)
  | some i =>
      obtain ⟨hlt, -, hbefore⟩ := firstDead_eq_some hdead
      refine List.pairwise_iff_getElem.mpr fun j k hj hk hjk => ?_
      rw [List.length_set] at hj hk
      simp only [List.getElem_set]
      -- slots before `i` are in use, slots after it may be; the new key differs from both kinds
      by_cases hij : i = j
      · rw [if_pos hij, if_neg (by omega)]
        exact fun hlive heq => hfresh _ (List.getElem_mem hk) hlive heq.symm
      · rw [if_neg hij]
        by_cases hik : i = k
        · rw [if_pos hik]
          exact fun _ => hfresh _ (List.getElem_mem hj) (hbefore j hj (by omega))
        · rw [if_neg hik]
          exact List.pairwise_iff_getElem.mp hsep j k hj hk hjk

variable [DecidableEq κ]

def lookup (table : List (Slot κ)) (key : κ) : Option Nat := table.findIdx? fun slot => slot.key == key

def kill (table : List (Slot κ)) (i : Nat) : List (Slot κ) :=
  table.modify i fun slot => { slot with live := false }

omit [DecidableEq κ] in
theorem separated_kill {table : List (Slot κ)} (hsep : Separated table) (i : Nat) :
    Separated (kill table i) := by
  refine List.pairwise_iff_getElem.mpr fun j k hj hk hjk => ?_
  rw [kill, List.length_modify] at hj hk
  simp only [kill, List.getElem_modify]
  have hold := List.pairwise_iff_getElem.mp hsep j k hj hk hjk
  split <;> split <;> simp_all

omit [DecidableEq κ] in
theorem countLive_kill {table : List (Slot κ)} {i : Nat} (hlt : i < table.length)
    (hlive : table[i].live) : countLive (kill table i) + 1 = countLive table := by
  obtain ⟨before, slot, after, rfl, rfl, hkill⟩ := List.exists_of_modify
    (fun slot : Slot κ => { slot with live := false }) hlt
  have hslot : slot.live := by simpa using hlive
  rw [kill, hkill]
  simp only [countLive, List.countP_append, List.countP_cons, hslot, Bool.false_eq_true, if_false,
    if_true]
  omega

omit [DecidableEq κ] in
theorem countLive_dropLast_kill (table : List (Slot κ)) :
    countLive (kill table (table.length - 1)).dropLast = countLive (kill table (table.length - 1)) := by
  by_cases hempty : table = []
  · rw [hempty]
    rfl
  · have hpos : 0 < table.length := List.length_pos_iff.mpr hempty
    obtain ⟨before, slot, after, hsplit, hbefore, hkill⟩ := List.exists_of_modify
      (fun slot : Slot κ => { slot with live := false }) (Nat.sub_one_lt_of_lt hpos)
    have hafter : after = [] := by
      have hlength := congrArg List.length hsplit
      rw [List.length_append, List.length_cons] at hlength
      exact List.length_eq_zero_iff.mp (by omega)
    rw [kill, hkill, hafter, List.dropLast_concat]
    simp [countLive, List.countP_append]

/-- A lookup finds the slot in use that holds the key. -/
theorem Separated.lookup {table : List (Slot κ)} (hsep : Separated table) {i : Nat}
    (hlt : i < table.length) (hlive : table[i].live) : lookup table table[i].key = some i := by
  refine List.findIdx?_eq_some_iff_getElem.mpr ⟨hlt, by simp, fun j hj => ?_⟩
  simpa using List.pairwise_iff_getElem.mp hsep j i (Nat.lt_trans hj hlt) hlt hj hlive

omit [DecidableEq κ] in
/-- No two slots in use hold one key. -/
theorem Separated.eq_of_key_eq {table : List (Slot κ)} (hsep : Separated table) {i j : Nat}
    (hi : i < table.length) (hj : j < table.length) (hilive : table[i].live) (hjlive : table[j].live)
    (hkey : table[i].key = table[j].key) : i = j := by
  have hpair := List.pairwise_iff_getElem.mp hsep
  rcases Nat.lt_trichotomy i j with hlt | rfl | hlt
  · exact absurd hkey (hpair i j hi hj hlt hjlive)
  · rfl
  · exact absurd hkey.symm (hpair j i hj hi hlt hilive)

end SlotTable

end Machine
