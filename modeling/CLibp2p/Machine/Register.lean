import Mathlib.Data.List.Basic
import Mathlib.Tactic.Common

/-!
# Registers with a capacity

A register takes an item that it does not have yet, behind those it has, until it is full.
-/

namespace Machine

variable {α : Type} [DecidableEq α]

def enter (capacity : Nat) (known : List α) (item : α) : List α :=
  if known.length = capacity then known
  else if item ∈ known then known
  else known ++ [item]

theorem enter_of_full {capacity : Nat} {known : List α} (hfull : known.length = capacity) (item : α) :
    enter capacity known item = known := if_pos hfull

theorem enter_of_mem {capacity : Nat} {known : List α} {item : α} (hmem : item ∈ known) :
    enter capacity known item = known := by
  rw [enter, if_pos hmem, ite_self]

theorem enter_of_new {capacity : Nat} {known : List α} {item : α} (hroom : known.length ≠ capacity)
    (hnew : item ∉ known) : enter capacity known item = known ++ [item] := by
  rw [enter, if_neg hroom, if_neg hnew]

/-- What items add was not there before. -/
theorem foldl_enter_eq_append (capacity : Nat) (known items : List α) :
    ∃ fresh, items.foldl (enter capacity) known = known ++ fresh ∧ ∀ item ∈ fresh, item ∉ known := by
  induction items generalizing known with
  | nil => exact ⟨[], (List.append_nil _).symm, by simp⟩
  | cons item items ih =>
      rw [List.foldl_cons]
      by_cases hfull : known.length = capacity
      · rw [enter_of_full hfull]
        exact ih known
      · by_cases hmem : item ∈ known
        · rw [enter_of_mem hmem]
          exact ih known
        · rw [enter_of_new hfull hmem]
          obtain ⟨fresh, hfold, hfresh⟩ := ih (known ++ [item])
          refine ⟨item :: fresh, by rw [hfold, List.append_assoc, List.singleton_append], ?_⟩
          refine List.forall_mem_cons.mpr ⟨hmem, fun later hlater hold => ?_⟩
          exact hfresh later hlater (List.mem_append_left _ hold)

/-- Items add nothing to a register that is full or has them all. -/
theorem foldl_enter_eq_self_iff {capacity : Nat} {known items : List α} :
    items.foldl (enter capacity) known = known ↔
      known.length = capacity ∨ ∀ item ∈ items, item ∈ known := by
  induction items with
  | nil => simp
  | cons item items ih =>
      rw [List.foldl_cons, List.forall_mem_cons]
      by_cases hfull : known.length = capacity
      · rw [enter_of_full hfull, ih]
        exact iff_of_true (Or.inl hfull) (Or.inl hfull)
      · by_cases hmem : item ∈ known
        · rw [enter_of_mem hmem, ih, and_iff_right hmem]
        · rw [enter_of_new hfull hmem]
          refine iff_of_false (fun hsame => ?_) ?_
          · obtain ⟨fresh, hfold, -⟩ := foldl_enter_eq_append capacity (known ++ [item]) items
            rw [hfold, List.append_assoc] at hsame
            exact absurd (congrArg List.length hsame) (by simp)
          · rintro (hfull' | ⟨hmem', -⟩)
            · exact hfull hfull'
            · exact hmem hmem'

/-- The first item serves for all: the register is full, or becomes full with it, or has the others. -/
def FirstServes (capacity : Nat) (known : List α) (first : α) (items : List α) : Prop :=
  known.length = capacity ∨ (items = [] ∧ first ∈ known) ∨
    (items ≠ [] ∧ ((first ∉ known ∧ known.length + 1 = capacity) ∨
      ∀ item ∈ items, item = first ∨ item ∈ known))

theorem enter_eq_foldl_iff {capacity : Nat} {known items : List α} {first : α}
    (hfirst : ∀ item, items.head? = some item → item = first) :
    enter capacity known first = items.foldl (enter capacity) known ↔
      FirstServes capacity known first items := by
  rw [FirstServes]
  by_cases hfull : known.length = capacity
  · rw [enter_of_full hfull, foldl_enter_eq_self_iff.mpr (Or.inl hfull)]
    exact iff_of_true rfl (Or.inl hfull)
  · rw [or_iff_right hfull]
    cases items with
    | nil =>
        simp only [List.foldl_nil, true_and, ne_eq, not_true_eq_false, false_and, or_false]
        constructor
        · intro hsame
          by_contra hnew
          rw [enter_of_new hfull hnew] at hsame
          exact absurd (congrArg List.length hsame) (by simp)
        · exact enter_of_mem
    | cons item items =>
        obtain rfl := hfirst item rfl
        rw [List.foldl_cons, eq_comm, foldl_enter_eq_self_iff, List.forall_mem_cons]
        by_cases hmem : item ∈ known
        · rw [enter_of_mem hmem, or_iff_right hfull]
          constructor
          · intro hall
            exact Or.inr ⟨List.cons_ne_nil _ _, Or.inr ⟨Or.inl rfl, fun later hlater =>
              Or.inr (hall later hlater)⟩⟩
          · rintro (⟨hnil, -⟩ | ⟨-, ⟨hnew, -⟩ | ⟨-, hall⟩⟩) later hlater
            · cases hnil
            · exact absurd hmem hnew
            · rcases hall later hlater with rfl | hold
              · exact hmem
              · exact hold
        · rw [enter_of_new hfull hmem, List.length_append, List.length_singleton]
          constructor
          · rintro (hlast | hall)
            · exact Or.inr ⟨List.cons_ne_nil _ _, Or.inl ⟨hmem, hlast⟩⟩
            · refine Or.inr ⟨List.cons_ne_nil _ _, Or.inr ⟨Or.inl rfl, fun later hlater => ?_⟩⟩
              exact (List.mem_append.mp (hall later hlater)).symm.imp_left List.mem_singleton.mp
          · rintro (⟨hnil, -⟩ | ⟨-, ⟨-, hlast⟩ | ⟨-, hall⟩⟩)
            · cases hnil
            · exact Or.inl hlast
            · refine Or.inr fun later hlater => List.mem_append.mpr ?_
              exact ((hall later hlater).imp_left List.mem_singleton.mpr).symm

end Machine
