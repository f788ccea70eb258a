import Mathlib.Data.List.Basic
import Mathlib.Tactic.Common

/-!
# A ring of cells

What comes in takes the place of what is oldest, so a ring has what came in last.
-/

namespace Machine

variable {α : Type} {n : Nat} {cells : Vector (Option α) n} {next : Nat} {xs : List α} {x : α}

/-- These came in so far, in this order, and what comes in next goes to this cell. -/
structure Ring (cells : Vector (Option α) n) (next : Nat) (xs : List α) : Prop where
  next : next = xs.length % n
  recent : ∀ i x, xs[i]? = some x → xs.length ≤ i + n → cells[i % n]? = some (some x)
  fresh : ∀ i, xs.length ≤ i → i < n → cells[i]? = some none

namespace Ring

theorem empty (n : Nat) : Ring (Vector.replicate n (none : Option α)) 0 [] := by
  refine ⟨(Nat.zero_mod n).symm, fun i x hget => ?_, fun i _ hi => ?_⟩
  · rw [List.getElem?_nil] at hget
    cases hget
  · rw [Vector.getElem?_replicate, if_pos hi]

theorem push (hring : Ring cells next xs) (hn : 0 < n) (x : α) :
    Ring (cells.setIfInBounds next (some x)) ((next + 1) % n) (xs ++ [x]) := by
  have hnext : next < n := by
    rw [hring.next]
    exact Nat.mod_lt _ hn
  refine ⟨?_, fun i y hget hrecent => ?_, fun i hlong hi => ?_⟩
  · rw [hring.next, List.length_append, List.length_singleton, Nat.mod_add_mod]
  · rw [List.length_append, List.length_singleton] at hrecent
    rw [Vector.getElem?_setIfInBounds]
    by_cases hold : i < xs.length
    · -- Less than n came in since, so the cell is another one.
      have hother : next ≠ i % n := by
        rw [hring.next]
        intro hsame
        have hdiff : (xs.length - i) % n = 0 := Nat.sub_mod_eq_zero_of_mod_eq hsame
        rw [Nat.mod_eq_of_lt (by omega)] at hdiff
        omega
      rw [if_neg hother]
      rw [List.getElem?_append_left hold] at hget
      exact hring.recent i y hget (by omega)
    · have hi : i = xs.length := by
        obtain ⟨hlt, -⟩ := List.getElem?_eq_some_iff.mp hget
        rw [List.length_append, List.length_singleton] at hlt
        omega
      rw [hi, List.getElem?_concat_length] at hget
      rw [hi, if_pos hring.next, if_pos hnext, Option.some.inj hget]
  · rw [List.length_append, List.length_singleton] at hlong
    have hother : next ≠ i := by
      rw [hring.next, Nat.mod_eq_of_lt (by omega)]
      omega
    rw [Vector.getElem?_setIfInBounds, if_neg hother]
    exact hring.fresh i (by omega) hi

/-- **A ring has what came in last.** -/
theorem mem_iff (hring : Ring cells next xs) : some x ∈ cells.toList ↔ x ∈ xs.drop (xs.length - n) := by
  rw [List.mem_iff_getElem?, List.mem_iff_getElem?]
  constructor
  · rintro ⟨i, hget⟩
    rw [Vector.getElem?_toList] at hget
    obtain ⟨hi, -⟩ := Vector.getElem?_eq_some_iff.mp hget
    by_cases hold : i < xs.length
    · -- The last place before the end that is this cell.
      have hdiv : n * ((xs.length - 1 - i) / n) + (xs.length - 1 - i) % n = xs.length - 1 - i := Nat.div_add_mod _ _
      have hmod : (xs.length - 1 - i) % n < n := Nat.mod_lt _ (by omega)
      have hsame : (i + n * ((xs.length - 1 - i) / n)) % n = i := by
        rw [Nat.add_mul_mod_self_left, Nat.mod_eq_of_lt hi]
      have hlt : i + n * ((xs.length - 1 - i) / n) < xs.length := by omega
      have hrecent := hring.recent _ _ (List.getElem?_eq_getElem hlt) (by omega)
      rw [hsame, hget] at hrecent
      refine ⟨i + n * ((xs.length - 1 - i) / n) - (xs.length - n), ?_⟩
      rw [List.getElem?_drop, Nat.add_sub_cancel' (by omega), List.getElem?_eq_getElem hlt,
        Option.some.inj (Option.some.inj hrecent)]
    · rw [hring.fresh i (by omega) hi] at hget
      cases hget
  · rintro ⟨i, hget⟩
    rw [List.getElem?_drop] at hget
    exact ⟨(xs.length - n + i) % n, (Vector.getElem?_toList ..).trans (hring.recent _ x hget (by omega))⟩

end Ring

end Machine
