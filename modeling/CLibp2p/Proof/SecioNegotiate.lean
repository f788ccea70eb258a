import CLibp2p.Secio.Negotiate

/-!
# Negotiation from both sides

The two sides compute opposite orders, because each compares the same two hashes the other way round.
With opposite orders other than zero they search the same list along the same other list; with order
zero each takes the head of its own.
-/

namespace CLibp2p.Secio

open Duplex

theorem bytesCompare_swap (a b : Bytes) : bytesCompare b a = -bytesCompare a b := by
  induction a generalizing b with
  | nil => cases b <;> rfl
  | cons x a ih =>
      cases b with
      | nil => rfl
      | cons y b =>
          rw [bytesCompare, bytesCompare]
          by_cases hless : x < y
          · rw [if_neg (UInt8.lt_asymm hless), if_pos hless, if_pos hless]
            rfl
          · by_cases hgreater : y < x
            · rw [if_pos hgreater, if_neg hless, if_pos hgreater]
            · rw [if_neg hgreater, if_neg hless, if_neg hless, if_neg hgreater]
              exact ih b

theorem bytesCompare_eq_zero_iff {a b : Bytes} (hlength : a.length = b.length) :
    bytesCompare a b = 0 ↔ a = b := by
  induction a generalizing b with
  | nil =>
      obtain rfl := List.length_eq_zero_iff.mp hlength.symm
      exact iff_of_true rfl rfl
  | cons x a ih =>
      cases b with
      | nil => cases hlength
      | cons y b =>
          rw [bytesCompare]
          by_cases hless : x < y
          · rw [if_pos hless]
            refine iff_of_false (by decide) fun heq => ?_
            exact absurd hless (by rw [(List.cons.inj heq).1]; exact UInt8.lt_irrefl y)
          · by_cases hgreater : y < x
            · rw [if_neg hless, if_pos hgreater]
              refine iff_of_false (by decide) fun heq => ?_
              exact absurd hgreater (by rw [(List.cons.inj heq).1]; exact UInt8.lt_irrefl y)
            · obtain rfl : x = y := UInt8.le_antisymm (UInt8.not_lt.mp hgreater) (UInt8.not_lt.mp hless)
              rw [if_neg hless, if_neg hless, ih (Nat.succ.inj hlength), List.cons.injEq,
                and_iff_right rfl]

theorem determineOrder_swap (prims : Primitives) (a b : Propose) :
    determineOrder prims a b = -determineOrder prims b a :=
  bytesCompare_swap _ _

/-- Both sides pick the same name, or both find none. -/
def Choice.Agrees (a b : Choice) : Prop :=
  (∃ name, a = .picked name ∧ b = .picked name) ∨ (a = .noMatch ∧ b = .noMatch)

theorem firstMatch_agrees (lead follower : List Bytes) :
    (firstMatch lead follower).Agrees (firstMatch lead follower) := by
  rw [firstMatch]
  cases lead.find? fun name => follower.contains name with
  | none => exact Or.inr ⟨rfl, rfl⟩
  | some name => exact Or.inl ⟨name, rfl, rfl⟩

/-- The two lists start with the same name. -/
def SameFirst (listA listB : Bytes) : Prop :=
  ∃ name, (splitList listA).head? = some name ∧ (splitList listB).head? = some name

/-- With opposite orders the choices agree, unless the orders are zero and the heads differ. -/
theorem selectBest_agrees_iff (order : Int) (listA listB : Bytes) :
    (selectBest order listA listB).Agrees (selectBest (-order) listB listA) ↔
      order ≠ 0 ∨ SameFirst listA listB := by
  by_cases hzero : order = 0
  · rw [selectBest, selectBest, if_pos hzero, if_pos (by omega), SameFirst]
    cases splitList listA with
    | nil => simp [Choice.Agrees, hzero]
    | cons nameA restA =>
        cases splitList listB with
        | nil => simp [Choice.Agrees, hzero]
        | cons nameB restB => simp [Choice.Agrees, hzero, eq_comm]
  · refine iff_of_true ?_ (Or.inl hzero)
    by_cases hpos : 0 < order
    · rw [selectBest, selectBest, if_neg hzero, if_pos hpos, if_neg (by omega), if_neg (by omega)]
      exact firstMatch_agrees _ _
    · rw [selectBest, selectBest, if_neg hzero, if_neg hpos, if_neg (by omega), if_pos (by omega)]
      exact firstMatch_agrees _ _

end CLibp2p.Secio
