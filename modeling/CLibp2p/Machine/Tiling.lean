import Mathlib.Data.List.Sort
import Mathlib.Tactic.Common

/-!
# Cells that lie end to end

A sorted list of cells, each responsible for the keys from its own first one up to the first one of the
next cell. Walking the list finds the one cell that is responsible for a key.
-/

namespace Machine

variable {β κ : Type}

/-- A place in a list of cells. -/
structure Cursor (β : Type) where
  before : List β
  here : β
  after : List β
deriving Repr, DecidableEq

/-- The whole list again. -/
def Cursor.close (c : Cursor β) : List β := c.before ++ c.here :: c.after

/-- The cells lie end to end from `lo` to `hi` and each of them is fit for its range. -/
def Tiled (Fits : β → κ → κ → Prop) : κ → κ → List β → Prop
  | lo, hi, [] => lo = hi
  | lo, hi, b :: rest => ∃ mid, Fits b lo mid ∧ Tiled Fits mid hi rest

/-- The walk from the cell at the front of what is left: on to the next cell unless that one starts
behind the key. -/
def locate [LT κ] [DecidableLT κ] (first : β → κ) (key : κ) : List β → List β → Option (Cursor β)
  | _, [] => none
  | before, [b] => some ⟨before, b, []⟩
  | before, b :: next :: rest =>
      if key < first next then some ⟨before, b, next :: rest⟩
      else locate first key (before ++ [b]) (next :: rest)

variable {Fits Fits' : β → κ → κ → Prop}

@[simp] theorem tiled_nil {lo hi : κ} : Tiled Fits lo hi [] ↔ lo = hi := Iff.rfl

@[simp] theorem tiled_cons {lo hi : κ} {b : β} {rest : List β} :
    Tiled Fits lo hi (b :: rest) ↔ ∃ mid, Fits b lo mid ∧ Tiled Fits mid hi rest := Iff.rfl

theorem tiled_append {lo hi : κ} {front rest : List β} :
    Tiled Fits lo hi (front ++ rest) ↔ ∃ mid, Tiled Fits lo mid front ∧ Tiled Fits mid hi rest := by
  induction front generalizing lo with
  | nil => simp
  | cons b front ih =>
      rw [List.cons_append, tiled_cons]
      constructor
      · rintro ⟨a, hfits, hrest⟩
        obtain ⟨mid, hfront, htail⟩ := ih.mp hrest
        exact ⟨mid, ⟨a, hfits, hfront⟩, htail⟩
      · rintro ⟨mid, ⟨a, hfits, hfront⟩, htail⟩
        exact ⟨a, hfits, ih.mpr ⟨mid, hfront, htail⟩⟩

/-- What the tiling says around a place. -/
theorem tiled_close {lo hi : κ} {c : Cursor β} :
    Tiled Fits lo hi c.close ↔
      ∃ a b, Tiled Fits lo a c.before ∧ Fits c.here a b ∧ Tiled Fits b hi c.after := by
  rw [Cursor.close, tiled_append]
  constructor
  · rintro ⟨a, hbefore, b, hhere, hafter⟩
    exact ⟨a, b, hbefore, hhere, hafter⟩
  · rintro ⟨a, b, hbefore, hhere, hafter⟩
    exact ⟨a, hbefore, b, hhere, hafter⟩

theorem Tiled.mono (hfits : ∀ b lo hi, Fits b lo hi → Fits' b lo hi) {lo hi : κ} {cells : List β}
    (htiled : Tiled Fits lo hi cells) : Tiled Fits' lo hi cells := by
  induction cells generalizing lo with
  | nil => exact htiled
  | cons b rest ih =>
      obtain ⟨mid, hb, hrest⟩ := htiled
      exact ⟨mid, hfits b lo mid hb, ih hrest⟩

/-! ## The cell that is responsible for a key -/

section Ordered

variable [LinearOrder κ] {first : β → κ}

theorem Tiled.le (hfits : ∀ b lo hi, Fits b lo hi → first b = lo ∧ lo < hi) {lo hi : κ} {cells : List β}
    (htiled : Tiled Fits lo hi cells) : lo ≤ hi := by
  induction cells generalizing lo with
  | nil => exact le_of_eq htiled
  | cons b rest ih =>
      obtain ⟨mid, hb, hrest⟩ := htiled
      exact (hfits b lo mid hb).2.le.trans (ih hrest)

/-- Every cell has a range, inside that of all of them. -/
theorem Tiled.exists_fits (hfits : ∀ b lo hi, Fits b lo hi → first b = lo ∧ lo < hi) {lo hi : κ}
    {cells : List β} (htiled : Tiled Fits lo hi cells) {b : β} (hb : b ∈ cells) :
    ∃ a z, Fits b a z ∧ lo ≤ a ∧ z ≤ hi := by
  obtain ⟨front, rest, rfl⟩ := List.append_of_mem hb
  have hclose : Tiled Fits lo hi (Cursor.close ⟨front, b, rest⟩) := htiled
  obtain ⟨a, z, hfront, hb, hrest⟩ := tiled_close.mp hclose
  exact ⟨a, z, hb, hfront.le hfits, hrest.le hfits⟩

/-- The place in a tiling whose range has the key in it. -/
def Placed (Fits : β → κ → κ → Prop) (lo hi key : κ) (c : Cursor β) : Prop :=
  ∃ a b, Tiled Fits lo a c.before ∧ Fits c.here a b ∧ Tiled Fits b hi c.after ∧ a ≤ key ∧ key < b

/-- **The walk ends at a cell whose range has the key in it.** -/
theorem locate_spec (hfits : ∀ b lo hi, Fits b lo hi → first b = lo ∧ lo < hi) {key lo mid hi : κ}
    {before cells : List β} (hbefore : Tiled Fits lo mid before) (htiled : Tiled Fits mid hi cells)
    (hlo : mid ≤ key) (hhi : key < hi) :
    ∃ c, locate first key before cells = some c ∧ Placed Fits lo hi key c := by
  induction cells generalizing mid before with
  | nil => exact absurd (hlo.trans_lt hhi) (not_lt.mpr (le_of_eq htiled.symm))
  | cons cell rest ih =>
      obtain ⟨next, hcell, hrest⟩ := htiled
      cases rest with
      | nil =>
          refine ⟨⟨before, cell, []⟩, rfl, mid, next, hbefore, hcell, hrest, hlo, ?_⟩
          exact hhi.trans_eq (Eq.symm hrest)
      | cons cell' rest =>
          obtain ⟨last, hcell', -⟩ := id hrest
          have hfirst : first cell' = next := (hfits cell' next last hcell').1
          by_cases hkey : key < first cell'
          · refine ⟨⟨before, cell, cell' :: rest⟩, ?_, mid, next, hbefore, hcell, hrest, hlo, ?_⟩
            · rw [locate, if_pos hkey]
            · rwa [← hfirst]
          · rw [locate, if_neg hkey]
            have hbefore' : Tiled Fits lo next (before ++ [cell]) :=
              tiled_append.mpr ⟨mid, hbefore, next, hcell, rfl⟩
            exact ih hbefore' hrest (hfirst ▸ not_lt.mp hkey)

theorem locate_close {key : κ} {before cells : List β} {c : Cursor β}
    (hlocate : locate first key before cells = some c) : c.close = before ++ cells := by
  fun_induction locate first key before cells with
  | case1 before => cases hlocate
  | case2 before b =>
      rw [Option.some.injEq] at hlocate
      rw [← hlocate, Cursor.close]
  | case3 before b next rest hkey =>
      rw [Option.some.injEq] at hlocate
      rw [← hlocate, Cursor.close]
  | case4 before b next rest hkey ih =>
      rw [ih hlocate, List.append_assoc, List.singleton_append]

theorem locate_eq_none_iff {key : κ} {before cells : List β} :
    locate first key before cells = none ↔ cells = [] := by
  fun_induction locate first key before cells with
  | case1 before => simp
  | case2 before b => simp
  | case3 before b next rest hkey => simp
  | case4 before b next rest hkey ih => simpa using ih

theorem Placed.false_of_behind (hfits : ∀ b lo hi, Fits b lo hi → first b = lo ∧ lo < hi) {key lo hi : κ}
    {before gap after : List β} {here here' : β}
    (hc : Placed Fits lo hi key ⟨before, here, gap ++ here' :: after⟩)
    (hd : Placed Fits lo hi key ⟨before ++ here :: gap, here', after⟩) : False := by
  obtain ⟨a, b, -, hhere, hafter, -, hkey⟩ := hc
  obtain ⟨a', b', -, hhere', -, hkey', -⟩ := hd
  obtain ⟨z, hgap, z', hz, -⟩ := tiled_append.mp hafter
  have hend : z = a' := ((hfits here' z z' hz).1).symm.trans (hfits here' a' b' hhere').1
  have hle : b ≤ a' := hend ▸ hgap.le hfits
  exact absurd (hkey.trans_le hle) (not_lt.mpr hkey')

/-- No two places of a tiling have the same key in their ranges. -/
theorem Placed.unique (hfits : ∀ b lo hi, Fits b lo hi → first b = lo ∧ lo < hi) {key lo hi : κ}
    {c d : Cursor β} (hc : Placed Fits lo hi key c) (hd : Placed Fits lo hi key d)
    (hclose : c.close = d.close) : c = d := by
  obtain ⟨before, here, after⟩ := c
  obtain ⟨before', here', after'⟩ := d
  have hsplit : before ++ here :: after = before' ++ here' :: after' := hclose
  rcases List.append_eq_append_iff.mp hsplit with ⟨gap, rfl, hrest⟩ | ⟨gap, rfl, hrest⟩
  · cases gap with
    | nil =>
        obtain ⟨rfl, rfl⟩ : here = here' ∧ after = after' := by simpa using hrest
        rw [List.append_nil]
    | cons cell gap =>
        obtain ⟨rfl, rfl⟩ : here = cell ∧ after = gap ++ here' :: after' := by simpa using hrest
        exact (hc.false_of_behind hfits hd).elim
  · cases gap with
    | nil =>
        obtain ⟨rfl, rfl⟩ : here' = here ∧ after' = after := by simpa using hrest
        rw [List.append_nil]
    | cons cell gap =>
        obtain ⟨rfl, rfl⟩ : here' = cell ∧ after' = gap ++ here :: after := by simpa using hrest
        exact (hd.false_of_behind hfits hc).elim

end Ordered

end Machine
