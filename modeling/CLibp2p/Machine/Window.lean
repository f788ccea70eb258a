import Mathlib.Data.List.Sort

/-!
# The least items of a sequence

A scan that keeps at most a given number of items, sorted by a key. Each new item goes in behind those
that are not greater, and what no longer fits falls off at the end. What it keeps are the least items that
it has seen, and of equal ones those that came first.
-/

namespace Machine

variable {α κ : Type} [LinearOrder κ]

/-- The item in its place among those kept. -/
def place (key : α → κ) (item : α) (kept : List α) : List α :=
  kept.orderedInsert (fun a b => key a < key b) item

def windowStep (key : α → κ) (size : Nat) (kept : List α) (item : α) : List α :=
  (place key item kept).take size

variable {key : α → κ}

theorem place_cons_of_lt {item b : α} (hless : key item < key b) (kept : List α) :
    place key item (b :: kept) = item :: b :: kept := by
  rw [place, List.orderedInsert_cons, if_pos hless]

theorem place_cons_of_not_lt {item b : α} (hless : ¬key item < key b) (kept : List α) :
    place key item (b :: kept) = b :: place key item kept := by
  rw [place, List.orderedInsert_cons, if_neg hless, place]

theorem place_of_findIdx?_eq_some {item : α} {kept : List α} {i : Nat}
    (hfound : kept.findIdx? (fun b => decide (key item < key b)) = some i) :
    place key item kept = kept.insertIdx i item := by
  induction kept generalizing i with
  | nil => cases hfound
  | cons b kept ih =>
      rw [List.findIdx?_cons] at hfound
      by_cases hless : key item < key b
      · rw [if_pos (decide_eq_true hless)] at hfound
        cases hfound
        rw [place_cons_of_lt hless, List.insertIdx_zero]
      · rw [if_neg (by simpa using hless)] at hfound
        obtain ⟨j, hj, rfl⟩ := Option.map_eq_some_iff.mp hfound
        rw [place_cons_of_not_lt hless, ih hj, List.insertIdx_succ_cons]

theorem place_of_findIdx?_eq_none {item : α} {kept : List α}
    (hnone : kept.findIdx? (fun b => decide (key item < key b)) = none) :
    place key item kept = kept ++ [item] := by
  induction kept with
  | nil => rfl
  | cons b kept ih =>
      obtain ⟨hless, hrest⟩ := List.forall_mem_cons.mp (List.findIdx?_eq_none_iff.mp hnone)
      rw [place_cons_of_not_lt (of_decide_eq_false hless), ih (List.findIdx?_eq_none_iff.mpr hrest),
        List.cons_append]

theorem perm_place (item : α) (kept : List α) : (place key item kept).Perm (item :: kept) :=
  List.perm_orderedInsert _ item kept

theorem pairwise_place {item : α} {kept : List α} (hsorted : kept.Pairwise fun a b => key a ≤ key b) :
    (place key item kept).Pairwise fun a b => key a ≤ key b := by
  induction kept with
  | nil => exact List.pairwise_singleton _ item
  | cons b kept ih =>
      obtain ⟨hhead, htail⟩ := List.pairwise_cons.mp hsorted
      by_cases hless : key item < key b
      · rw [place_cons_of_lt hless]
        refine List.pairwise_cons.mpr ⟨fun c hc => ?_, hsorted⟩
        rcases List.mem_cons.mp hc with rfl | hrest
        · exact hless.le
        · exact hless.le.trans (hhead c hrest)
      · rw [place_cons_of_not_lt hless]
        refine List.pairwise_cons.mpr ⟨fun c hc => ?_, ih htail⟩
        rcases List.mem_cons.mp ((perm_place item kept).mem_iff.mp hc) with rfl | hrest
        · exact not_lt.mp hless
        · exact hhead c hrest

/-- What falls off has no part in what comes later. -/
theorem windowStep_take (size : Nat) (kept : List α) (item : α) :
    windowStep key size (kept.take size) item = windowStep key size kept item := by
  induction kept generalizing size with
  | nil => rw [List.take_nil]
  | cons b kept ih =>
      cases size with
      | zero => rfl
      | succ size =>
          rw [List.take_succ_cons, windowStep, windowStep]
          by_cases hless : key item < key b
          · rw [place_cons_of_lt hless, place_cons_of_lt hless, List.take_succ_cons, List.take_succ_cons]
            cases size with
            | zero => rfl
            | succ size =>
                rw [List.take_succ_cons, List.take_succ_cons, List.take_take,
                  Nat.min_eq_left (Nat.le_succ size)]
          · rw [place_cons_of_not_lt hless, place_cons_of_not_lt hless, List.take_succ_cons,
              List.take_succ_cons]
            exact congrArg (b :: ·) (ih size)

theorem foldl_windowStep_eq_take (size : Nat) (items kept : List α) :
    items.foldl (windowStep key size) (kept.take size) =
      (items.foldl (fun kept item => place key item kept) kept).take size := by
  induction items generalizing kept with
  | nil => rfl
  | cons item items ih => rw [List.foldl_cons, List.foldl_cons, windowStep_take, windowStep, ih]

theorem perm_foldl_place (items kept : List α) :
    (items.foldl (fun kept item => place key item kept) kept).Perm (items ++ kept) := by
  induction items generalizing kept with
  | nil => exact List.Perm.refl kept
  | cons item items ih =>
      have hplace : (items ++ place key item kept).Perm (items ++ item :: kept) :=
        (perm_place item kept).append_left items
      exact ((ih (place key item kept)).trans hplace).trans List.perm_middle

theorem pairwise_foldl_place {items kept : List α} (hsorted : kept.Pairwise fun a b => key a ≤ key b) :
    (items.foldl (fun kept item => place key item kept) kept).Pairwise fun a b => key a ≤ key b := by
  induction items generalizing kept with
  | nil => exact hsorted
  | cons item items ih => exact ih (pairwise_place hsorted)

/-- What a scan keeps, and what it let go: nothing else, no more than there is room for, and nothing that
is greater. -/
theorem foldl_windowStep_spec (key : α → κ) (size : Nat) (items : List α) :
    ∃ left, (items.foldl (windowStep key size) [] ++ left).Perm items ∧
      (items.foldl (windowStep key size) []).length = min size items.length ∧
      (items.foldl (windowStep key size) [] ++ left).Pairwise fun a b => key a ≤ key b := by
  have htake : items.foldl (windowStep key size) (List.take size []) = _ :=
    foldl_windowStep_eq_take size items []
  rw [List.take_nil] at htake
  have hperm : (items.foldl (fun kept item => place key item kept) []).Perm (items ++ []) :=
    perm_foldl_place items []
  rw [List.append_nil] at hperm
  refine ⟨(items.foldl (fun kept item => place key item kept) []).drop size, ?_, ?_, ?_⟩
  · rwa [htake, List.take_append_drop]
  · rw [htake, List.length_take, hperm.length_eq]
  · rw [htake, List.take_append_drop]
    exact pairwise_foldl_place List.Pairwise.nil

end Machine
