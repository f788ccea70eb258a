import CLibp2p.Utils.Vector

/-!
# When the vector is a list

`libp2p_utils_vector_delete` starts its loop at the first place and not at `index`: it clears the item
at `index` and then drops the first one. So deleting is right at index 0, or where everything that gets
overwritten on the way is NULL. Adding is right as long as a full array can grow.
-/

namespace CLibp2p.Utils

open Duplex

variable {α : Type}

/-! ### Deleting -/

theorem shiftDown_succ (items : List (Option α)) (count : Nat) :
    Libp2pVector.shiftDown items (count + 1) =
      ((Libp2pVector.shiftDown items count).set count
        ((Libp2pVector.shiftDown items count).getD (count + 1) none)).set (count + 1) none := by
  simp [Libp2pVector.shiftDown, List.range_succ]

@[simp] theorem length_shiftDown (items : List (Option α)) (count : Nat) :
    (Libp2pVector.shiftDown items count).length = items.length := by
  induction count with
  | zero => rfl
  | succ count ih => rw [shiftDown_succ, List.length_set, List.length_set, ih]

/-- After `count` rounds the first places hold their right neighbours and the others are as before, but
for the one that was copied last. -/
theorem getElem?_shiftDown (items : List (Option α)) {count : Nat} (hcount : count < items.length)
    {i : Nat} (hi : i ≠ count) :
    (Libp2pVector.shiftDown items count)[i]? = if i < count then items[i + 1]? else items[i]? := by
  induction count generalizing i with
  | zero => simp [Libp2pVector.shiftDown]
  | succ count ih =>
      have hnext : (Libp2pVector.shiftDown items count)[count + 1]? = items[count + 1]? := by
        rw [ih (by omega) (by omega), if_neg (by omega)]
      rw [shiftDown_succ, List.getElem?_set_ne (by omega)]
      by_cases hlast : i = count
      · subst hlast
        rw [List.getElem?_set_self (by rw [length_shiftDown]; omega), if_pos (Nat.lt_succ_self i),
          List.getD_eq_getElem?_getD, hnext, List.getElem?_eq_getElem hcount]
        rfl
      · rw [List.getElem?_set_ne (Ne.symm hlast), ih (by omega) hlast]
        by_cases hlt : i < count
        · rw [if_pos hlt, if_pos (by omega)]
        · rw [if_neg hlt, if_neg (by omega)]

theorem take_shiftDown (items : List (Option α)) {count : Nat} (hcount : count < items.length) :
    (Libp2pVector.shiftDown items count).take count = (items.drop 1).take count := by
  apply List.ext_getElem?
  intro i
  by_cases hi : i < count
  · rw [List.getElem?_take_of_lt hi, List.getElem?_take_of_lt hi, List.getElem?_drop,
      getElem?_shiftDown items hcount (by omega), if_pos hi, Nat.add_comm]
  · rw [List.getElem?_take_eq_none (by omega), List.getElem?_take_eq_none (by omega)]

/-- Clearing an item and dropping the first is deleting the item only if all items before it are NULL. -/
theorem set_eq_cons_eraseIdx_iff (first : Option α) (list : List (Option α)) {i : Nat}
    (hi : i < list.length) :
    list.set i none = first :: list.eraseIdx i ↔
      first = none ∧ ∀ item ∈ list.take i, item = none := by
  induction i generalizing first list with
  | zero =>
      cases list with
      | nil => simp at hi
      | cons head tail => simp [eq_comm]
  | succ i ih =>
      cases list with
      | nil => simp at hi
      | cons head tail =>
          have htail := ih head tail (by simpa using hi)
          rw [List.set_cons_succ, List.eraseIdx_cons_succ, List.cons.injEq, htail, List.take_succ_cons,
            List.forall_mem_cons]
          constructor
          · rintro ⟨rfl, hhead, hrest⟩
            exact ⟨hhead, hhead, hrest⟩
          · rintro ⟨hfirst, hhead, hrest⟩
            exact ⟨hhead.trans hfirst.symm, hhead, hrest⟩

theorem drop_set_eq_eraseIdx_iff (list : List (Option α)) {i : Nat} (hi : i < list.length) :
    (list.set i none).drop 1 = list.eraseIdx i ↔ ∀ item ∈ list.take i, item = none := by
  cases list with
  | nil => simp at hi
  | cons head tail =>
      cases i with
      | zero => simp
      | succ i =>
          have htail := set_eq_cons_eraseIdx_iff head tail (Nat.lt_of_succ_lt_succ hi)
          rw [List.set_cons_succ, List.drop_one, List.tail_cons, List.eraseIdx_cons_succ, htail,
            List.take_succ_cons, List.forall_mem_cons]

namespace Libp2pVector

theorem contents_resize {v : Libp2pVector α} (hlength : v.items.length = v.capacity)
    {capacity : Nat} (hroom : v.total ≤ capacity) (htotal : v.total ≤ v.capacity) (granted : Bool) :
    (v.resize capacity granted).contents = v.contents := by
  unfold resize contents
  split
  · rw [List.take_take, Nat.min_eq_left hroom, List.take_append_of_le_length (by omega)]
  · rfl

/-- The array has the places that are counted, and there is room for the items. -/
structure WellFormed (v : Libp2pVector α) : Prop where
  length : v.items.length = v.capacity
  total_le : v.total ≤ v.capacity
  capacity_pos : 0 < v.capacity

theorem WellFormed.resize {v : Libp2pVector α} (hwf : v.WellFormed) {capacity : Nat}
    (hpos : 0 < capacity) (hroom : v.total ≤ capacity) (granted : Bool) :
    (v.resize capacity granted).WellFormed := by
  unfold Libp2pVector.resize
  split
  · refine ⟨?_, hroom, hpos⟩
    rw [List.length_take, List.length_append, List.length_replicate]
    exact Nat.min_eq_left (Nat.le_add_left _ _)
  · exact hwf

theorem WellFormed.length_contents {v : Libp2pVector α} (hwf : v.WellFormed) :
    v.contents.length = v.total := by
  rw [contents, List.length_take, hwf.length, Nat.min_eq_left hwf.total_le]

theorem WellFormed.get_eq {v : Libp2pVector α} (hwf : v.WellFormed) (index : Int) :
    v.get index = if 0 ≤ index then v.contents.getD index.toNat none else none := by
  unfold get
  by_cases hneg : 0 ≤ index
  · rw [if_pos hneg]
    by_cases hlt : index < v.total
    · rw [if_pos ⟨hneg, hlt⟩, List.getD_eq_getElem?_getD, List.getD_eq_getElem?_getD, contents,
        List.getElem?_take_of_lt (by omega)]
    · rw [if_neg fun h => hlt h.2, List.getD_eq_getElem?_getD,
        List.getElem?_eq_none (by rw [hwf.length_contents]; omega)]
      rfl
  · rw [if_neg hneg, if_neg fun h => hneg h.1]

theorem WellFormed.append {v : Libp2pVector α} (hwf : v.WellFormed) (hroom : v.total < v.capacity)
    (item : Option α) :
    ({ v with items := v.items.set v.total item, total := v.total + 1 } :
        Libp2pVector α).WellFormed ∧
      ({ v with items := v.items.set v.total item, total := v.total + 1 } :
        Libp2pVector α).contents = v.contents ++ [item] := by
  have hlt : v.total < v.items.length := by rw [hwf.length]; exact hroom
  refine ⟨⟨by rw [List.length_set]; exact hwf.length, hroom, hwf.capacity_pos⟩, ?_⟩
  simp only [contents]
  rw [List.take_succ_eq_append_getElem (by rw [List.length_set]; exact hlt), List.getElem_set_self,
    List.take_set_of_le (Nat.le_refl _)]

theorem WellFormed.add {v : Libp2pVector α} (hwf : v.WellFormed) {granted : Bool}
    (hroom : v.total < v.capacity ∨ granted = true ∧ v.capacity * 2 < intBound)
    (item : Option α) :
    (v.add item granted).WellFormed ∧ (v.add item granted).contents = v.contents ++ [item] := by
  unfold Libp2pVector.add
  by_cases hfull : v.capacity = v.total
  · obtain ⟨rfl, hbound⟩ : granted = true ∧ v.capacity * 2 < intBound :=
      hroom.resolve_left (by omega)
    have hpos := hwf.capacity_pos
    have hgrown : (v.resize (v.capacity * 2) true).capacity = v.capacity * 2 := by
      simp [Libp2pVector.resize, hbound]
    have htotal : (v.resize (v.capacity * 2) true).total = v.total := by
      simp [Libp2pVector.resize, hbound]
    have hcontents : (v.resize (v.capacity * 2) true).contents = v.contents :=
      contents_resize hwf.length (by omega) hwf.total_le true
    rw [if_pos hfull, ← hcontents]
    exact (hwf.resize (by omega) (by omega) true).append (by omega) item
  · have htotal := hwf.total_le
    rw [if_neg hfull]
    exact hwf.append (by omega) item

/-- A full vector that cannot grow writes behind its array. -/
theorem WellFormed.add_overflows {v : Libp2pVector α} (hwf : v.WellFormed) {granted : Bool}
    (hroom : ¬(v.total < v.capacity ∨ granted = true ∧ v.capacity * 2 < intBound))
    (item : Option α) : (v.add item granted).capacity < (v.add item granted).total := by
  have htotal := hwf.total_le
  have hfull : v.capacity = v.total := by
    by_contra hne
    exact hroom (Or.inl (by omega))
  have hrefused : (granted && decide (v.capacity * 2 < intBound)) = false := by
    by_contra hgrows
    exact hroom (Or.inr (by simpa using hgrows))
  simp only [Libp2pVector.add, if_pos hfull, Libp2pVector.resize, hrefused]
  exact Nat.lt_succ_of_le (Nat.le_of_eq hfull)

theorem WellFormed.set {v : Libp2pVector α} (hwf : v.WellFormed) (index : Int) (item : Option α) :
    (v.set index item).WellFormed ∧ (v.set index item).contents =
      if 0 ≤ index then v.contents.set index.toNat item else v.contents := by
  unfold Libp2pVector.set
  by_cases hneg : 0 ≤ index
  · rw [if_pos hneg]
    by_cases hlt : index < v.total
    · rw [if_pos ⟨hneg, hlt⟩]
      refine ⟨⟨by rw [List.length_set]; exact hwf.length, hwf.total_le, hwf.capacity_pos⟩, ?_⟩
      simp only [contents]
      rw [List.take_set]
    · rw [if_neg fun h => hlt h.2]
      refine ⟨hwf, (List.set_eq_of_length_le ?_).symm⟩
      rw [hwf.length_contents]
      omega
  · rw [if_neg hneg, if_neg fun h => hneg h.1]
    exact ⟨hwf, rfl⟩

/-- What the code does for a deletion: it clears the item and drops the first one. -/
theorem WellFormed.delete {v : Libp2pVector α} (hwf : v.WellFormed) {index : Int} (hneg : 0 ≤ index)
    (hlt : index < v.total) (granted : Bool) :
    (v.delete index granted).WellFormed ∧
      (v.delete index granted).contents = (v.contents.set index.toNat none).drop 1 := by
  have htotal := hwf.total_le
  have hpos := hwf.capacity_pos
  have hlength : (shiftDown (v.items.set index.toNat none) (v.total - 1)).length = v.capacity := by
    rw [length_shiftDown, List.length_set, hwf.length]
  have hcontents : (shiftDown (v.items.set index.toNat none) (v.total - 1)).take (v.total - 1) =
      (v.contents.set index.toNat none).drop 1 := by
    rw [take_shiftDown _ (by rw [List.length_set, hwf.length]; omega), contents, ← List.take_set,
      List.drop_take]
  have hshifted : ({ v with
      items := shiftDown (v.items.set index.toNat none) (v.total - 1)
      total := v.total - 1 } : Libp2pVector α).WellFormed := ⟨hlength, by dsimp only; omega, hpos⟩
  unfold Libp2pVector.delete
  rw [if_neg (by omega)]
  dsimp only
  by_cases hshrinks : 0 < v.total - 1 ∧ v.total - 1 = v.capacity / 4
  · rw [if_pos hshrinks]
    refine ⟨hshifted.resize (by omega) (by dsimp only; omega) granted, ?_⟩
    rw [contents_resize hshifted.length (by dsimp only; omega) hshifted.total_le, ← hcontents]
    rfl
  · rw [if_neg hshrinks]
    exact ⟨hshifted, hcontents⟩

end Libp2pVector

/-! ### Runs -/

/-- What a call needs: an item is deleted where only NULL stands before it, and a full array gets twice
its capacity. -/
def VectorRun.Fits (run : VectorRun α) : VectorCall α → Prop
  | .add _ granted =>
      run.1.total < run.1.capacity ∨ granted = true ∧ run.1.capacity * 2 < intBound
  | .delete index _ =>
      0 ≤ index → index < run.1.total → ∀ item ∈ run.2.take index.toNat, item = none
  | _ => True

structure VectorRun.Agrees (run : VectorRun α) : Prop where
  wellFormed : run.1.WellFormed
  contents : run.1.contents = run.2

theorem VectorRun.Agrees.total_eq {run : VectorRun α} (hagrees : run.Agrees) :
    run.1.total = run.2.length := by
  rw [← hagrees.contents, hagrees.wellFormed.length_contents]

theorem VectorRun.Agrees.isList {run : VectorRun α} (hagrees : run.Agrees) : run.IsList := by
  refine ⟨hagrees.total_eq, hagrees.wellFormed.total_le, fun index => ?_⟩
  rw [hagrees.wellFormed.get_eq, hagrees.contents]

theorem VectorRun.Agrees.call {run : VectorRun α} (hagrees : run.Agrees) {call : VectorCall α}
    (hfits : run.Fits call) : (run.call call).Agrees := by
  obtain ⟨v, list⟩ := run
  obtain ⟨hwf, hcontents⟩ := hagrees
  cases call with
  | add item granted =>
      obtain ⟨hwf', hadd⟩ := hwf.add hfits item
      exact ⟨hwf', hadd.trans (by rw [hcontents]; rfl)⟩
  | set index item =>
      obtain ⟨hwf', hset⟩ := hwf.set index item
      exact ⟨hwf', hset.trans (by rw [hcontents]; rfl)⟩
  | get index => exact ⟨hwf, hcontents⟩
  | delete index granted =>
      have htotal : v.total = list.length := VectorRun.Agrees.total_eq ⟨hwf, hcontents⟩
      by_cases hrange : 0 ≤ index ∧ index < v.total
      · obtain ⟨hwf', hdelete⟩ := hwf.delete hrange.1 hrange.2 granted
        refine ⟨hwf', hdelete.trans ?_⟩
        dsimp only at hcontents
        rw [hcontents, (drop_set_eq_eraseIdx_iff list (by omega)).mpr (hfits hrange.1 hrange.2)]
        exact (if_pos hrange.1).symm
      · have hsame : v.delete index granted = v := if_pos (by omega)
        have hlist : listCall list (.delete index granted) = list := by
          change (if 0 ≤ index then list.eraseIdx index.toNat else list) = list
          split
          · exact List.eraseIdx_of_length_le (by omega)
          · rfl
        have hcall : VectorRun.call (v, list) (.delete index granted) = (v, list) :=
          Prod.ext hsame hlist
        rw [hcall]
        exact ⟨hwf, hcontents⟩

theorem VectorRun.IsList.contents_eq {run : VectorRun α} (hwf : run.1.WellFormed)
    (hlist : run.IsList) : run.1.contents = run.2 := by
  obtain ⟨htotal, -, hget⟩ := hlist
  have hlength := hwf.length_contents
  apply List.ext_getElem (by omega)
  intro i hi hi'
  have hat := hget i
  rw [hwf.get_eq, if_pos (Int.natCast_nonneg i), if_pos (Int.natCast_nonneg i), Int.toNat_natCast,
    List.getD_eq_getElem?_getD, List.getD_eq_getElem?_getD, List.getElem?_eq_getElem hi,
    List.getElem?_eq_getElem hi'] at hat
  exact hat

theorem VectorRun.Agrees.not_isList {run : VectorRun α} (hagrees : run.Agrees) {call : VectorCall α}
    (hfits : ¬ run.Fits call) : ¬ (run.call call).IsList := by
  obtain ⟨v, list⟩ := run
  obtain ⟨hwf, hcontents⟩ := hagrees
  cases call with
  | add item granted =>
      intro hlist
      exact absurd hlist.2.1 (Nat.not_le.mpr (hwf.add_overflows hfits item))
  | set index item => exact absurd trivial hfits
  | get index => exact absurd trivial hfits
  | delete index granted =>
      obtain ⟨hneg, hlt, hbefore⟩ : 0 ≤ index ∧ index < v.total ∧
          ¬ ∀ item ∈ list.take index.toNat, item = none := by
        simpa only [VectorRun.Fits, not_forall, exists_prop] using hfits
      have htotal : v.total = list.length := VectorRun.Agrees.total_eq ⟨hwf, hcontents⟩
      obtain ⟨hwf', hdelete⟩ := hwf.delete hneg hlt granted
      dsimp only at hcontents
      rw [hcontents] at hdelete
      have herase : listCall list (.delete index granted) = list.eraseIdx index.toNat := if_pos hneg
      intro hlist
      apply hbefore
      rw [← drop_set_eq_eraseIdx_iff list (by omega), ← hdelete, ← herase]
      exact VectorRun.IsList.contents_eq hwf' hlist

theorem Libp2pVector.new_wellFormed {initialSize : Nat} (hsize : 0 < initialSize) :
    (Libp2pVector.new α initialSize).WellFormed :=
  ⟨List.length_replicate, Nat.zero_le _, hsize⟩

/-- **The vector.** On the runs in which only such items are deleted before which everything is NULL, and
a full array grows, and on no others, the vector is at every moment the list that the same calls make. -/
theorem vector_isList_iff (initialSize : Nat) (hsize : 1 ≤ initialSize)
    (calls : List (VectorCall α)) :
    (∀ reached, reached <+: calls →
        (Machine.run VectorRun.call (Libp2pVector.new α initialSize, []) reached).IsList) ↔
      Machine.Along VectorRun.call VectorRun.Fits (Libp2pVector.new α initialSize, []) calls := by
  have hinit : VectorRun.Agrees (Libp2pVector.new α initialSize, []) :=
    ⟨Libp2pVector.new_wellFormed hsize, rfl⟩
  exact Machine.along_iff_good VectorRun.call (fun run hagrees => hagrees.isList)
    (fun run call hagrees hfits => hagrees.call hfits)
    (fun run call hagrees hfits => hagrees.not_isList hfits) hinit

/-- An array of two places that grows, and loses the first of three items. -/
theorem vector_isList_iff_grown :
    (Machine.run VectorRun.call (Libp2pVector.new Nat 2, [])
      [.add (some 5) true, .add (some 6) true, .add (some 7) true, .delete 0 true]).IsList := by
  have hfits : Machine.Along VectorRun.call VectorRun.Fits (Libp2pVector.new Nat 2, [])
      [.add (some 5) true, .add (some 6) true, .add (some 7) true, .delete 0 true] :=
    ⟨Or.inl (by decide), Or.inl (by decide), Or.inr (by decide),
      fun _ _ => (List.forall_mem_nil _), trivial⟩
  exact (vector_isList_iff 2 (by decide) _).mpr hfits _ (List.prefix_refl _)

/-- Deleting the second of two items leaves NULL in the place of the first. -/
theorem vector_isList_fails :
    ¬ (Machine.run VectorRun.call (Libp2pVector.new Nat 2, [])
      [.add (some 1) true, .add (some 2) true, .delete 1 true]).IsList := by
  intro hlist
  exact absurd (hlist.2.2 0) (by decide)

end CLibp2p.Utils
