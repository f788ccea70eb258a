import CLibp2p.Machine.Window
import Mathlib.Data.Finset.Sort

/-!
# The nearest keys that were offered

A list that is sorted by a key, with at most one item for each key and room for so many. An item that is
offered is merged with the one that has its key; else it goes to its place, and what no longer fits falls
off at the end. What is kept are the least of all the keys that were offered.
-/

namespace Machine

variable {α κ : Type} [LinearOrder κ] {key : α → κ} {size : Nat}

/-- `item` makes what is put in, from the item that is there for the same key. -/
def offer (key : α → κ) (size : Nat) (item : Option α → α) (k : κ) (kept : List α) : List α :=
  let stop := kept.findIdx fun b => decide (k ≤ key b)
  match kept[stop]? with
  | some b =>
      if key b = k then kept.set stop (item (some b))
      else (kept.take stop ++ item none :: kept.drop stop).take size
  | none => if stop = size then kept else kept ++ [item none]

abbrev SortedBy (key : α → κ) (kept : List α) : Prop := kept.Pairwise fun a b => key a < key b

/-- How an offer ends: the key is there, or it goes between the smaller and the greater ones. -/
inductive Offered (key : α → κ) (size : Nat) (item : Option α → α) (k : κ) (kept kept' : List α) : Prop
  | merged (front rest : List α) (b : α) (hkept : kept = front ++ b :: rest) (hkey : key b = k)
      (hkept' : kept' = front ++ item (some b) :: rest)
  | placed (front rest : List α) (hkept : kept = front ++ rest) (hfront : ∀ a ∈ front, key a < k)
      (hrest : ∀ a ∈ rest, k < key a) (hkept' : kept' = (front ++ item none :: rest).take size)

theorem offer_spec {item : Option α → α} {k : κ} {kept : List α} (hsorted : SortedBy key kept)
    (hroom : kept.length ≤ size) : Offered key size item k kept (offer key size item k kept) := by
  have hsplit : kept.take (kept.findIdx fun b => decide (k ≤ key b)) ++
      kept.drop (kept.findIdx fun b => decide (k ≤ key b)) = kept := List.take_append_drop _ kept
  have hfront : ∀ a ∈ kept.take (kept.findIdx fun b => decide (k ≤ key b)), key a < k := by
    intro a ha
    obtain ⟨j, hj, rfl⟩ := List.mem_take_iff_getElem.mp ha
    have hnot := List.not_of_lt_findIdx (lt_of_lt_of_le hj (min_le_left _ _))
    simpa using hnot
  rw [offer]
  generalize hstop : (kept.findIdx fun b => decide (k ≤ key b)) = stop at hsplit hfront ⊢
  split
  · rename_i b hget
    obtain ⟨hlt, hb⟩ := List.getElem?_eq_some_iff.mp hget
    have hdrop : kept.drop stop = b :: kept.drop (stop + 1) := by
      rw [List.drop_eq_getElem_cons hlt, hb]
    have hle : k ≤ key b := by
      rw [← hstop] at hget
      have hat := List.findIdx_of_getElem?_eq_some hget
      exact of_decide_eq_true hat
    split
    · rename_i hkey
      refine Offered.merged (kept.take stop) (kept.drop (stop + 1)) b ?_ hkey ?_
      · rw [← hdrop, hsplit]
      · rw [List.set_eq_take_append_cons_drop, if_pos hlt]
    · rename_i hkey
      refine Offered.placed _ _ hsplit.symm hfront (fun a ha => ?_) rfl
      have hless : k < key b := lt_of_le_of_ne hle (Ne.symm hkey)
      rw [← hsplit, SortedBy, List.pairwise_append, hdrop, List.pairwise_cons] at hsorted
      rw [hdrop] at ha
      rcases List.mem_cons.mp ha with rfl | htail
      · exact hless
      · exact hless.trans (hsorted.2.1.1 a htail)
  · rename_i hget
    have hlength : kept.length ≤ stop := List.getElem?_eq_none_iff.mp hget
    have hle : stop ≤ kept.length := hstop ▸ List.findIdx_le_length
    rw [List.take_of_length_le hlength] at hfront
    refine Offered.placed kept [] (List.append_nil kept).symm hfront (fun a ha => ?_) ?_
    · cases ha
    · split
      · rw [List.take_append_of_le_length (by omega), List.take_of_length_le (by omega)]
      · rw [List.take_of_length_le]
        rw [List.length_append, List.length_singleton]
        omega

/-- Whatever holds of all that is kept still does, if it holds of what is put in. -/
theorem forall_offer {item : Option α → α} {k : κ} {kept : List α} (hsorted : SortedBy key kept)
    (hroom : kept.length ≤ size) {P : α → Prop} (hkept : ∀ a ∈ kept, P a)
    (hsome : ∀ b ∈ kept, key b = k → P (item (some b))) (hnone : P (item none)) :
    ∀ a ∈ offer key size item k kept, P a := by
  intro a ha
  rcases @offer_spec α κ _ key size item k kept hsorted hroom with
    ⟨front, rest, b, rfl, hkey, heq⟩ | ⟨front, rest, rfl, -, -, heq⟩
  · rw [heq] at ha
    rcases List.mem_append.mp ha with hfront | hrest
    · exact hkept a (List.mem_append_left _ hfront)
    · rcases List.mem_cons.mp hrest with rfl | htail
      · exact hsome b (List.mem_append_right _ List.mem_cons_self) hkey
      · exact hkept a (List.mem_append_right _ (List.mem_cons_of_mem b htail))
  · rw [heq] at ha
    rcases List.mem_append.mp (List.mem_of_mem_take ha) with hfront | hrest
    · exact hkept a (List.mem_append_left _ hfront)
    · rcases List.mem_cons.mp hrest with rfl | htail
      · exact hnone
      · exact hkept a (List.mem_append_right _ htail)

theorem length_offer_le {item : Option α → α} {k : κ} {kept : List α} (hsorted : SortedBy key kept)
    (hroom : kept.length ≤ size) : (offer key size item k kept).length ≤ size := by
  rcases @offer_spec α κ _ key size item k kept hsorted hroom with
    ⟨front, rest, b, rfl, -, heq⟩ | ⟨front, rest, rfl, -, -, heq⟩
  · rw [heq]
    rwa [List.length_append, List.length_cons] at hroom ⊢
  · rw [heq]
    exact List.length_take_le _ _

/-- What is put in has the key that it was offered under. -/
def ItemFor (key : α → κ) (item : Option α → α) (k : κ) : Prop :=
  key (item none) = k ∧ ∀ b, key b = k → key (item (some b)) = k

theorem sortedBy_offer {item : Option α → α} {k : κ} {kept : List α} (hsorted : SortedBy key kept)
    (hroom : kept.length ≤ size) (hitem : ItemFor key item k) :
    SortedBy key (offer key size item k kept) := by
  rcases @offer_spec α κ _ key size item k kept hsorted hroom with
    ⟨front, rest, b, rfl, hkey, heq⟩ | ⟨front, rest, rfl, hfront, hrest, heq⟩
  · rw [heq]
    have hkeys : (front ++ item (some b) :: rest).map key = (front ++ b :: rest).map key := by
      rw [List.map_append, List.map_append, List.map_cons, List.map_cons, hitem.2 b hkey, hkey]
    rw [SortedBy, ← List.pairwise_map] at hsorted ⊢
    rwa [hkeys]
  · rw [heq]
    apply List.Pairwise.sublist (List.take_sublist _ _)
    obtain ⟨hl, hr, hlr⟩ := List.pairwise_append.mp hsorted
    refine List.pairwise_append.mpr ⟨hl, List.pairwise_cons.mpr ⟨fun a ha => ?_, hr⟩, fun a ha c hc => ?_⟩
    · rw [hitem.1]
      exact hrest a ha
    · rcases List.mem_cons.mp hc with rfl | htail
      · rw [hitem.1]
        exact hfront a ha
      · exact hlr a ha c htail

/-! ## All that was offered -/

/-- The keys of the list are the least of these, as many as there is room for. -/
def Nearest (key : α → κ) (size : Nat) (offered : Finset κ) (kept : List α) : Prop :=
  kept.map key = (offered.sort (· ≤ ·)).take size

theorem place_append {front rest : List κ} {k : κ} (hfront : ∀ a ∈ front, a < k) (hrest : ∀ a ∈ rest, k < a) :
    place id k (front ++ rest) = front ++ k :: rest := by
  induction front with
  | nil =>
      cases rest with
      | nil => rfl
      | cons a rest => exact @place_cons_of_lt κ κ _ id k a (hrest a List.mem_cons_self) rest
  | cons a front ih =>
      obtain ⟨ha, hfront'⟩ := List.forall_mem_cons.mp hfront
      have hnot : ¬k < a := ha.le.not_gt
      rw [List.cons_append, List.cons_append, @place_cons_of_not_lt κ κ _ id k a hnot, ih hfront']

theorem place_sort {offered : Finset κ} {k : κ} (hnew : k ∉ offered) :
    place id k (offered.sort (· ≤ ·)) = (insert k offered).sort (· ≤ ·) := by
  have hperm : (place id k (offered.sort (· ≤ ·))).Perm ((insert k offered).sort (· ≤ ·)) := by
    apply (perm_place k _).trans
    rw [← Multiset.coe_eq_coe, Finset.sort_eq, Finset.insert_val_of_notMem hnew, ← Multiset.cons_coe,
      Finset.sort_eq]
  have hplace : (place id k (offered.sort (· ≤ ·))).Pairwise fun a b => a ≤ b :=
    @pairwise_place κ κ _ id k _ (offered.pairwise_sort (· ≤ ·))
  exact hperm.eq_of_pairwise' hplace (Finset.pairwise_sort _ (· ≤ ·))

namespace Nearest

variable {offered : Finset κ} {kept : List α}

theorem nil (key : α → κ) (size : Nat) : Nearest key size ∅ [] := by
  rw [Nearest, Finset.sort_empty, List.take_nil, List.map_nil]

theorem sorted (h : Nearest key size offered kept) : SortedBy key kept := by
  have hsort : (offered.sort (· ≤ ·)).Pairwise (· < ·) := offered.sortedLT_sort.pairwise
  rw [SortedBy, ← List.pairwise_map, h]
  exact hsort.sublist (List.take_sublist _ _)

theorem length (h : Nearest key size offered kept) : kept.length = min size offered.card := by
  rw [← List.length_map (f := key), h, List.length_take, Finset.length_sort]

theorem mem_offered (h : Nearest key size offered kept) {a : α} (ha : a ∈ kept) : key a ∈ offered := by
  have hmem : key a ∈ kept.map key := List.mem_map_of_mem ha
  rw [h] at hmem
  exact (Finset.mem_sort _).mp (List.mem_of_mem_take hmem)

/-- What was offered and is not kept is greater than all that is. -/
theorem lt_of_not_mem (h : Nearest key size offered kept) {k : κ} (hk : k ∈ offered)
    (hout : k ∉ kept.map key) {a : α} (ha : a ∈ kept) : key a < k := by
  have hsplit := List.take_append_drop size (offered.sort (· ≤ ·))
  have hsort : (offered.sort (· ≤ ·)).Pairwise (· < ·) := offered.sortedLT_sort.pairwise
  have hmem : k ∈ offered.sort (· ≤ ·) := (Finset.mem_sort _).mpr hk
  rw [← hsplit, ← h] at hsort hmem
  exact (List.pairwise_append.mp hsort).2.2 _ (List.mem_map_of_mem ha) _
    ((List.mem_append.mp hmem).resolve_left hout)

/-- Nothing is let go as long as there is room. -/
theorem size_of_not_mem (h : Nearest key size offered kept) {k : κ} (hk : k ∈ offered)
    (hout : k ∉ kept.map key) : kept.length = size := by
  rw [h.length]
  apply min_eq_left
  by_contra hless
  apply hout
  rw [h, List.take_of_length_le (by rw [Finset.length_sort]; omega)]
  exact (Finset.mem_sort _).mpr hk

theorem offer (h : Nearest key size offered kept) {item : Option α → α} {k : κ}
    (hitem : ItemFor key item k) : Nearest key size (insert k offered) (offer key size item k kept) := by
  have hroom : kept.length ≤ size := h.length ▸ min_le_left _ _
  rcases @offer_spec α κ _ key size item k kept h.sorted hroom with
    ⟨front, rest, b, hkept, hkey, heq⟩ | ⟨front, rest, hkept, hfront, hrest, heq⟩
  · have hmem : k ∈ offered := by
      rw [← hkey]
      exact h.mem_offered (hkept ▸ List.mem_append_right _ List.mem_cons_self)
    rw [Nearest, Finset.insert_eq_of_mem hmem, heq, ← h, hkept, List.map_append, List.map_append,
      List.map_cons, List.map_cons, hitem.2 b hkey, hkey]
  · have hout : k ∉ kept.map key := by
      intro hmem
      obtain ⟨a, ha, rfl⟩ := List.mem_map.mp hmem
      rcases List.mem_append.mp (hkept ▸ ha) with hl | hr
      · exact absurd (hfront a hl) (lt_irrefl _)
      · exact absurd (hrest a hr) (lt_irrefl _)
    have hkeys : (Machine.offer key size item k kept).map key = (place id k (kept.map key)).take size := by
      rw [heq, List.map_take, List.map_append, List.map_cons, hitem.1, hkept, List.map_append, place_append]
      · exact List.forall_mem_map.mpr hfront
      · exact List.forall_mem_map.mpr hrest
    by_cases hmem : k ∈ offered
    · have hfull : kept.length = size := h.size_of_not_mem hmem hout
      have hall : ∀ a ∈ kept.map key, a < k := List.forall_mem_map.mpr fun a ha => h.lt_of_not_mem hmem hout ha
      have hlast : place id k (kept.map key) = kept.map key ++ [k] := by
        have hnone : ∀ a ∈ ([] : List κ), k < a := List.forall_mem_nil _
        have hplace := place_append hall hnone
        rwa [List.append_nil] at hplace
      rw [Nearest, hkeys, hlast, Finset.insert_eq_of_mem hmem, ← h,
        List.take_append_of_le_length (by rw [List.length_map, hfull]),
        List.take_of_length_le (by rw [List.length_map, hfull])]
    · calc (Machine.offer key size item k kept).map key
          = windowStep id size (kept.map key) k := hkeys
        _ = windowStep id size (offered.sort (· ≤ ·)) k := by rw [h, windowStep_take]
        _ = ((insert k offered).sort (· ≤ ·)).take size := by rw [windowStep, place_sort hmem]

variable {β : Type} {k : β → κ} {item : β → Option α → α}

/-- What a scan keeps: the nearest of all that it has seen. -/
theorem foldl (h : Nearest key size offered kept) (hitem : ∀ a, ItemFor key (item a) (k a)) (items : List β) :
    Nearest key size ((items.map k).toFinset ∪ offered)
      (items.foldl (fun kept a => Machine.offer key size (item a) (k a) kept) kept) := by
  induction items generalizing offered kept with
  | nil => rwa [List.map_nil, List.toFinset_nil, Finset.empty_union]
  | cons a items ih =>
      have hunion : ((a :: items).map k).toFinset ∪ offered = (items.map k).toFinset ∪ insert (k a) offered := by
        rw [List.map_cons, List.toFinset_cons, Finset.insert_union, Finset.union_insert]
      rw [hunion, List.foldl_cons]
      exact ih (h.offer (hitem a))

/-- What holds of all that is kept and of all that comes holds of all that is kept in the end. -/
theorem forall_foldl (h : Nearest key size offered kept) (hitem : ∀ a, ItemFor key (item a) (k a)) {P : α → Prop}
    (hkept : ∀ a ∈ kept, P a) {items : List β} (hsome : ∀ a ∈ items, ∀ b, P b → P (item a (some b)))
    (hnone : ∀ a ∈ items, P (item a none)) :
    ∀ x ∈ items.foldl (fun kept a => Machine.offer key size (item a) (k a) kept) kept, P x := by
  induction items generalizing offered kept with
  | nil => exact hkept
  | cons a items ih =>
      obtain ⟨hsome', hsomes⟩ := List.forall_mem_cons.mp hsome
      obtain ⟨hnone', hnones⟩ := List.forall_mem_cons.mp hnone
      have hroom : kept.length ≤ size := h.length ▸ min_le_left _ _
      have hoffer := @forall_offer α κ _ key size (item a) (k a) kept h.sorted hroom P hkept
        (fun b hb _ => hsome' b (hkept b hb)) hnone'
      exact ih (h.offer (hitem a)) hoffer hsomes hnones

end Nearest

end Machine
