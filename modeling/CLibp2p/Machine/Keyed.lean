import Mathlib.Data.Finset.Card
import Mathlib.Data.List.Nodup
import Mathlib.Data.Set.Card

/-!
# Lists with different keys

A list of items no two of which have the same key stands for a finite map. What the operations on such a
list do to the map does not depend on the order that they leave the items in.
-/

namespace Machine

variable {α κ : Type} [DecidableEq κ] {key : α → κ} {l l' : List α} {k : κ}

def lookup (key : α → κ) (l : List α) (k : κ) : Option α := l.find? fun a => decide (key a = k)

abbrev Keyed (key : α → κ) (l : List α) : Prop := (l.map key).Nodup

theorem lookup_eq_none_iff : lookup key l k = none ↔ k ∉ l.map key := by
  rw [lookup, List.find?_eq_none, List.mem_map, not_exists]
  apply forall_congr'
  intro a
  rw [not_and, decide_eq_true_iff]

theorem lookup_eq_some_iff (hkeyed : Keyed key l) {a : α} : lookup key l k = some a ↔ a ∈ l ∧ key a = k := by
  constructor
  · intro hfound
    have hkey := List.find?_some hfound
    exact ⟨List.mem_of_find?_eq_some hfound, of_decide_eq_true hkey⟩
  · rintro ⟨ha, rfl⟩
    cases hfound : lookup key l (key a) with
    | none => exact absurd (List.mem_map_of_mem ha) (lookup_eq_none_iff.mp hfound)
    | some b =>
        have hb : b ∈ l := List.mem_of_find?_eq_some hfound
        have hkey := List.find?_some hfound
        rw [List.inj_on_of_nodup_map hkeyed hb ha (of_decide_eq_true hkey)]

theorem lookup_perm (hkeyed : Keyed key l) (hperm : l.Perm l') : lookup key l' k = lookup key l k := by
  have hkeyed' : Keyed key l' := (hperm.map key).nodup_iff.mp hkeyed
  ext a
  rw [lookup_eq_some_iff hkeyed, lookup_eq_some_iff hkeyed', hperm.mem_iff]

theorem lookup_filterMap (hkeyed : Keyed key l) {f : α → Option α} (hf : ∀ a b, f a = some b → key b = key a) :
    lookup key (l.filterMap f) k = (lookup key l k).bind f := by
  induction l with
  | nil => rfl
  | cons a l ih =>
      obtain ⟨hnew, hkeyed'⟩ := List.nodup_cons.mp hkeyed
      have hrest : ∀ k, k ∉ l.map key → lookup key (l.filterMap f) k = none := by
        intro k hk
        rw [lookup_eq_none_iff]
        intro hmem
        obtain ⟨b, hb, rfl⟩ := List.mem_map.mp hmem
        obtain ⟨c, hc, hfc⟩ := List.mem_filterMap.mp hb
        exact hk (List.mem_map.mpr ⟨c, hc, (hf c b hfc).symm⟩)
      by_cases hkey : key a = k
      · have hhead : lookup key (a :: l) k = some a := List.find?_cons_of_pos (decide_eq_true hkey)
        rw [hhead, Option.bind_some]
        cases hfa : f a with
        | none => rw [List.filterMap_cons_none hfa, hrest k (hkey ▸ hnew)]
        | some b =>
            rw [List.filterMap_cons_some hfa]
            exact List.find?_cons_of_pos (decide_eq_true ((hf a b hfa).trans hkey))
      · have htail : lookup key (a :: l) k = lookup key l k :=
          List.find?_cons_of_neg (by rwa [decide_eq_true_iff])
        rw [htail, ← ih hkeyed']
        cases hfa : f a with
        | none => rw [List.filterMap_cons_none hfa]
        | some b =>
            rw [List.filterMap_cons_some hfa]
            apply List.find?_cons_of_neg
            rwa [decide_eq_true_iff, hf a b hfa]

omit [DecidableEq κ] in
theorem keyed_filterMap (hkeyed : Keyed key l) {f : α → Option α} (hf : ∀ a b, f a = some b → key b = key a) :
    Keyed key (l.filterMap f) := by
  refine List.Nodup.sublist ?_ hkeyed
  clear hkeyed
  induction l with
  | nil => exact List.Sublist.refl _
  | cons a l hrest =>
      cases hfa : f a with
      | none =>
          rw [List.filterMap_cons_none hfa]
          exact hrest.cons (key a)
      | some b =>
          rw [List.filterMap_cons_some hfa, List.map_cons, List.map_cons, hf a b hfa]
          exact hrest.cons_cons (key a)

theorem lookup_filter (hkeyed : Keyed key l) (p : α → Bool) :
    lookup key (l.filter p) k = (lookup key l k).filter p := by
  have hguard : ∀ a b, Option.guard p a = some b → key b = key a := by
    intro a b hab
    rw [(Option.guard_eq_some_iff.mp hab).1]
  rw [← List.filterMap_eq_filter, lookup_filterMap hkeyed hguard]
  exact Option.bind_guard _ p

theorem lookup_cons (a : α) : lookup key (a :: l) k = if k = key a then some a else lookup key l k := by
  split
  · rename_i heq
    exact List.find?_cons_of_pos (decide_eq_true heq.symm)
  · rename_i hne
    apply List.find?_cons_of_neg
    rw [decide_eq_true_iff]
    exact Ne.symm hne

theorem lookup_concat {a : α} (hnew : key a ∉ l.map key) :
    lookup key (l ++ [a]) k = if k = key a then some a else lookup key l k := by
  rw [lookup, List.find?_append]
  by_cases heq : k = key a
  · rw [if_pos heq]
    have hnone : l.find? (fun a => decide (key a = k)) = none := lookup_eq_none_iff.mpr (heq ▸ hnew)
    rw [hnone, Option.none_or]
    exact List.find?_cons_of_pos (decide_eq_true heq.symm)
  · rw [if_neg heq]
    have hnone : [a].find? (fun a => decide (key a = k)) = none :=
      List.find?_cons_of_neg (by rw [decide_eq_true_iff]; exact Ne.symm heq)
    rw [hnone, Option.or_none, lookup]

theorem lookup_set (hkeyed : Keyed key l) {i : Nat} {a b : α} (hget : l[i]? = some a) (hkey : key b = key a) :
    lookup key (l.set i b) k = if k = key a then some b else lookup key l k := by
  obtain ⟨hi, rfl⟩ := List.getElem?_eq_some_iff.mp hget
  have hset : (l.set i b).Perm (b :: l.eraseIdx i) := List.set_perm_cons_eraseIdx hi b
  have hold : l.Perm (l[i] :: l.eraseIdx i) := (List.getElem_cons_eraseIdx_perm hi).symm
  have hkeyed' : Keyed key (l.set i b) := by
    have hi' : i < (l.map key).length := by rwa [List.length_map]
    have hsame : key b = (l.map key)[i] := by rw [hkey, List.getElem_map]
    rwa [Keyed, List.map_set, hsame, List.set_getElem_self]
  rw [← lookup_perm hkeyed' hset, ← lookup_perm hkeyed hold, lookup_cons, lookup_cons, hkey]
  split
  · rfl
  · rfl

theorem ncard_keys (hkeyed : Keyed key l) : {k | lookup key l k ≠ none}.ncard = l.length := by
  have hset : {k | lookup key l k ≠ none} = ((l.map key).toFinset : Set κ) := by
    ext k
    rw [Set.mem_ofPred_eq, Finset.mem_coe, List.mem_toFinset, Ne, lookup_eq_none_iff, not_not]
  rw [hset, Set.ncard_coe_finset, List.toFinset_card_of_nodup hkeyed, List.length_map]

end Machine
