import CLibp2p.Conn.Tls
import CLibp2p.Proof.CanHandle

/-!
# Which protocol the server selects

The entries of the list are a recursion on its bytes. The loop goes through them with a pointer and an
unsigned count, which together stay at the end of the list.
-/

namespace CLibp2p.Tls

open Duplex CanHandle

/-- The entries before the first one that runs past the end, each with the offset it starts at. -/
def entries (offset : Nat) : (list : Bytes) → List (Nat × Bytes)
  | [] => []
  | protoLen :: list =>
      if protoLen.toNat ≤ list.length then
        (offset + 1, list.take protoLen.toNat) ::
          entries (offset + 1 + protoLen.toNat) (list.drop protoLen.toNat)
      else []
termination_by list => list.length
decreasing_by
  rw [List.length_drop, List.length_cons]
  exact Nat.lt_succ_of_le (Nat.sub_le _ _)

/-- An entry is what lies at its offset, behind its length. -/
theorem entries_spec {offset k : Nat} {list entry : Bytes} (hmem : (k, entry) ∈ entries offset list) :
    offset + 1 ≤ k ∧ k + entry.length ≤ offset + list.length ∧
      (list.drop (k - offset)).take entry.length = entry := by
  fun_induction entries offset list with
  | case1 offset => cases hmem
  | case2 offset protoLen list hfits ih =>
      rcases List.mem_cons.mp hmem with heq | hmem
      · cases heq
        have hlength : (list.take protoLen.toNat).length = protoLen.toNat := List.length_take_of_le hfits
        refine ⟨Nat.le_refl _, ?_, ?_⟩
        · rw [hlength, List.length_cons]
          omega
        · rw [hlength, Nat.add_sub_cancel_left, List.drop_succ_cons, List.drop_zero]
      · obtain ⟨hge, hle, hbytes⟩ := ih hmem
        rw [List.length_drop] at hle
        refine ⟨by omega, by rw [List.length_cons]; omega, ?_⟩
        have hoffset : k - offset = (k - (offset + 1 + protoLen.toNat)) + protoLen.toNat + 1 := by omega
        rwa [hoffset, List.drop_succ_cons, Nat.add_comm, ← List.drop_drop]
  | case3 offset protoLen list hpast => cases hmem

section Memory

variable (list : Memory) (p n : Nat)

theorem bytesAt_entry :
    bytesAt (fun i => list (p + i)) (n + 1) = list p :: bytesAt (fun i => list (p + 1 + i)) n := by
  have hshift : (fun i => list (p + (i + 1))) = fun i => list (p + 1 + i) := by
    funext i
    rw [Nat.add_right_comm, Nat.add_assoc]
  rw [bytesAt_succ, Nat.add_zero, hshift]

theorem entries_of_fits (hfits : (list p).toNat ≤ n) :
    entries p (bytesAt (fun i => list (p + i)) (n + 1)) =
      (p + 1, bytesAt (fun i => list (p + 1 + i)) (list p).toNat) ::
        entries (p + 1 + (list p).toNat)
          (bytesAt (fun i => list (p + 1 + (list p).toNat + i)) (n - (list p).toNat)) := by
  rw [bytesAt_entry, entries, length_bytesAt, if_pos hfits, take_bytesAt _ hfits, drop_bytesAt]
  simp only [Nat.add_assoc]

theorem entries_of_past (hpast : n < (list p).toNat) :
    entries p (bytesAt (fun i => list (p + i)) (n + 1)) = [] := by
  rw [bytesAt_entry, entries, length_bytesAt, if_neg (Nat.not_le.mpr hpast)]

end Memory

theorem lt_of_mem_candidate {p n offset : Nat} {protoLen : UInt8} (hfits : protoLen.toNat < n)
    (hmem : offset ∈ p :: (List.range protoLen.toNat).map (p + 1 + ·)) : offset < p + n := by
  rcases List.mem_cons.mp hmem with rfl | hmem
  · omega
  · obtain ⟨i, hi, rfl⟩ := List.mem_map.mp hmem
    have hless := List.mem_range.mp hi
    omega

theorem alpnLoop_spec (list : Memory) (p : Nat) (remaining : UInt32) :
    (∀ offset ∈ (alpnLoop list p remaining).reads, offset < p + remaining.toNat) ∧
      (alpnLoop list p remaining).selected =
        ((entries p (bytesAt (fun i => list (p + i)) remaining.toNat)).find? fun entry =>
          decide (entry.2 = tlsAlpn)).map fun entry => (entry.1, UInt8.ofNat entry.2.length) := by
  fun_induction alpnLoop list p remaining with
  | case1 p =>
      refine ⟨fun offset hmem => absurd hmem List.not_mem_nil, ?_⟩
      rw [UInt32.toNat_zero, bytesAt, List.range_zero, List.map_nil, entries]
      rfl
  | case2 p remaining hpos protoLen hpast =>
      obtain ⟨n, hn⟩ : ∃ n, remaining.toNat = n + 1 :=
        Nat.exists_eq_succ_of_ne_zero fun hzero => hpos (UInt32.toNat_inj.mp hzero)
      have hlong : n < protoLen.toNat := by
        have hle := (past_iff hpos protoLen).mp hpast
        omega
      rw [hn, entries_of_past list p n hlong]
      refine ⟨fun offset hmem => ?_, rfl⟩
      rw [List.mem_singleton.mp hmem]
      omega
  | case3 p remaining hpos protoLen hpast candidate hfound =>
      have hfits := Nat.not_le.mp ((past_iff hpos protoLen).not.mp hpast)
      obtain ⟨n, hn⟩ : ∃ n, remaining.toNat = n + 1 := ⟨remaining.toNat - 1, by omega⟩
      have hle : protoLen.toNat ≤ n := by omega
      constructor
      · intro offset hmem
        exact lt_of_mem_candidate hfits hmem
      · have hbytes : bytesAt (fun i => list (p + 1 + i)) protoLen.toNat = tlsAlpn := by
          rw [← hfound.2, List.map_map]
          rfl
        rw [hn, entries_of_fits list p n hle, List.find?_cons_of_pos (by simpa using hbytes),
          Option.map_some, length_bytesAt, UInt8.ofNat_toNat]
  | case4 p remaining hpos protoLen hpast candidate hother rest ih =>
      have hfits := Nat.not_le.mp ((past_iff hpos protoLen).not.mp hpast)
      obtain ⟨n, hn⟩ : ∃ n, remaining.toNat = n + 1 := ⟨remaining.toNat - 1, by omega⟩
      have hle : protoLen.toNat ≤ n := by omega
      obtain ⟨hreads, hselected⟩ := ih
      rw [toNat_remaining hfits] at hreads hselected
      constructor
      · intro offset hmem
        rcases List.mem_append.mp hmem with hmem | hmem
        · exact lt_of_mem_candidate hfits hmem
        · have hless := hreads offset hmem
          omega
      · have hbytes : bytesAt (fun i => list (p + 1 + i)) protoLen.toNat ≠ tlsAlpn := by
          intro hsame
          apply hother
          constructor
          · rw [← hsame, length_bytesAt]
          · rw [← hsame, List.map_map]
            rfl
        have hrest : remaining.toNat - 1 - protoLen.toNat = n - protoLen.toNat := by omega
        rw [hselected, hrest, hn, entries_of_fits list p n hle,
          List.find?_cons_of_neg (by simpa using hbytes)]

/-- **The protocol that is selected.** The callback reads within the list only. It selects the first of the
entries before one that runs past the end that is the protocol, if there is one. -/
theorem alpnSelectCb_spec (list : Memory) (inlen : UInt32) :
    (∀ offset ∈ (alpnSelectCb list inlen).reads, offset < inlen.toNat) ∧
      ((alpnSelectCb list inlen).selected ≠ none ↔
        ∃ offset, (offset, tlsAlpn) ∈ entries 0 (bytesAt list inlen.toNat)) ∧
      ∀ offset outlen, (alpnSelectCb list inlen).selected = some (offset, outlen) →
        (offset, tlsAlpn) ∈ entries 0 (bytesAt list inlen.toNat) ∧ outlen.toNat = tlsAlpn.length ∧
          bytesAt (fun i => list (offset + i)) outlen.toNat = tlsAlpn := by
  obtain ⟨hreads, hselected⟩ := alpnLoop_spec list 0 inlen
  rw [← alpnSelectCb] at hreads hselected
  simp only [Nat.zero_add] at hreads hselected
  refine ⟨hreads, ?_, ?_⟩
  · rw [hselected, Ne, Option.map_eq_none_iff, List.find?_eq_none]
    push Not
    constructor
    · rintro ⟨⟨offset, entry⟩, hmem, hsame⟩
      rw [decide_eq_true_eq] at hsame
      exact ⟨offset, hsame ▸ hmem⟩
    · rintro ⟨offset, hmem⟩
      exact ⟨_, hmem, decide_eq_true rfl⟩
  · intro offset outlen hsome
    rw [hselected] at hsome
    obtain ⟨⟨k, entry⟩, hfound, heq⟩ := Option.map_eq_some_iff.mp hsome
    cases heq
    have hsame : entry = tlsAlpn := by simpa using List.find?_some hfound
    subst hsame
    have hmem := List.mem_of_find?_eq_some hfound
    obtain ⟨-, hle, hbytes⟩ := entries_spec hmem
    have hlength : (UInt8.ofNat tlsAlpn.length).toNat = tlsAlpn.length := by decide +kernel
    refine ⟨hmem, hlength, ?_⟩
    rw [Nat.zero_add, length_bytesAt] at hle
    rw [Nat.sub_zero, drop_bytesAt, take_bytesAt _ (by omega)] at hbytes
    rw [hlength]
    exact hbytes

end CLibp2p.Tls
