import CLibp2p.Machine.Ring
import CLibp2p.Proof.DhtReachable

/-!
# The blacklist

A ring of slots that addresses are copied into. An IPv4 address leaves what an IPv6 address has behind its
first bytes where it is, so a slot may start with the address that was banned and still be another one to
its end.
-/

namespace CLibp2p.Routing.Dht

open Duplex Machine

/-! ### Addresses in memory -/

theorem netShort_inj {p q : UInt16} (h : netShort p = netShort q) : p = q := by
  have hhigh := congrArg UInt8.toNat (List.cons.inj h).1
  have hlow := congrArg UInt8.toNat (List.cons.inj (List.cons.inj h).2).1
  simp only [UInt16.toNat_toUInt8, UInt16.toNat_shiftRight] at hhigh hlow
  apply UInt16.toNat_inj.mp
  have hp := p.toNat_lt
  have hq := q.toNat_lt
  simp [Nat.shiftRight_eq_div_pow] at hhigh hlow
  omega

theorem hostLong_inj {m n : UInt32} (h : hostLong m = hostLong n) : m = n := by
  obtain ⟨h0, h⟩ := List.cons.inj h
  obtain ⟨h1, h⟩ := List.cons.inj h
  obtain ⟨h2, h⟩ := List.cons.inj h
  obtain ⟨h3, -⟩ := List.cons.inj h
  have hm := m.toNat_lt
  have hn := n.toNat_lt
  apply UInt32.toNat_inj.mp
  have h0' := congrArg UInt8.toNat h0
  have h1' := congrArg UInt8.toNat h1
  have h2' := congrArg UInt8.toNat h2
  have h3' := congrArg UInt8.toNat h3
  simp [Nat.shiftRight_eq_div_pow] at h0' h1' h2' h3'
  omega

namespace SockAddr

variable {sa sb : SockAddr} {slot : Bytes}

theorem length_bytes (sa : SockAddr) : sa.bytes.length = sa.len := by
  cases sa with
  | inet addr port => simp [bytes, len, hostShort, netShort]
  | inet6 addr port flowinfo scopeId => simp [bytes, len, hostShort, netShort, hostLong]

theorem take_storage (sa : SockAddr) : sa.storage.take sa.len = sa.bytes := by
  rw [storage, ← length_bytes, List.take_left]

theorem bytes_inj (h : sa.bytes = sb.bytes) : sa = sb := by
  cases sa with
  | inet addr port =>
      cases sb with
      | inet addr' port' =>
          simp only [bytes, List.append_assoc] at h
          obtain ⟨-, h⟩ := List.append_inj h rfl
          obtain ⟨hport, h⟩ := List.append_inj h rfl
          obtain ⟨haddr, -⟩ := List.append_inj h (by rw [Vector.length_toList, Vector.length_toList])
          rw [netShort_inj hport, Vector.toList_inj.mp haddr]
      | inet6 addr' port' flowinfo scopeId => exact absurd (List.cons.inj h).1 (by decide)
  | inet6 addr port flowinfo scopeId =>
      cases sb with
      | inet addr' port' => exact absurd (List.cons.inj h).1 (by decide)
      | inet6 addr' port' flowinfo' scopeId' =>
          simp only [bytes, List.append_assoc] at h
          obtain ⟨-, h⟩ := List.append_inj h rfl
          obtain ⟨hport, h⟩ := List.append_inj h rfl
          obtain ⟨hflow, h⟩ := List.append_inj h rfl
          obtain ⟨haddr, hscope⟩ := List.append_inj h (by rw [Vector.length_toList, Vector.length_toList])
          rw [netShort_inj hport, Vector.toList_inj.mp haddr, hostLong_inj hflow, hostLong_inj hscope]

/-- The family comes first, so no address starts as another does. -/
theorem eq_of_starts (ha : slot.take sa.len = sa.bytes) (hb : slot.take sb.len = sb.bytes) : sa = sb := by
  have hsame : sa.len = sb.len := by
    rw [← List.take_append_drop sa.len slot, ha] at hb
    cases sa with
    | inet addr port =>
        cases sb with
        | inet addr' port' => rfl
        | inet6 addr' port' flowinfo scopeId => exact absurd (List.cons.inj hb).1 (by decide)
    | inet6 addr port flowinfo scopeId =>
        cases sb with
        | inet addr' port' => exact absurd (List.cons.inj hb).1 (by decide)
        | inet6 addr' port' flowinfo' scopeId' => rfl
  apply bytes_inj
  rw [← ha, ← hb, hsame]

theorem not_starts_blank (sa : SockAddr) : (List.replicate storageSize (0 : UInt8)).take sa.len ≠ sa.bytes := by
  cases sa with
  | inet addr port => exact fun h => absurd (List.cons.inj h).1 (by decide)
  | inet6 addr port flowinfo scopeId => exact fun h => absurd (List.cons.inj h).1 (by decide)

end SockAddr

/-! ### Slots -/

/-- The slot of this address, if it has one, where these were blacklisted so far. -/
structure SlotOk (slot : Bytes) (cell : Option SockAddr) (xs : List SockAddr) : Prop where
  length : slot.length = storageSize
  starts : ∀ sa, cell = some sa → slot.take sa.len = sa.bytes
  blank : cell = none → slot = List.replicate storageSize 0
  behind6 : slot.drop 28 = List.replicate 100 0
  behind : (∀ sa ∈ xs, sa.family = .inet) → slot.drop 16 = List.replicate 112 0

section Slots

variable {slot : Bytes} {cell : Option SockAddr} {xs : List SockAddr} {sa : SockAddr}

theorem slotOk_blank : SlotOk (List.replicate storageSize 0) none [] := by
  refine ⟨List.length_replicate, fun sa hnone => ?_, fun _ => rfl, List.drop_replicate, fun _ => List.drop_replicate⟩
  cases hnone

theorem SlotOk.later (h : SlotOk slot cell xs) (sb : SockAddr) : SlotOk slot cell (xs ++ [sb]) :=
  ⟨h.length, h.starts, h.blank, h.behind6, fun hall => h.behind fun sa hsa => hall sa (List.mem_append_left _ hsa)⟩

end Slots

/-! ### The ring of slots -/

section Blacklist

variable {o o' : Outbound} {ban : Option SockAddr} {xs : List SockAddr}

/-- These were blacklisted so far, in this order. -/
def Outbound.Blamed (o : Outbound) (xs : List SockAddr) : Prop :=
  ∃ cells : Vector (Option SockAddr) dhtMaxBlacklisted, Ring cells o.nextBlacklisted xs ∧
    ∀ (i : Nat) (slot : Bytes), o.blacklist[i]? = some slot → ∃ cell, cells[i]? = some cell ∧ SlotOk slot cell xs

theorem blamed_of_sends (h : Sends o o') (hblamed : o.Blamed xs) : o'.Blamed xs := by
  obtain ⟨more, random, hmore, rfl⟩ := h
  exact hblamed

theorem blamed_blank (hblank : o.blacklist = .blank) (hnext : o.nextBlacklisted = 0) : o.Blamed [] := by
  refine ⟨Vector.replicate dhtMaxBlacklisted none, hnext ▸ Ring.empty dhtMaxBlacklisted, fun i slot hslot => ?_⟩
  rw [hblank, Blacklist.blank, Vector.getElem?_replicate] at hslot
  split at hslot
  · rename_i hi
    obtain rfl := Option.some.inj hslot
    exact ⟨none, by rw [Vector.getElem?_replicate, if_pos hi], slotOk_blank⟩
  · cases hslot

theorem nodeBlacklisted_iff (hblamed : o.Blamed xs) (sa : SockAddr) :
    o.nodeBlacklisted sa = true ↔ sa ∈ xs.drop (xs.length - 10) := by
  obtain ⟨cells, hring, hslots⟩ := hblamed
  rw [Outbound.nodeBlacklisted, dhtBlacklisted, Bool.false_or, List.any_eq_true]
  refine Iff.trans ?_ (hring.mem_iff (x := sa))
  simp only [beq_iff_eq, sa.take_storage]
  constructor
  · rintro ⟨slot, hmem, hstarts⟩
    obtain ⟨i, hget⟩ := List.mem_iff_getElem?.mp hmem
    rw [Vector.getElem?_toList] at hget
    obtain ⟨cell, hcell, hok⟩ := hslots i slot hget
    cases cell with
    | none =>
        rw [hok.blank rfl] at hstarts
        exact absurd hstarts sa.not_starts_blank
    | some sb =>
        rw [SockAddr.eq_of_starts hstarts (hok.starts sb rfl)]
        exact List.mem_iff_getElem?.mpr ⟨i, (Vector.getElem?_toList ..).trans hcell⟩
  · intro hmem
    obtain ⟨i, hget⟩ := List.mem_iff_getElem?.mp hmem
    rw [Vector.getElem?_toList] at hget
    obtain ⟨hi, -⟩ := Vector.getElem?_eq_some_iff.mp hget
    obtain ⟨cell, hcell, hok⟩ := hslots i o.blacklist[i] (Vector.getElem?_eq_getElem hi)
    obtain rfl := Option.some.inj (hcell.symm.trans hget)
    exact ⟨o.blacklist[i], Vector.mem_toList_iff.mpr (Vector.getElem_mem hi), hok.starts sa rfl⟩

namespace Globals

end Globals

end Blacklist

end CLibp2p.Routing.Dht
