import Mathlib.Data.Nat.Bitwise
import Mathlib.Data.Nat.Factorization.Basic
import Mathlib.Tactic.Common

/-!
# Dyadic blocks and the XOR distance

The numbers below a power of two, halved over and over: the block of a given depth around a number are
those with the same leading bits. By the XOR distance everything in a block is closer to everything else
in it than to what is outside.
-/

namespace Dyadic

/-- The numbers from `lo` up to `hi` are those with the same leading `depth` bits out of `width`. -/
def Block (width depth lo hi : Nat) : Prop :=
  depth ≤ width ∧ 2 ^ (width - depth) ∣ lo ∧ hi = lo + 2 ^ (width - depth)

/-! ## The XOR distance -/

theorem xor_lt_two_pow_iff {x y n : Nat} : x ^^^ y < 2 ^ n ↔ x / 2 ^ n = y / 2 ^ n := by
  have hpos : 0 < 2 ^ n := Nat.two_pow_pos n
  rw [← Nat.div_eq_zero_iff_lt hpos, Nat.xor_div_two_pow, Nat.xor_eq_zero_iff]

/-- Of what shares its leading bits with the target and what does not, the first is the closer. -/
theorem xor_lt_xor {x y target n : Nat} (hx : x / 2 ^ n = target / 2 ^ n)
    (hy : y / 2 ^ n ≠ target / 2 ^ n) : x ^^^ target < y ^^^ target := by
  have hnear : x ^^^ target < 2 ^ n := xor_lt_two_pow_iff.mpr hx
  have hfar : 2 ^ n ≤ y ^^^ target := by
    by_contra hlt
    exact hy (xor_lt_two_pow_iff.mp (by omega))
  omega

theorem xor_left_injective (target : Nat) : Function.Injective fun x => x ^^^ target := by
  intro x y heq
  simpa using congrArg (· ^^^ target) heq

/-! ## Blocks -/

namespace Block

variable {width depth lo hi x y target : Nat}

theorem lo_lt_hi (hblock : Block width depth lo hi) : lo < hi := by
  obtain ⟨-, -, rfl⟩ := hblock
  have hpos : 0 < 2 ^ (width - depth) := Nat.two_pow_pos _
  omega

theorem mem_iff (hblock : Block width depth lo hi) :
    lo ≤ x ∧ x < hi ↔ x / 2 ^ (width - depth) = lo / 2 ^ (width - depth) := by
  obtain ⟨-, ⟨k, rfl⟩, rfl⟩ := hblock
  have hpos : 0 < 2 ^ (width - depth) := Nat.two_pow_pos _
  rw [Nat.mul_div_cancel_left k hpos, Nat.div_eq_iff hpos, Nat.mul_comm k]
  omega

/-- Two members of a block share the bits that the block fixes. -/
theorem div_eq (hblock : Block width depth lo hi) (hx : lo ≤ x ∧ x < hi) (hy : lo ≤ y ∧ y < hi) :
    x / 2 ^ (width - depth) = y / 2 ^ (width - depth) :=
  (hblock.mem_iff.mp hx).trans (hblock.mem_iff.mp hy).symm

/-- **The members of a block are closer to each other than to anything else.** -/
theorem closer (hblock : Block width depth lo hi) (htarget : lo ≤ target ∧ target < hi)
    (hx : lo ≤ x ∧ x < hi) (hy : ¬(lo ≤ y ∧ y < hi)) : x ^^^ target < y ^^^ target := by
  apply xor_lt_xor (hblock.div_eq hx htarget)
  intro heq
  exact hy (hblock.mem_iff.mpr (heq.trans (hblock.mem_iff.mp htarget)))

/-- A block tells its depth. -/
theorem depth_unique {depth' : Nat} (hblock : Block width depth lo hi) (hblock' : Block width depth' lo hi) :
    depth = depth' := by
  obtain ⟨hle, -, rfl⟩ := hblock
  obtain ⟨hle', -, hsame⟩ := hblock'
  have hpow : 2 ^ (width - depth) = 2 ^ (width - depth') := Nat.add_left_cancel hsame
  have hexp : width - depth = width - depth' := Nat.pow_right_injective (Nat.le_refl 2) hpow
  omega

theorem whole (width : Nat) : Block width 0 0 (2 ^ width) := by
  refine ⟨Nat.zero_le width, Nat.dvd_zero _, ?_⟩
  rw [Nat.sub_zero, Nat.zero_add]

theorem lower (hblock : Block width depth lo hi) (hdepth : depth < width) :
    Block width (depth + 1) lo (lo + 2 ^ (width - (depth + 1))) := by
  obtain ⟨-, hdvd, -⟩ := hblock
  exact ⟨hdepth, (Nat.pow_dvd_pow 2 (by omega)).trans hdvd, rfl⟩

theorem upper (hblock : Block width depth lo hi) (hdepth : depth < width) :
    Block width (depth + 1) (lo + 2 ^ (width - (depth + 1))) hi := by
  obtain ⟨-, hdvd, rfl⟩ := hblock
  have htwice : 2 ^ (width - depth) = 2 ^ (width - (depth + 1)) + 2 ^ (width - (depth + 1)) := by
    rw [← Nat.two_mul, ← Nat.pow_succ']
    congr 1
    omega
  refine ⟨hdepth, Nat.dvd_add ((Nat.pow_dvd_pow 2 (by omega)).trans hdvd) (Nat.dvd_refl _), ?_⟩
  omega

/-- Of the two ends of a block exactly one is a boundary of the next coarser blocks, so the finer of the
two tells the depth. -/
theorem not_dvd_both (hblock : Block width depth lo hi) :
    ¬(2 ^ (width - depth + 1) ∣ lo ∧ 2 ^ (width - depth + 1) ∣ hi) := by
  rintro ⟨hlo, hhi⟩
  obtain ⟨-, -, rfl⟩ := hblock
  have hdvd : 2 ^ (width - depth + 1) ∣ 2 ^ (width - depth) := (Nat.dvd_add_right hlo).mp hhi
  have hle : 2 ^ (width - depth + 1) ≤ 2 ^ (width - depth) := Nat.le_of_dvd (Nat.two_pow_pos _) hdvd
  rw [Nat.pow_succ] at hle
  have hpos : 0 < 2 ^ (width - depth) := Nat.two_pow_pos _
  omega

theorem dvd_lo (hblock : Block width depth lo hi) : 2 ^ (width - depth) ∣ lo := hblock.2.1

theorem dvd_hi (hblock : Block width depth lo hi) : 2 ^ (width - depth) ∣ hi := by
  obtain ⟨-, hdvd, rfl⟩ := hblock
  exact Nat.dvd_add hdvd (Nat.dvd_refl _)

/-- A block that holds enough different members can be halved. -/
theorem depth_lt_of_card (hblock : Block width depth lo hi) {members : List Nat} (hnodup : members.Nodup)
    (hmembers : ∀ x ∈ members, lo ≤ x ∧ x < hi) (hmany : 1 < members.length) : depth < width := by
  by_contra hdeep
  obtain ⟨hle, -, rfl⟩ := hblock
  have hdepth : width - depth = 0 := by omega
  rw [hdepth] at hmembers
  have hsub : members ⊆ [lo] := by
    intro x hx
    have hrange : lo ≤ x ∧ x < lo + 2 ^ 0 := hmembers x hx
    rw [List.mem_singleton]
    omega
  have hlength : members.length ≤ 1 := (hnodup.subperm hsub).length_le
  omega

end Block

end Dyadic
