import CLibp2p.Routing.SearchKademlia

/-!
# The delay between two attempts

The loop doubles only what is at most half of the greatest delay, so nothing it computes leaves 32 bits,
and what it ends with is the exact power of two, capped.
-/

namespace CLibp2p.Routing

/-- `base_us` doubled once for each attempt, and at most `max_us`. -/
def cappedPower (attempt : Int32) (baseUs maxUs : UInt32) : Nat :=
  min (baseUs.toNat * 2 ^ attempt.toInt.toNat) maxUs.toNat

/-- Nothing that is doubled has more than half of the greatest delay. -/
theorem double_le_of_mem_doubled {maxUs : UInt32} {rounds : Nat} {delay x : UInt32}
    (hx : x ∈ (backoffLoop maxUs rounds delay).2) : x.toNat * 2 ≤ maxUs.toNat := by
  induction rounds generalizing delay with
  | zero => cases hx
  | succ rounds ih =>
      rw [backoffLoop] at hx
      split_ifs at hx with hless hhalf
      · cases hx
      · rcases List.mem_cons.mp hx with rfl | hrest
        · have hle : x.toNat ≤ maxUs.toNat / 2 := by
            simpa using UInt32.le_iff_toNat_le.mp (UInt32.not_lt.mp hhalf)
          omega
        · exact ih hrest
      · cases hx

/-- The loop keeps the capped value of what is still to come of the power. -/
theorem min_backoffLoop (maxUs : UInt32) (rounds : Nat) (delay : UInt32) :
    min (backoffLoop maxUs rounds delay).1.toNat maxUs.toNat =
      min (delay.toNat * 2 ^ rounds) maxUs.toNat := by
  induction rounds generalizing delay with
  | zero => rw [backoffLoop, pow_zero, Nat.mul_one]
  | succ rounds ih =>
      have hpos : 0 < 2 ^ rounds := Nat.two_pow_pos rounds
      rw [backoffLoop]
      split_ifs with hless hhalf
      · have hmore : maxUs.toNat < delay.toNat * 2 := by
          have hlt : maxUs.toNat / 2 < delay.toNat := by simpa using UInt32.lt_iff_toNat_lt.mp hhalf
          omega
        have hpower : maxUs.toNat ≤ delay.toNat * 2 ^ (rounds + 1) := by
          calc maxUs.toNat ≤ delay.toNat * 2 * 1 := by omega
            _ ≤ delay.toNat * 2 * 2 ^ rounds := Nat.mul_le_mul_left _ hpos
            _ = delay.toNat * 2 ^ (rounds + 1) := by rw [Nat.mul_assoc, ← pow_succ']
        rw [Nat.min_self, Nat.min_eq_right hpower]
      · have hle : delay.toNat ≤ maxUs.toNat / 2 := by
          simpa using UInt32.le_iff_toNat_le.mp (UInt32.not_lt.mp hhalf)
        have hdouble : (delay * 2).toNat = delay.toNat * 2 := by
          have hlt := maxUs.toNat_lt
          rw [UInt32.toNat_mul]
          exact Nat.mod_eq_of_lt (by simp; omega)
        dsimp only
        rw [ih, hdouble, Nat.mul_assoc, ← pow_succ']
      · have hge : maxUs.toNat ≤ delay.toNat := UInt32.le_iff_toNat_le.mp (UInt32.not_lt.mp hless)
        have hpower : maxUs.toNat ≤ delay.toNat * 2 ^ (rounds + 1) :=
          Nat.le_trans hge (Nat.le_mul_of_pos_right _ (Nat.two_pow_pos _))
        rw [Nat.min_eq_right hge, Nat.min_eq_right hpower]

theorem toInt_longOfUnsigned (x : UInt32) : (longOfUnsigned x).toInt = x.toNat := by
  have hlt := x.toNat_lt
  have hbits : (longOfUnsigned x).toInt = (x.toUInt64.toBitVec).toInt := rfl
  have hnat : x.toUInt64.toBitVec.toNat = x.toNat := rfl
  rw [hbits, BitVec.toInt_eq_toNat_of_lt (by omega), hnat]

/-- The jitter is taken in a `long`, where it is exact. -/
theorem toNat_jitter (delay : UInt32) {random : Int64} (hrandom : 0 ≤ random) :
    (longOfUnsigned (delay / 2) + random % longOfUnsigned (delay / 2 + 1)).toUInt64.toUInt32.toNat =
      delay.toNat / 2 + random.toInt.toNat % (delay.toNat / 2 + 1) := by
  have hlt := delay.toNat_lt
  have hhalf : (delay / 2).toNat = delay.toNat / 2 := by simp
  have hnext : (delay / 2 + 1).toNat = delay.toNat / 2 + 1 := by
    rw [UInt32.toNat_add, hhalf]
    exact Nat.mod_eq_of_lt (by simp; omega)
  obtain ⟨value, hvalue⟩ := Int.eq_ofNat_of_zero_le (Int64.le_iff_toInt_le.mp hrandom)
  have hrest : (random % longOfUnsigned (delay / 2 + 1)).toInt =
      (value % (delay.toNat / 2 + 1) : Nat) := by
    rw [Int64.toInt_mod, toInt_longOfUnsigned, hnext, hvalue]
    exact (Int.ofNat_tmod _ _).symm
  have hjitter : value % (delay.toNat / 2 + 1) < delay.toNat / 2 + 1 := Nat.mod_lt _ (Nat.succ_pos _)
  have hsum : (longOfUnsigned (delay / 2) + random % longOfUnsigned (delay / 2 + 1)).toInt =
      (delay.toNat / 2 + value % (delay.toNat / 2 + 1) : Nat) := by
    rw [Int64.toInt_add, toInt_longOfUnsigned, hrest, hhalf]
    apply Int.bmod_eq_of_le <;> omega
  have hnonneg : 0 ≤ longOfUnsigned (delay / 2) + random % longOfUnsigned (delay / 2 + 1) := by
    rw [Int64.le_iff_toInt_le, hsum]
    exact Int.natCast_nonneg _
  rw [UInt64.toNat_toUInt32, Int64.toNat_toUInt64_of_le hnonneg, Int64.toNatClampNeg, hsum, hvalue,
    Int.toNat_natCast, Int.toNat_natCast]
  exact Nat.mod_eq_of_lt (by omega)

/-- What the loop ends with is capped once more. -/
theorem toNat_capped (attempt : Int32) (baseUs maxUs : UInt32) :
    (if (backoffLoop maxUs attempt.toInt.toNat baseUs).1 > maxUs then maxUs
      else (backoffLoop maxUs attempt.toInt.toNat baseUs).1).toNat = cappedPower attempt baseUs maxUs := by
  rw [cappedPower, ← min_backoffLoop]
  split_ifs with hmore
  · exact (Nat.min_eq_right (Nat.le_of_lt (UInt32.lt_iff_toNat_lt.mp hmore))).symm
  · exact (Nat.min_eq_left (UInt32.le_iff_toNat_le.mp (UInt32.not_lt.mp hmore))).symm

theorem toNat_dhtBackoffDelayUs (attempt : Int32) (baseUs maxUs : UInt32) {random : Int64}
    (hrandom : 0 ≤ random) :
    (dhtBackoffDelayUs attempt baseUs maxUs random).toNat =
      if 1 < cappedPower attempt baseUs maxUs then
        cappedPower attempt baseUs maxUs / 2 +
          random.toInt.toNat % (cappedPower attempt baseUs maxUs / 2 + 1)
      else cappedPower attempt baseUs maxUs := by
  have hcapped := toNat_capped attempt baseUs maxUs
  rw [dhtBackoffDelayUs]
  generalize (if (backoffLoop maxUs attempt.toInt.toNat baseUs).1 > maxUs then maxUs
    else (backoffLoop maxUs attempt.toInt.toNat baseUs).1) = delay at hcapped ⊢
  rw [← hcapped]
  have hone : delay > 1 ↔ 1 < delay.toNat := UInt32.lt_iff_toNat_lt
  by_cases hmore : delay > 1
  · rw [if_pos hmore, if_pos (hone.mp hmore), toNat_jitter delay hrandom]
  · rw [if_neg hmore, if_neg (mt hone.mpr hmore)]

/-- **Backoff.** The delay lies between half of the capped power, rounded down, and the capped power, and
neither what is doubled on the way nor the modulus of the jitter leaves 32 bits. -/
theorem dhtBackoffDelayUs_spec (attempt : Int32) (baseUs maxUs : UInt32) {random : Int64}
    (hrandom : 0 ≤ random) :
    cappedPower attempt baseUs maxUs / 2 ≤ (dhtBackoffDelayUs attempt baseUs maxUs random).toNat ∧
      (dhtBackoffDelayUs attempt baseUs maxUs random).toNat ≤ cappedPower attempt baseUs maxUs ∧
      (∀ delay ∈ (backoffLoop maxUs attempt.toInt.toNat baseUs).2, delay.toNat * 2 < 2 ^ 32) ∧
      cappedPower attempt baseUs maxUs / 2 + 1 < 2 ^ 32 := by
  have hvalue := toNat_dhtBackoffDelayUs attempt baseUs maxUs hrandom
  refine ⟨?_, ?_, fun delay hdelay => ?_, ?_⟩
  · rw [hvalue]
    split_ifs
    · exact Nat.le_add_right _ _
    · exact Nat.div_le_self _ 2
  · rw [hvalue]
    have hjitter : random.toInt.toNat % (cappedPower attempt baseUs maxUs / 2 + 1) <
        cappedPower attempt baseUs maxUs / 2 + 1 := Nat.mod_lt _ (Nat.succ_pos _)
    split_ifs <;> omega
  · exact Nat.lt_of_le_of_lt (double_le_of_mem_doubled hdelay) maxUs.toNat_lt
  · have hcap : cappedPower attempt baseUs maxUs ≤ maxUs.toNat := Nat.min_le_right _ _
    have hmax := maxUs.toNat_lt
    omega

/-- The fifth wait of 1000 microseconds and more, of which 16000 are due. -/
theorem dhtBackoffDelayUs_spec_fifth :
    cappedPower 4 1000 100000 / 2 ≤ (dhtBackoffDelayUs 4 1000 100000 12345).toNat ∧
      (dhtBackoffDelayUs 4 1000 100000 12345).toNat ≤ cappedPower 4 1000 100000 ∧
      (∀ delay ∈ (backoffLoop 100000 (4 : Int32).toInt.toNat 1000).2, delay.toNat * 2 < 2 ^ 32) ∧
      cappedPower 4 1000 100000 / 2 + 1 < 2 ^ 32 :=
  dhtBackoffDelayUs_spec 4 1000 100000 (by decide)

end CLibp2p.Routing
