import CLibp2p.Machine.Dyadic
import CLibp2p.Proof.DhtUtils
import CLibp2p.Routing.Dht.Ids

/-!
# Node ids as numbers

An id as the number that its bytes spell. The comparisons of ids are comparisons of numbers and of their
XOR, and the bit at which a bucket splits is the depth of the block of ids that the bucket is for.
-/

namespace CLibp2p.Routing.Dht

open Duplex Crypto Dyadic

def value (id : Hash) : Nat := bigEndian id.toList

/-- Bit `k` of an id, counted from the front. -/
def bit (id : Hash) (k : Nat) : Bool := (byteAt id (k / 8)).toNat.testBit (7 - k % 8)

theorem value_lt (id : Hash) : value id < 2 ^ 160 := by
  have hlt := bigEndian_lt id.toList
  rw [Vector.length_toList] at hlt
  calc value id < 256 ^ 20 := hlt
    _ = 2 ^ 160 := by norm_num

theorem value_injective : Function.Injective value := by
  intro id1 id2 heq
  apply Vector.toList_inj.mp
  apply bigEndian_injective _ heq
  rw [Vector.length_toList, Vector.length_toList]

theorem value_zeroes : value zeroes = 0 := by decide +kernel

/-! ### Comparisons -/

theorem memcmp_eq_compare {s1 s2 : Bytes} (hlength : s1.length = s2.length) :
    memcmp s1 s2 = compare (bigEndian s1) (bigEndian s2) := by
  induction s1 generalizing s2 with
  | nil =>
      obtain rfl := List.length_eq_zero_iff.mp hlength.symm
      rfl
  | cons x s1 ih =>
      cases s2 with
      | nil => cases hlength
      | cons y s2 =>
          have hrest : s1.length = s2.length := Nat.succ.inj hlength
          have hless : distanceLt (x :: s1) (y :: s2) = true ↔ _ := distanceLt_iff hlength
          have hmore : distanceLt (y :: s2) (x :: s1) = true ↔ _ := distanceLt_iff hlength.symm
          rw [distanceLt] at hless hmore
          rw [memcmp]
          by_cases hxy : x < y
          · rw [if_pos (UInt8.ne_of_lt hxy), decide_eq_true_iff] at hless
            rw [if_pos hxy, eq_comm, compare_lt_iff_lt]
            exact hless.mp hxy
          · by_cases hyx : y < x
            · rw [if_pos (UInt8.ne_of_lt hyx), decide_eq_true_iff] at hmore
              rw [if_neg hxy, if_pos hyx, eq_comm, compare_gt_iff_gt]
              exact hmore.mp hyx
            · obtain rfl : x = y := UInt8.le_antisymm (UInt8.not_lt.mp hyx) (UInt8.not_lt.mp hxy)
              rw [if_neg hxy, if_neg hyx, ih hrest, bigEndian_cons, bigEndian_cons, hrest]
              rw [Nat.compare_eq_ite_lt, Nat.compare_eq_ite_lt]
              simp only [Nat.add_lt_add_iff_left]

theorem idCmp_eq_compare (id1 id2 : Hash) : idCmp id1 id2 = compare (value id1) (value id2) := by
  apply memcmp_eq_compare
  rw [Vector.length_toList, Vector.length_toList]

@[simp] theorem idCmp_eq_iff {id1 id2 : Hash} : idCmp id1 id2 = .eq ↔ id1 = id2 := by
  rw [idCmp_eq_compare, compare_eq_iff_eq, value_injective.eq_iff]

theorem idCmp_lt_iff {id1 id2 : Hash} : idCmp id1 id2 = .lt ↔ value id1 < value id2 := by
  rw [idCmp_eq_compare, compare_lt_iff_lt]

theorem idCmp_le_iff {id1 id2 : Hash} : idCmp id1 id2 ≠ .gt ↔ value id1 ≤ value id2 := by
  rw [idCmp_eq_compare, Nat.compare_ne_gt]

theorem xor_two_pow_mul_add {m a b c d : Nat} (hb : b < 2 ^ m) (hd : d < 2 ^ m) :
    (2 ^ m * a + b) ^^^ (2 ^ m * c + d) = 2 ^ m * (a ^^^ c) + (b ^^^ d) := by
  apply Nat.eq_of_testBit_eq
  intro i
  rw [Nat.testBit_xor, Nat.testBit_two_pow_mul_add a hb, Nat.testBit_two_pow_mul_add c hd,
    Nat.testBit_two_pow_mul_add _ (Nat.xor_lt_two_pow hb hd)]
  by_cases hi : i < m
  · rw [if_pos hi, if_pos hi, if_pos hi, Nat.testBit_xor]
  · rw [if_neg hi, if_neg hi, if_neg hi, Nat.testBit_xor]

theorem bigEndian_cons_two_pow (byte : UInt8) (rest : Bytes) :
    bigEndian (byte :: rest) = 2 ^ (8 * rest.length) * byte.toNat + bigEndian rest := by
  rw [bigEndian_cons, Nat.pow_mul, Nat.mul_comm]

theorem bigEndian_lt_two_pow (data : Bytes) : bigEndian data < 2 ^ (8 * data.length) := by
  have hlt := bigEndian_lt data
  rwa [show (256 : Nat) = 2 ^ 8 by norm_num, ← Nat.pow_mul] at hlt

theorem bigEndian_xorDistance {a b : Bytes} (hlength : a.length = b.length) :
    bigEndian (xorDistance a b) = bigEndian a ^^^ bigEndian b := by
  induction a generalizing b with
  | nil =>
      obtain rfl := List.length_eq_zero_iff.mp hlength.symm
      rfl
  | cons x a ih =>
      cases b with
      | nil => cases hlength
      | cons y b =>
          have hrest : a.length = b.length := Nat.succ.inj hlength
          have hb := bigEndian_lt_two_pow b
          have ha := bigEndian_lt_two_pow a
          rw [hrest] at ha
          calc bigEndian (xorDistance (x :: a) (y :: b))
              = 2 ^ (8 * b.length) * (x ^^^ y).toNat + bigEndian (xorDistance a b) := by
                rw [xorDistance, List.zipWith_cons_cons, bigEndian_cons_two_pow, ← xorDistance,
                  length_xorDistance hrest, hrest]
            _ = 2 ^ (8 * b.length) * (x.toNat ^^^ y.toNat) + (bigEndian a ^^^ bigEndian b) := by
                rw [ih hrest, UInt8.toNat_xor]
            _ = bigEndian (x :: a) ^^^ bigEndian (y :: b) := by
                rw [bigEndian_cons_two_pow, bigEndian_cons_two_pow, hrest, xor_two_pow_mul_add ha hb]

/-- The distance of two ids. -/
def distance (id1 id2 : Hash) : Nat := value id1 ^^^ value id2

theorem distance_left_injective (target : Hash) : Function.Injective fun id => distance id target :=
  (xor_left_injective (value target)).comp value_injective

theorem xorcmpLoop_lt_iff {id1 id2 ref : Bytes} (h1 : id1.length = ref.length)
    (h2 : id2.length = ref.length) :
    xorcmpLoop id1 id2 ref = .lt ↔ distanceLt (xorDistance id1 ref) (xorDistance id2 ref) = true := by
  induction ref generalizing id1 id2 with
  | nil =>
      obtain rfl := List.length_eq_zero_iff.mp h1
      obtain rfl := List.length_eq_zero_iff.mp h2
      simp [xorcmpLoop, xorDistance, distanceLt]
  | cons r ref ih =>
      cases id1 with
      | nil => cases h1
      | cons x id1 =>
          cases id2 with
          | nil => cases h2
          | cons y id2 =>
              have hsame : x ^^^ r = y ^^^ r ↔ x = y := UInt8.xor_left_inj r
              rw [xorcmpLoop, xorDistance, xorDistance, List.zipWith_cons_cons, List.zipWith_cons_cons,
                distanceLt, ← xorDistance, ← xorDistance]
              by_cases hxy : x = y
              · rw [if_pos hxy, if_neg (not_not.mpr (hsame.mpr hxy)),
                  ih (Nat.succ.inj h1) (Nat.succ.inj h2)]
              · rw [if_neg hxy, if_pos (mt hsame.mp hxy), decide_eq_true_iff]
                by_cases hless : x ^^^ r < y ^^^ r
                · simp [hless]
                · simp [hless]

theorem xorcmp_lt_iff {id1 id2 ref : Hash} :
    xorcmp id1 id2 ref = .lt ↔ distance id1 ref < distance id2 ref := by
  have h1 : id1.toList.length = ref.toList.length := by rw [Vector.length_toList, Vector.length_toList]
  have h2 : id2.toList.length = ref.toList.length := by rw [Vector.length_toList, Vector.length_toList]
  rw [xorcmp, xorcmpLoop_lt_iff h1 h2,
    distanceLt_iff (by rw [length_xorDistance h1, length_xorDistance h2, h1, h2]),
    bigEndian_xorDistance h1, bigEndian_xorDistance h2]
  rfl

/-! ### Bits -/

theorem testBit_bigEndian {data : Bytes} {t : Nat} (ht : t < 8 * data.length) :
    (bigEndian data).testBit t = (data.getD (data.length - 1 - t / 8) 0).toNat.testBit (t % 8) := by
  induction data with
  | nil => cases ht
  | cons byte rest ih =>
      rw [bigEndian_cons_two_pow, Nat.testBit_two_pow_mul_add _ (bigEndian_lt_two_pow rest)]
      rw [List.length_cons] at ht ⊢
      by_cases hrest : t < 8 * rest.length
      · have hindex : rest.length + 1 - 1 - t / 8 = (rest.length - 1 - t / 8) + 1 := by omega
        rw [if_pos hrest, ih hrest, hindex, List.getD_cons_succ]
      · have hindex : rest.length + 1 - 1 - t / 8 = 0 := by omega
        have hoffset : t - 8 * rest.length = t % 8 := by omega
        rw [if_neg hrest, hindex, List.getD_cons_zero, hoffset]

theorem testBit_value {id : Hash} {k : Nat} (hk : k < 160) : (value id).testBit (159 - k) = bit id k := by
  have hlength : id.toList.length = 20 := Vector.length_toList
  rw [value, testBit_bigEndian (by omega), bit, byteAt, hlength]
  have hindex : 20 - 1 - (159 - k) / 8 = k / 8 := by omega
  have hoffset : (159 - k) % 8 = 7 - k % 8 := by omega
  rw [hindex, hoffset]

theorem two_pow_dvd_iff {n v : Nat} : 2 ^ n ∣ v ↔ ∀ i < n, v.testBit i = false := by
  rw [Nat.dvd_iff_mod_eq_zero]
  constructor
  · intro hmod i hi
    have hbit : (v % 2 ^ n).testBit i = false := by rw [hmod, Nat.zero_testBit]
    rwa [Nat.testBit_mod_two_pow, decide_eq_true hi, Bool.true_and] at hbit
  · intro hbits
    apply Nat.eq_of_testBit_eq
    intro i
    rw [Nat.testBit_mod_two_pow, Nat.zero_testBit]
    by_cases hi : i < n
    · rw [hbits i hi, Bool.and_false]
    · rw [decide_eq_false hi, Bool.false_and]

/-- The boundaries of the blocks of a depth are the ids with no bit set from that one on. -/
theorem two_pow_dvd_value_iff {id : Hash} {depth : Nat} (hdepth : depth ≤ 160) :
    2 ^ (160 - depth) ∣ value id ↔ ∀ k, depth ≤ k → k < 160 → bit id k = false := by
  rw [two_pow_dvd_iff]
  constructor
  · intro hbits k hlow hhigh
    rw [← testBit_value hhigh]
    exact hbits (159 - k) (by omega)
  · intro hbits i hi
    have hk : i = 159 - (159 - i) := by omega
    rw [hk, testBit_value (by omega)]
    exact hbits (159 - i) (by omega) (by omega)

theorem toNat_bitMask {j : Nat} (hj : j < 8) : (bitMask j).toNat = 2 ^ (7 - j) := by
  interval_cases j <;> rfl

theorem and_bitMask_ne_zero_iff {byte : UInt8} {j : Nat} (hj : j < 8) :
    byte &&& bitMask j ≠ 0 ↔ byte.toNat.testBit (7 - j) = true := by
  rw [ne_eq, ← UInt8.toNat_inj, UInt8.toNat_and, toNat_bitMask hj, Nat.and_two_pow]
  cases byte.toNat.testBit (7 - j) with
  | false => simp
  | true => simp

theorem loopDown_cases (p : Nat → Bool) (n : Nat) :
    (loopDown p n = -1 ∧ ∀ i < n, p i = false) ∨
      ∃ i < n, loopDown p n = i ∧ p i = true ∧ ∀ k, i < k → k < n → p k = false := by
  induction n with
  | zero => exact Or.inl ⟨rfl, fun i hi => absurd hi (Nat.not_lt_zero i)⟩
  | succ n ih =>
      by_cases hp : p n = true
      · refine Or.inr ⟨n, Nat.lt_succ_self n, by rw [loopDown, if_pos hp], hp, fun k hlow hhigh => ?_⟩
        omega
      · have hfalse : p n = false := Bool.eq_false_iff.mpr hp
        rcases ih with ⟨hnone, hall⟩ | ⟨i, hi, hloop, hpi, hall⟩
        · refine Or.inl ⟨by rw [loopDown, if_neg hp, hnone], fun i hi => ?_⟩
          rcases Nat.lt_succ_iff_lt_or_eq.mp hi with hlt | rfl
          · exact hall i hlt
          · exact hfalse
        · refine Or.inr ⟨i, by omega, by rw [loopDown, if_neg hp, hloop], hpi, fun k hlow hhigh => ?_⟩
          rcases Nat.lt_succ_iff_lt_or_eq.mp hhigh with hlt | rfl
          · exact hall k hlow hlt
          · exact hfalse

theorem byteAt_eq_zero_iff {id : Hash} {i : Nat} :
    byteAt id i = 0 ↔ ∀ j < 8, byteAt id i &&& bitMask j = 0 := by
  constructor
  · intro hzero j _
    rw [hzero, UInt8.zero_and]
  · intro hbits
    have hdvd : 2 ^ 8 ∣ (byteAt id i).toNat := by
      apply two_pow_dvd_iff.mpr
      intro t ht
      by_contra hset
      have hj : (7 - t) < 8 := by omega
      have ht' : 7 - (7 - t) = t := by omega
      apply (and_bitMask_ne_zero_iff hj).mpr _ (hbits (7 - t) hj)
      rw [ht']
      exact Bool.eq_true_of_not_eq_false hset
    have hlt := (byteAt id i).toNat_lt
    exact UInt8.toNat_inj.mp (Nat.eq_zero_of_dvd_of_lt hdvd hlt)

/-- What `lowbit` finds: the last bit that is set. -/
theorem lowbit_cases (id : Hash) :
    (lowbit id = -1 ∧ ∀ k < 160, bit id k = false) ∨
      ∃ k : Nat, k < 160 ∧ lowbit id = k ∧ bit id k = true ∧
        ∀ m, k < m → m < 160 → bit id m = false := by
  have hzero : ∀ {i j : Nat}, byteAt id i = 0 → (byteAt id i).toNat.testBit j = false := by
    intro i j hbyte
    rw [hbyte]
    exact Nat.zero_testBit j
  rw [lowbit]
  rcases loopDown_cases (fun i => byteAt id i ≠ 0) 20 with ⟨hnone, hall⟩ | ⟨i, hi, hloop, hbyte, hall⟩
  · refine Or.inl ⟨by rw [hnone]; rfl, fun k hk => ?_⟩
    exact hzero (by simpa using hall (k / 8) (by omega))
  · have hloop' : ¬((i : Int) < 0) := by omega
    rw [hloop, if_neg hloop', Int.toNat_natCast]
    rcases loopDown_cases (fun j => byteAt id i &&& bitMask j ≠ 0) 8 with
      ⟨-, hbits⟩ | ⟨j, hj, hinner, hset, hbits⟩
    · have hbits' : ∀ j < 8, byteAt id i &&& bitMask j = 0 := fun j hj => by simpa using hbits j hj
      exact absurd (byteAt_eq_zero_iff.mpr hbits') (by simpa using hbyte)
    · refine Or.inr ⟨8 * i + j, by omega, by rw [hinner]; push_cast; rfl, ?_, fun m hlow hhigh => ?_⟩
      · have hdiv : (8 * i + j) / 8 = i := by omega
        have hmod : (8 * i + j) % 8 = j := by omega
        rw [bit, hdiv, hmod]
        exact (and_bitMask_ne_zero_iff hj).mp (by simpa using hset)
      · by_cases hsame : m / 8 = i
        · have hclear : byteAt id i &&& bitMask (m % 8) = 0 := by
            simpa using hbits (m % 8) (by omega) (by omega)
          rw [bit, hsame]
          by_contra hm
          exact (and_bitMask_ne_zero_iff (by omega)).mpr (Bool.eq_true_of_not_eq_false hm) hclear
        · exact hzero (by simpa using hall (m / 8) (by omega) (by omega))

theorem lowbit_lt_iff {id : Hash} {depth : Nat} (hdepth : depth ≤ 160) :
    lowbit id < depth ↔ 2 ^ (160 - depth) ∣ value id := by
  rw [two_pow_dvd_value_iff hdepth]
  rcases lowbit_cases id with ⟨hnone, hall⟩ | ⟨k, hk, hlow, hset, hall⟩
  · rw [hnone]
    constructor
    · intro _ m _ hm
      exact hall m hm
    · intro _
      omega
  · rw [hlow]
    constructor
    · intro hlt m hm hm'
      exact hall m (by omega) hm'
    · intro hclear
      by_contra hle
      have hfalse := hclear k (by omega) hk
      rw [hset] at hfalse
      cases hfalse

theorem neg_one_le_lowbit (id : Hash) : -1 ≤ lowbit id := by
  rcases lowbit_cases id with ⟨hnone, -⟩ | ⟨k, -, hlow, -⟩
  · omega
  · omega

/-! ### Where a bucket splits -/

/-- Where a bucket ends: at the start of the next one or behind the last id. -/
def endOf (next : Option Hash) : Nat := next.elim (2 ^ 160) value

@[simp] theorem endOf_none : endOf none = 2 ^ 160 := by rw [endOf, Option.elim_none]

@[simp] theorem endOf_some (next : Hash) : endOf (some next) = value next := by
  rw [endOf, Option.elim_some]

theorem nextBit_lt_iff {next : Option Hash} {depth : Nat} (hdepth : depth ≤ 160) :
    next.elim (-1) lowbit < depth ↔ 2 ^ (160 - depth) ∣ endOf next := by
  cases next with
  | none =>
      refine iff_of_true ?_ (Nat.pow_dvd_pow 2 (Nat.sub_le 160 depth))
      rw [Option.elim_none]
      omega
  | some id => exact lowbit_lt_iff hdepth

/-- **A bucket splits at the depth of its block.** -/
theorem splitBit_eq {first : Hash} {next : Option Hash} {depth : Nat}
    (hblock : Block 160 depth (value first) (endOf next)) : splitBit first next = depth := by
  have hdepth : depth ≤ 160 := hblock.1
  have hfirst : lowbit first < depth := (lowbit_lt_iff hdepth).mpr hblock.dvd_lo
  have hnext : next.elim (-1) lowbit < depth := (nextBit_lt_iff hdepth).mpr hblock.dvd_hi
  have hlow : -1 ≤ lowbit first := neg_one_le_lowbit first
  have hcoarse : ¬(lowbit first < (depth : Int) - 1 ∧ next.elim (-1) lowbit < (depth : Int) - 1) := by
    rintro ⟨h1, h2⟩
    obtain ⟨d, rfl⟩ : ∃ d, depth = d + 1 := ⟨depth - 1, by omega⟩
    have hexp : 160 - (d + 1) + 1 = 160 - d := by omega
    apply hblock.not_dvd_both
    rw [hexp]
    exact ⟨(lowbit_lt_iff (by omega)).mp (by omega), (nextBit_lt_iff (by omega)).mp (by omega)⟩
  rw [splitBit]
  omega

theorem value_eq_of_bits {id : Hash} {v : Nat} (hv : v < 2 ^ 160)
    (hbits : ∀ k < 160, bit id k = v.testBit (159 - k)) : value id = v := by
  apply Nat.eq_of_testBit_eq
  intro t
  by_cases ht : t < 160
  · have hk : t = 159 - (159 - t) := by omega
    rw [hk, testBit_value (by omega)]
    exact hbits (159 - t) (by omega)
  · have hle : 2 ^ 160 ≤ 2 ^ t := Nat.pow_le_pow_right (by decide) (by omega)
    rw [Nat.testBit_lt_two_pow ((value_lt id).trans_le hle), Nat.testBit_lt_two_pow (hv.trans_le hle)]

theorem byteAt_setByte {id : Hash} {i j : Nat} {byte : UInt8} (hi : i < 20) :
    byteAt (setByte id i byte) j = if i = j then byte else byteAt id j := by
  have hlength : i < id.toList.length := by rw [Vector.length_toList]; exact hi
  have hset : (setByte id i byte).toList = id.toList.set i byte := by
    rw [setByte, Vector.toList, Vector.toList, Vector.toArray_setIfInBounds, Array.toList_setIfInBounds]
  rw [byteAt, byteAt, hset, List.getD_eq_getElem?_getD, List.getElem?_set, List.getD_eq_getElem?_getD]
  by_cases hij : i = j
  · rw [if_pos hij, if_pos hij, if_pos hlength, Option.getD_some]
  · rw [if_neg hij, if_neg hij]

theorem testBit_or_bitMask {byte : UInt8} {j t : Nat} (hj : j < 8) :
    (byte ||| bitMask j).toNat.testBit t = (byte.toNat.testBit t || decide (7 - j = t)) := by
  rw [UInt8.toNat_or, toNat_bitMask hj, Nat.testBit_or, Nat.testBit_two_pow]

theorem value_or_bit {id : Hash} {b : Nat} (hb : b < 160) :
    value (setByte id (b / 8) (byteAt id (b / 8) ||| bitMask (b % 8))) = value id ||| 2 ^ (159 - b) := by
  have hpow : 2 ^ (159 - b) < 2 ^ 160 := Nat.pow_lt_pow_right (by decide) (by omega)
  apply value_eq_of_bits (Nat.or_lt_two_pow (value_lt id) hpow)
  intro k hk
  rw [Nat.testBit_or, testBit_value hk, Nat.testBit_two_pow, bit, byteAt_setByte (by omega)]
  by_cases hsame : b / 8 = k / 8
  · have hsame' : 7 - b % 8 = 7 - k % 8 ↔ 159 - b = 159 - k := by omega
    rw [if_pos hsame, testBit_or_bitMask (by omega), hsame, bit, decide_eq_decide.mpr hsame']
  · have hne : ¬159 - b = 159 - k := by omega
    rw [if_neg hsame, decide_eq_false hne, Bool.or_false, bit]

/-- **The middle id of a bucket is in the middle**, wherever a bucket has more than one id to itself. -/
theorem bucketMiddle_eq {first : Hash} {next : Option Hash} {depth : Nat}
    (hblock : Block 160 depth (value first) (endOf next)) (hdepth : depth < 160) :
    ∃ mid, bucketMiddle first next = some mid ∧
      value mid = value first + 2 ^ (160 - (depth + 1)) := by
  have hsplit : splitBit first next = depth := splitBit_eq hblock
  have hnot : ¬depth ≥ 160 := by omega
  refine ⟨_, by rw [bucketMiddle, hsplit, if_neg hnot], ?_⟩
  obtain ⟨a, ha⟩ := hblock.dvd_lo
  have hexp : 159 - depth = 160 - (depth + 1) := by omega
  have hlow : 2 ^ (160 - (depth + 1)) < 2 ^ (160 - depth) :=
    Nat.pow_lt_pow_right (by decide) (by omega)
  rw [value_or_bit hdepth, hexp, ha, Nat.two_pow_add_eq_or_of_lt hlow]

theorem div_eq_of_bits {id1 id2 : Hash} {depth : Nat} (hdepth : depth ≤ 160)
    (hbits : ∀ k < depth, bit id1 k = bit id2 k) :
    value id1 / 2 ^ (160 - depth) = value id2 / 2 ^ (160 - depth) := by
  apply Nat.eq_of_testBit_eq
  intro t
  rw [Nat.testBit_div_two_pow, Nat.testBit_div_two_pow]
  by_cases ht : t < depth
  · have hk : t + (160 - depth) = 159 - (depth - 1 - t) := by omega
    rw [hk, testBit_value (by omega), testBit_value (by omega)]
    exact hbits (depth - 1 - t) (by omega)
  · have hle : 2 ^ 160 ≤ 2 ^ (t + (160 - depth)) := Nat.pow_le_pow_right (by decide) (by omega)
    rw [Nat.testBit_lt_two_pow ((value_lt id1).trans_le hle),
      Nat.testBit_lt_two_pow ((value_lt id2).trans_le hle)]

theorem testBit_keepFront {m t : Nat} (hm : m < 8) (ht : t < 8) :
    (UInt8.ofNat (0xff00 >>> m)).toNat.testBit t = decide (8 ≤ t + m) := by
  interval_cases m <;> interval_cases t <;> rfl

theorem testBit_keepBack {m t : Nat} (hm : m < 8) (ht : t < 8) :
    (UInt8.ofNat (0xff >>> m)).toNat.testBit t = decide (t + m < 8) := by
  interval_cases m <;> interval_cases t <;> rfl

/-- **A random id of a bucket is an id of the bucket**, whatever `random` gives. -/
theorem bucketRandom_mem {first : Hash} {next : Option Hash} {depth : Nat}
    (hblock : Block 160 depth (value first) (endOf next)) (random : Nat → UInt8) :
    value first ≤ value (bucketRandom first next random) ∧
      value (bucketRandom first next random) < endOf next := by
  have hsplit : splitBit first next = depth := splitBit_eq hblock
  rw [hblock.mem_iff]
  by_cases hdeep : depth ≥ 160
  · rw [bucketRandom, hsplit, if_pos hdeep]
  · apply div_eq_of_bits hblock.1
    intro k hk
    have hbyte : byteAt (bucketRandom first next random) (k / 8) =
        if k / 8 < depth / 8 then byteAt first (k / 8)
        else byteAt first (k / 8) &&& UInt8.ofNat (0xff00 >>> (depth % 8)) |||
          random 0 &&& UInt8.ofNat (0xff >>> (depth % 8)) := by
      have hindex : k / 8 < 20 := by omega
      rw [bucketRandom, hsplit, if_neg hdeep, byteAt, List.getD_eq_getElem?_getD, Vector.getElem?_toList,
        Vector.getElem?_eq_getElem hindex, Option.getD_some, Vector.getElem_ofFn]
      by_cases hfront : k / 8 < depth / 8
      · rw [if_pos hfront, if_pos hfront]
      · have hat : k / 8 = depth / 8 := by omega
        rw [if_neg hfront, if_neg hfront, if_pos hat]
    rw [bit, hbyte, bit]
    by_cases hfront : k / 8 < depth / 8
    · rw [if_pos hfront]
    · have hkeep : 8 ≤ 7 - k % 8 + depth % 8 := by omega
      have hdrop : ¬7 - k % 8 + depth % 8 < 8 := by omega
      rw [if_neg hfront, UInt8.toNat_or, UInt8.toNat_and, UInt8.toNat_and, Nat.testBit_or, Nat.testBit_and,
        Nat.testBit_and, testBit_keepFront (by omega) (by omega), testBit_keepBack (by omega) (by omega),
        decide_eq_true hkeep, decide_eq_false hdrop, Bool.and_true, Bool.and_false, Bool.or_false]

theorem bits_eq_of_div {id1 id2 : Hash} {depth k : Nat} (hdepth : depth ≤ 160)
    (hdiv : value id1 / 2 ^ (160 - depth) = value id2 / 2 ^ (160 - depth)) (hk : k < depth) :
    bit id1 k = bit id2 k := by
  have htest := congrArg (fun v => v.testBit (depth - 1 - k)) hdiv
  have hindex : depth - 1 - k + (160 - depth) = 159 - k := by omega
  rwa [Nat.testBit_div_two_pow, Nat.testBit_div_two_pow, hindex, testBit_value (by omega),
    testBit_value (by omega)] at htest

theorem byte_eq_of_bits {a b : UInt8} (hbits : ∀ t < 8, a.toNat.testBit t = b.toNat.testBit t) : a = b := by
  apply UInt8.toNat_inj.mp
  apply Nat.eq_of_testBit_eq
  intro t
  by_cases ht : t < 8
  · exact hbits t ht
  · have hle : 2 ^ 8 ≤ 2 ^ t := Nat.pow_le_pow_right (by decide) (not_lt.mp ht)
    rw [Nat.testBit_lt_two_pow (a.toNat_lt.trans_le hle), Nat.testBit_lt_two_pow (b.toNat_lt.trans_le hle)]

theorem testBit_byteAt {id : Hash} {i t : Nat} (ht : t < 8) :
    (byteAt id i).toNat.testBit t = bit id (8 * i + (7 - t)) := by
  have hdiv : (8 * i + (7 - t)) / 8 = i := by omega
  have hmod : 7 - (8 * i + (7 - t)) % 8 = t := by omega
  rw [bit, hdiv, hmod]

theorem hash_ext {id1 id2 : Hash} (hbytes : ∀ i < 20, byteAt id1 i = byteAt id2 i) : id1 = id2 := by
  apply Vector.ext
  intro i hi
  have hbyte := hbytes i hi
  rwa [byteAt, byteAt, List.getD_eq_getElem?_getD, List.getD_eq_getElem?_getD, Vector.getElem?_toList,
    Vector.getElem?_toList, Vector.getElem?_eq_getElem hi, Vector.getElem?_eq_getElem hi, Option.getD_some,
    Option.getD_some] at hbyte

/-- Every id of a bucket can be drawn. -/
theorem bucketRandom_surjective {first id : Hash} {next : Option Hash} {depth : Nat}
    (hblock : Block 160 depth (value first) (endOf next)) (hid : value first ≤ value id ∧ value id < endOf next) :
    bucketRandom first next (fun j => byteAt id (depth / 8 + j)) = id := by
  have hsplit : splitBit first next = depth := splitBit_eq hblock
  have hdiv := hblock.mem_iff.mp hid
  have hbits : ∀ k < depth, bit first k = bit id k := fun k hk => (bits_eq_of_div hblock.1 hdiv hk).symm
  apply hash_ext
  intro i hi
  by_cases hdeep : depth ≥ 160
  · rw [bucketRandom, hsplit, if_pos hdeep]
    apply byte_eq_of_bits
    intro t ht
    rw [testBit_byteAt ht, testBit_byteAt ht]
    exact hbits _ (by omega)
  · rw [bucketRandom, hsplit, if_neg hdeep, byteAt, List.getD_eq_getElem?_getD, Vector.getElem?_toList,
      Vector.getElem?_eq_getElem hi, Option.getD_some, Vector.getElem_ofFn]
    dsimp only
    split
    · rename_i hfront
      apply byte_eq_of_bits
      intro t ht
      rw [testBit_byteAt ht, testBit_byteAt ht]
      exact hbits _ (by omega)
    · split
      · rename_i hat
        rw [Nat.add_zero, ← hat]
        apply byte_eq_of_bits
        intro t ht
        rw [UInt8.toNat_or, UInt8.toNat_and, UInt8.toNat_and, Nat.testBit_or, Nat.testBit_and, Nat.testBit_and,
          testBit_keepFront (by omega) ht, testBit_keepBack (by omega) ht, testBit_byteAt ht, testBit_byteAt ht]
        by_cases hkeep : 8 ≤ t + depth % 8
        · have hdrop : ¬t + depth % 8 < 8 := by omega
          rw [decide_eq_true hkeep, decide_eq_false hdrop, Bool.and_true, Bool.and_false, Bool.or_false]
          exact hbits _ (by omega)
        · have hdrop : t + depth % 8 < 8 := by omega
          rw [decide_eq_false hkeep, decide_eq_true hdrop, Bool.and_true, Bool.and_false, Bool.false_or]
      · rename_i hfront hat
        have hindex : depth / 8 + (i - depth / 8) = i := by omega
        rw [hindex]

end CLibp2p.Routing.Dht
