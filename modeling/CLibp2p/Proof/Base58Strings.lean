import CLibp2p.Proof.Base58

/-!
# Which strings the base58 decoder takes

Only the number is held against the size of the buffer, not the leading ones, and a character is looked up
in the table before its high bit is tested if it is the first behind them.
-/

namespace CLibp2p.Crypto

open Duplex

def oneChar : UInt8 := b58digitsOrdered.getD 0 0

def ones (b58 : Bytes) : Nat := (b58.takeWhile (· = oneChar)).length

def behindOnes (b58 : Bytes) : Bytes := b58.dropWhile (· = oneChar)

/-- The number that the digits behind the leading ones stand for. -/
def numberOf (b58 : Bytes) : Nat := horner 0 ((behindOnes b58).map b58digitsOrdered.idxOf)

/-- The bytes that a string stands for: a zero for each leading one, and the number. -/
def denoted (b58 : Bytes) : Bytes :=
  List.replicate (ones b58) 0 ++ (Nat.digits 256 (numberOf b58)).reverse.map UInt8.ofNat

/-- The decoder stays inside its table, takes the strings of digits whose bytes fit the buffer and no
others, and reports their length. -/
structure DecodesWell (b58 : Bytes) (binsz : Nat) : Prop where
  inTable : base58Decode b58 binsz ≠ .stray
  accepts : (∃ bin size, base58Decode b58 binsz = .decoded bin size) ↔
    (∀ char ∈ b58, char ∈ b58digitsOrdered) ∧ (denoted b58).length ≤ binsz
  size : ∀ bin size, base58Decode b58 binsz = .decoded bin size →
    size = (denoted b58).length ∧ size ≤ binsz

/-- The character behind the leading ones has no high bit, and where the number fits the buffer there is
room for the ones too, and an `unsigned` counts them. -/
structure OnesFit (b58 : Bytes) (binsz : Nat) : Prop where
  low : ∀ char, (behindOnes b58).head? = some char → char.toNat < 128
  room : (∀ char ∈ b58, char ∈ b58digitsOrdered) → numberOf b58 < 256 ^ binsz →
    ones b58 + (Nat.digits 256 (numberOf b58)).length ≤ binsz ∧ ones b58 < 2 ^ 32

/-! ### Characters -/

theorem oneChar_eq : oneChar = 49 := by
  rw [oneChar, b58digitsOrdered_eq]
  rfl

theorem lookup_eq_zero_iff (char : UInt8) : b58digitsMap[char.toNat]? = some 0 ↔ char = oneChar := by
  have hall : ∀ i < 256, b58digitsMap[i]? = some 0 ↔ i = oneChar.toNat := by
    rw [oneChar_eq]
    decide +kernel
  rw [hall _ char.toNat_lt, UInt8.toNat_inj]

theorem lookup_eq_none_iff (char : UInt8) : b58digitsMap[char.toNat]? = none ↔ 128 ≤ char.toNat := by
  have hlength : b58digitsMap.length = 128 := rfl
  rw [List.getElem?_eq_none_iff, hlength]

theorem length_alphabet : b58digitsOrdered.length = 58 := by
  rw [b58digitsOrdered_eq]
  rfl

theorem getD_idxOf_alphabet {char : UInt8} (hmem : char ∈ b58digitsOrdered) :
    b58digitsOrdered.idxOf char < 58 ∧ b58digitsOrdered.getD (b58digitsOrdered.idxOf char) 0 = char := by
  have hplace : b58digitsOrdered.idxOf char < b58digitsOrdered.length := List.idxOf_lt_length_iff.mpr hmem
  refine ⟨length_alphabet ▸ hplace, ?_⟩
  rw [List.getD_eq_getElem?_getD, List.getElem?_eq_getElem hplace, Option.getD_some, List.getElem_idxOf]

/-- The table gives the places of the digits. -/
theorem alphabet_digitOf {char : UInt8} (hlow : char &&& 0x80 = 0) (hdigit : digitOf char ≠ -1) :
    (digitOf char).toNat < 58 ∧ b58digitsOrdered.getD (digitOf char).toNat 0 = char := by
  have hall : ∀ i < 256, UInt8.ofNat i &&& 0x80 = 0 → digitOf (UInt8.ofNat i) ≠ -1 →
      (digitOf (UInt8.ofNat i)).toNat < 58 ∧
        b58digitsOrdered.getD (digitOf (UInt8.ofNat i)).toNat 0 = UInt8.ofNat i := by
    rw [b58digitsOrdered_eq]
    decide +kernel
  have hchar := hall _ char.toNat_lt
  rw [UInt8.ofNat_toNat] at hchar
  exact hchar hlow hdigit

/-- The two tests of the second loop find what is no digit. -/
theorem not_mem_alphabet_iff (char : UInt8) :
    char ∉ b58digitsOrdered ↔ char &&& 0x80 ≠ 0 ∨ digitOf char = -1 := by
  constructor
  · intro hnot
    by_contra hdigit
    push Not at hdigit
    obtain ⟨hlt, hchar⟩ := alphabet_digitOf hdigit.1 hdigit.2
    have hplace : (digitOf char).toNat < b58digitsOrdered.length := by rwa [length_alphabet]
    rw [List.getD_eq_getElem?_getD, List.getElem?_eq_getElem hplace, Option.getD_some] at hchar
    exact hnot (hchar ▸ List.getElem_mem hplace)
  · intro htests hmem
    obtain ⟨hlt, hchar⟩ := getD_idxOf_alphabet hmem
    obtain ⟨hmap, hlow⟩ := digitOf_alphabet hlt
    rw [hchar] at hmap hlow
    rcases htests with hhigh | hnone
    · exact hhigh hlow
    · omega

theorem ones_cons_one (b58 : Bytes) : ones (oneChar :: b58) = ones b58 + 1 := by
  rw [ones, List.takeWhile_cons_of_pos (by simp), List.length_cons, ← ones]

theorem behindOnes_cons_one (b58 : Bytes) : behindOnes (oneChar :: b58) = behindOnes b58 := by
  rw [behindOnes, List.dropWhile_cons_of_pos (by simp), ← behindOnes]

theorem ones_cons_of_ne {char : UInt8} (hne : char ≠ oneChar) (b58 : Bytes) :
    ones (char :: b58) = 0 ∧ behindOnes (char :: b58) = char :: b58 := by
  constructor
  · rw [ones, List.takeWhile_cons_of_neg (by simpa using hne), List.length_nil]
  · rw [behindOnes, List.dropWhile_cons_of_neg (by simpa using hne)]

theorem leadingOnes_of_low {b58 : Bytes}
    (hlow : ∀ char, (behindOnes b58).head? = some char → char.toNat < 128) :
    leadingOnes b58 = some (ones b58, behindOnes b58) := by
  induction b58 with
  | nil => rfl
  | cons char b58 ih =>
      by_cases hone : char = oneChar
      · subst hone
        rw [behindOnes_cons_one] at hlow
        rw [leadingOnes, (lookup_eq_zero_iff oneChar).mpr rfl]
        dsimp only
        rw [if_pos rfl, ih hlow, Option.map_some, ones_cons_one, behindOnes_cons_one]
      · obtain ⟨hones, hbehind⟩ := ones_cons_of_ne hone b58
        rw [hbehind] at hlow
        have hsome : b58digitsMap[char.toNat]? ≠ none := by
          rw [Ne, lookup_eq_none_iff, Nat.not_le]
          exact hlow char rfl
        obtain ⟨digit, hdigit⟩ := Option.ne_none_iff_exists'.mp hsome
        have hne : digit ≠ 0 := by
          rintro rfl
          exact hone ((lookup_eq_zero_iff char).mp hdigit)
        rw [leadingOnes, hdigit]
        dsimp only
        rw [if_neg hne, hones, hbehind]

theorem leadingOnes_of_high {b58 : Bytes} {char : UInt8} (hhead : (behindOnes b58).head? = some char)
    (hhigh : 128 ≤ char.toNat) : leadingOnes b58 = none := by
  induction b58 with
  | nil => cases hhead
  | cons first b58 ih =>
      by_cases hone : first = oneChar
      · subst hone
        rw [behindOnes_cons_one] at hhead
        rw [leadingOnes, (lookup_eq_zero_iff oneChar).mpr rfl]
        dsimp only
        rw [if_pos rfl, ih hhead, Option.map_none]
      · rw [(ones_cons_of_ne hone b58).2] at hhead
        obtain rfl := Option.some.inj hhead
        rw [leadingOnes, (lookup_eq_none_iff first).mpr hhigh]

theorem behindOnes_digits_iff (b58 : Bytes) :
    (∀ char ∈ b58, char ∈ b58digitsOrdered) ↔ ∀ char ∈ behindOnes b58, char ∈ b58digitsOrdered := by
  have hsplit := List.takeWhile_append_dropWhile (p := (· = oneChar)) (l := b58)
  constructor
  · intro hall char hmem
    exact hall char (List.dropWhile_suffix _ |>.subset hmem)
  · intro hall char hmem
    rw [← hsplit, List.mem_append] at hmem
    rcases hmem with hmem | hmem
    · have hone : char = oneChar := by simpa using List.mem_takeWhile_imp hmem
      rw [hone, oneChar_eq, b58digitsOrdered_eq]
      decide
    · exact hall char hmem

/-- Digits, as numbers and back. -/
theorem map_idxOf_digits {b58 : Bytes} (hdigits : ∀ char ∈ b58, char ∈ b58digitsOrdered) :
    (b58.map b58digitsOrdered.idxOf).map (fun digit => b58digitsOrdered.getD digit 0) = b58 ∧
      ∀ digit ∈ b58.map b58digitsOrdered.idxOf, digit < 58 := by
  constructor
  · rw [List.map_map]
    refine (List.map_congr_left fun char hmem => ?_).trans (List.map_id b58)
    exact (getD_idxOf_alphabet (hdigits char hmem)).2
  · intro digit hmem
    obtain ⟨char, hchar, rfl⟩ := List.mem_map.mp hmem
    exact (getD_idxOf_alphabet (hdigits char hchar)).1

/-! ### The loop over the digits -/

/-- A character that is no digit ends the loop, if nothing else does before. -/
theorem decodeDigits_of_not_digits {b58 : Bytes} (hbad : ∃ char ∈ b58, char ∉ b58digitsOrdered)
    (zeromask : Nat) (outi : List Nat) : decodeDigits zeromask outi b58 = none := by
  induction b58 generalizing outi with
  | nil => simp at hbad
  | cons char b58 ih =>
      rw [decodeDigits]
      by_cases hhigh : char &&& 0x80 ≠ 0
      · rw [if_pos hhigh]
      · by_cases hnone : digitOf char = -1
        · rw [if_neg hhigh, if_pos hnone]
        · rw [if_neg hhigh, if_neg hnone]
          obtain ⟨bad, hmem, hbad⟩ := hbad
          rcases List.mem_cons.mp hmem with rfl | hmem
          · exact absurd ((not_mem_alphabet_iff bad).mp hbad) (not_or.mpr ⟨hhigh, hnone⟩)
          · dsimp only
            rw [ih ⟨bad, hmem, hbad⟩]
            split_ifs <;> rfl

/-- A word that reaches into the mask. -/
theorem and_zeromask_of_ge {word k : Nat} (hword : word < 2 ^ 32) (hge : 2 ^ k ≤ word) :
    word &&& (0xffffffff <<< k) % 2 ^ 32 ≠ 0 := by
  intro hzero
  refine Nat.not_lt.mpr hge (Nat.lt_pow_two_of_testBit word fun i hi => ?_)
  have hbit := congrArg (Nat.testBit · i) hzero
  rw [Nat.testBit_and, Nat.zero_testBit, Nat.testBit_mod_two_pow, Nat.testBit_shiftLeft] at hbit
  by_cases hsmall : i < 32
  · have hall : Nat.testBit 0xffffffff (i - k) = true := by
      rw [show 0xffffffff = 2 ^ 32 - 1 from rfl, Nat.testBit_two_pow_sub_one]
      exact decide_eq_true (by omega)
    rw [hall, decide_eq_true hsmall, decide_eq_true hi] at hbit
    simpa using hbit
  · exact Nat.testBit_lt_two_pow (Nat.lt_of_lt_of_le hword (Nat.pow_le_pow_right (by decide) (by omega)))

/-- The word `outi[0]` of a number of more than `binsz` bytes. -/
theorem le_getLastD {outi : List Nat} {binsz : Nat} (hlength : outi.length = (binsz + 3) / 4)
    (houti : ∀ word ∈ outi, word < 2 ^ 32) (hleft : binsz % 4 ≠ 0)
    (hvalue : 256 ^ binsz ≤ Nat.ofDigits (2 ^ 32) outi) :
    2 ^ (binsz % 4 * 8) ≤ outi.getLastD 0 ∧ outi.getLastD 0 < 2 ^ 32 := by
  rcases List.eq_nil_or_concat' outi with rfl | ⟨low, top, rfl⟩
  · rw [List.length_nil] at hlength
    omega
  · rw [List.length_append, List.length_singleton] at hlength
    rw [List.getLastD_concat]
    have hsplit : 256 ^ binsz = (2 ^ 32) ^ low.length * 2 ^ (binsz % 4 * 8) := by
      rw [← Nat.pow_mul, ← Nat.pow_add, show 256 = 2 ^ 8 from rfl, ← Nat.pow_mul]
      congr 1
      omega
    have hlow : Nat.ofDigits (2 ^ 32) low < (2 ^ 32) ^ low.length :=
      Nat.ofDigits_lt_base_pow_length (by decide) fun word hmem => houti word (by simp [hmem])
    rw [Nat.ofDigits_append, Nat.ofDigits_singleton, hsplit] at hvalue
    refine ⟨?_, houti top (by simp)⟩
    by_contra hless
    have hnext : (2 ^ 32) ^ low.length * (top + 1) ≤ (2 ^ 32) ^ low.length * 2 ^ (binsz % 4 * 8) :=
      Nat.mul_le_mul_left _ (Nat.not_le.mp hless)
    rw [Nat.mul_succ] at hnext
    omega

/-- Digits whose number needs more than `binsz` bytes end the loop. -/
theorem decodeDigits_of_ge {binsz zeromask : Nat}
    (hmask : zeromask = if binsz % 4 = 0 then 0 else (0xffffffff <<< (binsz % 4 * 8)) % 2 ^ 32)
    {outi : List Nat} (hlength : outi.length = (binsz + 3) / 4) (houti : ∀ word ∈ outi, word < 2 ^ 32)
    (hvalue : Nat.ofDigits (2 ^ 32) outi < 256 ^ binsz)
    {digits : List Nat} (hdigits : ∀ digit ∈ digits, digit < 58)
    (hlarge : 256 ^ binsz ≤ horner (Nat.ofDigits (2 ^ 32) outi) digits) :
    decodeDigits zeromask outi (digits.map fun digit => b58digitsOrdered.getD digit 0) = none := by
  induction digits generalizing outi with
  | nil => exact absurd hvalue (Nat.not_lt.mpr hlarge)
  | cons digit digits ih =>
      obtain ⟨hdigit, hrest⟩ := List.forall_mem_cons.mp hdigits
      have hnextLength := (length_carryWords digit outi).trans hlength
      rw [horner, List.foldl_cons, ← horner] at hlarge
      rw [List.map_cons]
      by_cases hnumber : 58 * Nat.ofDigits (2 ^ 32) outi + digit < 256 ^ binsz
      · obtain ⟨hnext, hround⟩ := decodeDigits_cons_of_lt hmask hlength houti hdigit hnumber
          (digits.map fun digit => b58digitsOrdered.getD digit 0)
        rw [hround]
        rw [← hnext] at hnumber hlarge
        exact ih hnextLength (carryWords_lt digit outi) hnumber hrest hlarge
      · obtain ⟨hmap, hhigh⟩ := digitOf_alphabet hdigit
        have hplace : digitOf (b58digitsOrdered.getD digit 0) ≠ -1 := by
          rw [hmap]
          omega
        rw [decodeDigits, if_neg (not_not.mpr hhigh), if_neg hplace, hmap, Int.toNat_natCast]
        dsimp only
        by_cases hcarry : (carryWords digit outi).2 = 0
        · have hnext := ofDigits_carryWords hdigit houti
          rw [hcarry, Nat.mul_zero, Nat.add_zero] at hnext
          rw [← hnext] at hnumber
          rw [if_neg (not_not.mpr hcarry)]
          by_cases hleft : binsz % 4 = 0
          · have hroom : (2 ^ 32) ^ (carryWords digit outi).1.length = 256 ^ binsz := by
              rw [hnextLength, ← Nat.pow_mul, show 256 = 2 ^ 8 from rfl, ← Nat.pow_mul]
              congr 1
              omega
            have hless := Nat.ofDigits_lt_base_pow_length (b := 2 ^ 32) (by decide)
              (carryWords_lt digit outi)
            rw [hroom] at hless
            exact absurd hless hnumber
          · obtain ⟨hge, hword⟩ := le_getLastD hnextLength (carryWords_lt digit outi) hleft
              (Nat.not_lt.mp hnumber)
            rw [if_pos]
            rw [hmask, if_neg hleft]
            exact and_zeromask_of_ge hword hge
        · rw [if_pos hcarry]

/-! ### The decoder -/

/-- The bytes of the number, without zeros before them. -/
def numberBytes (b58 : Bytes) : Bytes := (Nat.digits 256 (numberOf b58)).reverse.map UInt8.ofNat

theorem length_numberBytes (b58 : Bytes) :
    (numberBytes b58).length = (Nat.digits 256 (numberOf b58)).length := by
  rw [numberBytes, List.length_map, List.length_reverse]

theorem length_denoted (b58 : Bytes) :
    (denoted b58).length = ones b58 + (Nat.digits 256 (numberOf b58)).length := by
  rw [denoted, ← numberBytes, List.length_append, List.length_replicate, length_numberBytes]

theorem numberBytes_toNat (b58 : Bytes) :
    (numberBytes b58).reverse.map UInt8.toNat = Nat.digits 256 (numberOf b58) := by
  rw [numberBytes, ← List.map_reverse, List.reverse_reverse, List.map_map]
  refine (List.map_congr_left fun digit hmem => ?_).trans (List.map_id _)
  have hsmall : digit < 256 := Nat.digits_lt_base (by decide) hmem
  rw [Function.comp_apply, UInt8.toNat_ofNat', Nat.mod_eq_of_lt hsmall]
  rfl

theorem bigEndian_numberBytes (zeros : Nat) (b58 : Bytes) :
    bigEndian (List.replicate zeros 0 ++ numberBytes b58) = numberOf b58 := by
  rw [bigEndian, List.reverse_append, List.map_append, numberBytes_toNat, List.reverse_replicate,
    List.map_replicate]
  exact (Nat.ofDigits_append_replicate_zero _).trans (Nat.ofDigits_digits 256 (numberOf b58))

theorem head_numberBytes (b58 : Bytes) : (numberBytes b58).head? ≠ some 0 := by
  intro hhead
  have hlast : (Nat.digits 256 (numberOf b58)).getLast? = some 0 := by
    rw [← numberBytes_toNat, List.getLast?_map, List.getLast?_reverse, hhead]
    rfl
  by_cases hzero : numberOf b58 = 0
  · rw [hzero, Nat.digits_zero] at hlast
    cases hlast
  · have hne : Nat.digits 256 (numberOf b58) ≠ [] := Nat.digits_ne_nil_iff_ne_zero.mpr hzero
    rw [List.getLast?_eq_some_getLast hne] at hlast
    exact Nat.getLast_digit_ne_zero 256 hzero (Option.some.inj hlast)

theorem decodeString_of_fits {b58 : Bytes} {binsz : Nat}
    (hlow : ∀ char, (behindOnes b58).head? = some char → char.toNat < 128)
    (hdigits : ∀ char ∈ b58, char ∈ b58digitsOrdered) (hfits : numberOf b58 < 256 ^ binsz) :
    ∃ bin, base58Decode b58 binsz =
      .decoded bin ((Nat.digits 256 (numberOf b58)).length + ones b58 % 2 ^ 32) := by
  obtain ⟨hchars, hsmall⟩ := map_idxOf_digits ((behindOnes_digits_iff b58).mp hdigits)
  have hlength : (Nat.digits 256 (numberOf b58)).length ≤ binsz :=
    (Nat.digits_length_le_iff (by decide) _).mpr hfits
  have hzeros := ofDigits_zeros ((binsz + 3) / 4)
  obtain ⟨outi, hdecode, houtiLength, houti, hvalue⟩ := decodeDigits_of_lt rfl List.length_replicate
    (zeros_lt _) hsmall (by rw [hzeros]; exact hfits)
  rw [hchars] at hdecode
  rw [List.length_replicate] at houtiLength
  have htotal : (List.replicate (binsz - (numberBytes b58).length) 0 ++ numberBytes b58).length =
      binsz := by
    rw [List.length_append, List.length_replicate, length_numberBytes]
    omega
  have hbinu : wordsOut (binsz % 4) outi.reverse =
      List.replicate (binsz - (numberBytes b58).length) 0 ++ numberBytes b58 := by
    have hnumber : Nat.ofDigits (2 ^ 32) outi =
        bigEndian (List.replicate (binsz - (numberBytes b58).length) 0 ++ numberBytes b58) := by
      rw [bigEndian_numberBytes, hvalue, hzeros]
      rfl
    have hout := wordsOut_eq (by rw [htotal, houtiLength]) houti hnumber
    rwa [htotal] at hout
  have hskipped : ((wordsOut (binsz % 4) outi.reverse).takeWhile (· = 0)).length =
      binsz - (numberBytes b58).length := by
    rw [hbinu, List.takeWhile_append_of_pos (by simp), takeWhile_zero_eq_nil (head_numberBytes b58),
      List.append_nil, List.length_replicate]
  refine ⟨wordsOut (binsz % 4) outi.reverse, ?_⟩
  rw [base58Decode, leadingOnes_of_low hlow]
  dsimp only
  rw [hdecode]
  dsimp only
  rw [hskipped, length_numberBytes, Nat.sub_sub_self hlength]

theorem decodeString_of_not_fits {b58 : Bytes} {binsz : Nat}
    (hlow : ∀ char, (behindOnes b58).head? = some char → char.toNat < 128)
    (hnot : ¬((∀ char ∈ b58, char ∈ b58digitsOrdered) ∧ numberOf b58 < 256 ^ binsz)) :
    base58Decode b58 binsz = .failed := by
  rw [base58Decode, leadingOnes_of_low hlow]
  dsimp only
  by_cases hdigits : ∀ char ∈ b58, char ∈ b58digitsOrdered
  · obtain ⟨hchars, hsmall⟩ := map_idxOf_digits ((behindOnes_digits_iff b58).mp hdigits)
    have hlarge : 256 ^ binsz ≤ numberOf b58 := Nat.not_lt.mp fun hless => hnot ⟨hdigits, hless⟩
    have hzeros := ofDigits_zeros ((binsz + 3) / 4)
    have hnone := decodeDigits_of_ge rfl List.length_replicate (zeros_lt _)
      (by rw [hzeros]; exact Nat.pow_pos (by decide)) hsmall (by rw [hzeros]; exact hlarge)
    rw [hchars] at hnone
    rw [hnone]
  · rw [behindOnes_digits_iff] at hdigits
    push Not at hdigits
    rw [decodeDigits_of_not_digits hdigits]

/-- **Base58 strings.** The decoder decodes a string well into a buffer if and only if its leading ones
fit. -/
theorem decodesWell_iff_onesFit (b58 : Bytes) (binsz : Nat) :
    DecodesWell b58 binsz ↔ OnesFit b58 binsz := by
  constructor
  · intro hwell
    have hlow : ∀ char, (behindOnes b58).head? = some char → char.toNat < 128 := by
      intro char hhead
      by_contra hhigh
      refine hwell.inTable ?_
      rw [base58Decode, leadingOnes_of_high hhead (Nat.not_lt.mp hhigh)]
    refine ⟨hlow, fun hdigits hfits => ?_⟩
    obtain ⟨bin, hdecode⟩ := decodeString_of_fits hlow hdigits hfits
    obtain ⟨hsize, -⟩ := hwell.size _ _ hdecode
    have hroom := (hwell.accepts.mp ⟨_, _, hdecode⟩).2
    rw [length_denoted] at hsize hroom
    refine ⟨hroom, ?_⟩
    have hless : ones b58 % 2 ^ 32 < 2 ^ 32 := Nat.mod_lt _ (by decide)
    omega
  · rintro ⟨hlow, hroom⟩
    by_cases hfits : (∀ char ∈ b58, char ∈ b58digitsOrdered) ∧ numberOf b58 < 256 ^ binsz
    · obtain ⟨bin, hdecode⟩ := decodeString_of_fits hlow hfits.1 hfits.2
      obtain ⟨hle, hcount⟩ := hroom hfits.1 hfits.2
      rw [Nat.mod_eq_of_lt hcount] at hdecode
      refine ⟨fun hstray => ?_, ?_, ?_⟩
      · rw [hdecode] at hstray
        cases hstray
      · exact iff_of_true ⟨_, _, hdecode⟩ ⟨hfits.1, by rwa [length_denoted]⟩
      · intro bin' size hsize
        rw [hdecode] at hsize
        cases hsize
        rw [length_denoted]
        omega
    · have hfailed := decodeString_of_not_fits hlow hfits
      refine ⟨fun hstray => ?_, ?_, ?_⟩
      · rw [hfailed] at hstray
        cases hstray
      · refine iff_of_false ?_ ?_
        · rintro ⟨bin, size, hdecode⟩
          rw [hfailed] at hdecode
          cases hdecode
        · rintro ⟨hdigits, hlength⟩
          refine hfits ⟨hdigits, (Nat.digits_length_le_iff (by decide) _).mp ?_⟩
          rw [length_denoted] at hlength
          omega
      · intro bin size hdecode
        rw [hfailed] at hdecode
        cases hdecode

/-- Five ones stand for five bytes, and the decoder takes them for a buffer of two. -/
theorem not_decodesWell_ones : ¬DecodesWell (List.replicate 5 oneChar) 2 := by
  intro hwell
  have hdecode : base58Decode (List.replicate 5 oneChar) 2 = .decoded [0, 0] 5 := by
    rw [oneChar_eq]
    decide
  exact absurd (hwell.size _ _ hdecode).2 (by decide)

end CLibp2p.Crypto
