import CLibp2p.Crypto.Base58
import CLibp2p.Proof.PeerId

/-!
# The round trip through base58

The decoder computes the number that the characters stand for and writes it with as many bytes as the
buffer has. It undoes base58 for all data without leading zero bytes; the encoder has no text for others.
-/

namespace CLibp2p.Crypto

open Duplex

/-! ### Words -/

theorem length_carryWords (c : Nat) (outi : List Nat) : (carryWords c outi).1.length = outi.length := by
  induction outi generalizing c with
  | nil => rfl
  | cons word outi ih => rw [carryWords, List.length_cons, List.length_cons, ih]

theorem carryWords_lt (c : Nat) (outi : List Nat) : ∀ word ∈ (carryWords c outi).1, word < 2 ^ 32 := by
  induction outi generalizing c with
  | nil => exact fun word hword => absurd hword List.not_mem_nil
  | cons word outi ih => exact List.forall_mem_cons.mpr ⟨Nat.mod_lt _ (by decide), ih _⟩

/-- The six bits of the carry are enough: it stays below 58. -/
theorem ofDigits_carryWords {c : Nat} (hc : c < 58) {outi : List Nat}
    (houti : ∀ word ∈ outi, word < 2 ^ 32) :
    Nat.ofDigits (2 ^ 32) (carryWords c outi).1 + (2 ^ 32) ^ outi.length * (carryWords c outi).2 =
      58 * Nat.ofDigits (2 ^ 32) outi + c := by
  induction outi generalizing c with
  | nil => simp [carryWords]
  | cons word outi ih =>
      obtain ⟨hword, hrest⟩ := List.forall_mem_cons.mp houti
      have hcarry : (word * 58 + c) / 2 ^ 32 < 58 := by omega
      have hsmall : (word * 58 + c) / 2 ^ 32 % 64 = (word * 58 + c) / 2 ^ 32 :=
        Nat.mod_eq_of_lt (by omega)
      have hnext := ih hcarry hrest
      rw [carryWords, hsmall]
      dsimp only
      rw [Nat.ofDigits_cons, Nat.ofDigits_cons, List.length_cons]
      generalize carryWords ((word * 58 + c) / 2 ^ 32) outi = rest at hnext ⊢
      calc
        (word * 58 + c) % 2 ^ 32 + 2 ^ 32 * Nat.ofDigits (2 ^ 32) rest.1 +
            (2 ^ 32) ^ (outi.length + 1) * rest.2 =
          (word * 58 + c) % 2 ^ 32 +
            2 ^ 32 * (Nat.ofDigits (2 ^ 32) rest.1 + (2 ^ 32) ^ outi.length * rest.2) := by ring
        _ = (word * 58 + c) % 2 ^ 32 +
            2 ^ 32 * (58 * Nat.ofDigits (2 ^ 32) outi + (word * 58 + c) / 2 ^ 32) := by rw [hnext]
        _ = 58 * (word + 2 ^ 32 * Nat.ofDigits (2 ^ 32) outi) + c := by omega

/-- A number that fits is multiplied without a carry out of it. -/
theorem carryWords_of_lt {c : Nat} (hc : c < 58) {outi : List Nat}
    (houti : ∀ word ∈ outi, word < 2 ^ 32)
    (hfits : 58 * Nat.ofDigits (2 ^ 32) outi + c < (2 ^ 32) ^ outi.length) :
    (carryWords c outi).2 = 0 ∧
      Nat.ofDigits (2 ^ 32) (carryWords c outi).1 = 58 * Nat.ofDigits (2 ^ 32) outi + c := by
  have hvalue := ofDigits_carryWords hc houti
  have hzero : (carryWords c outi).2 = 0 := by
    by_contra hne
    have hle := Nat.le_mul_of_pos_right ((2 ^ 32) ^ outi.length) (Nat.pos_of_ne_zero hne)
    omega
  refine ⟨hzero, ?_⟩
  rwa [hzero, Nat.mul_zero, Nat.add_zero] at hvalue

/-- The mask has the bits above `k`. -/
theorem and_zeromask_of_lt {word k : Nat} (hword : word < 2 ^ k) :
    word &&& (0xffffffff <<< k) % 2 ^ 32 = 0 := by
  apply Nat.eq_of_testBit_eq
  intro i
  rw [Nat.testBit_and, Nat.zero_testBit, Nat.testBit_mod_two_pow, Nat.testBit_shiftLeft]
  by_cases hi : k ≤ i
  · have hlow : word < 2 ^ i := Nat.lt_of_lt_of_le hword (Nat.pow_le_pow_right (by decide) hi)
    rw [Nat.testBit_lt_two_pow hlow, Bool.false_and]
  · simp [hi]

/-- The word `outi[0]` of a number of `binsz` bytes. -/
theorem getLastD_lt {outi : List Nat} {binsz : Nat} (hlength : outi.length = (binsz + 3) / 4)
    (hleft : binsz % 4 ≠ 0) (hvalue : Nat.ofDigits (2 ^ 32) outi < 256 ^ binsz) :
    outi.getLastD 0 < 2 ^ (binsz % 4 * 8) := by
  rcases List.eq_nil_or_concat' outi with rfl | ⟨low, top, rfl⟩
  · exact Nat.two_pow_pos _
  · rw [List.length_append, List.length_singleton] at hlength
    have hsplit : 256 ^ binsz = (2 ^ 32) ^ low.length * 2 ^ (binsz % 4 * 8) := by
      rw [← Nat.pow_mul, ← Nat.pow_add, show 256 = 2 ^ 8 from rfl, ← Nat.pow_mul]
      congr 1
      omega
    rw [Nat.ofDigits_append, Nat.ofDigits_singleton, hsplit] at hvalue
    rw [List.getLastD_concat]
    exact Nat.lt_of_mul_lt_mul_left (Nat.lt_of_le_of_lt (Nat.le_add_left _ _) hvalue)

/-! ### Characters -/

theorem digitOf_alphabet {digit : Nat} (hdigit : digit < 58) :
    digitOf (b58digitsOrdered.getD digit 0) = digit ∧ b58digitsOrdered.getD digit 0 &&& 0x80 = 0 := by
  have hall : ∀ digit < 58, digitOf (b58digitsOrdered.getD digit 0) = digit ∧
      b58digitsOrdered.getD digit 0 &&& 0x80 = 0 := by
    rw [b58digitsOrdered_eq]
    decide
  exact hall digit hdigit

def horner (value : Nat) (digits : List Nat) : Nat :=
  digits.foldl (fun value digit => 58 * value + digit) value

theorem le_horner (value : Nat) (digits : List Nat) : value ≤ horner value digits := by
  induction digits generalizing value with
  | nil => exact Nat.le_refl _
  | cons digit digits ih =>
      have hrest := ih (58 * value + digit)
      rw [horner, List.foldl_cons, ← horner]
      omega

theorem horner_reverse (digits : List Nat) : horner 0 digits.reverse = Nat.ofDigits 58 digits := by
  induction digits with
  | nil => rfl
  | cons digit digits ih =>
      have hfold : digits.reverse.foldl (fun value digit => 58 * value + digit) 0 =
          Nat.ofDigits 58 digits := ih
      rw [List.reverse_cons, horner, List.foldl_append, hfold, Nat.ofDigits_cons]
      exact Nat.add_comm _ _

/-- One round of the loop over the characters, for a number that still fits into `binsz` bytes. -/
theorem decodeDigits_cons_of_lt {binsz zeromask : Nat}
    (hmask : zeromask = if binsz % 4 = 0 then 0 else (0xffffffff <<< (binsz % 4 * 8)) % 2 ^ 32)
    {outi : List Nat} (hlength : outi.length = (binsz + 3) / 4) (houti : ∀ word ∈ outi, word < 2 ^ 32)
    {digit : Nat} (hdigit : digit < 58)
    (hnumber : 58 * Nat.ofDigits (2 ^ 32) outi + digit < 256 ^ binsz) (b58 : Bytes) :
    Nat.ofDigits (2 ^ 32) (carryWords digit outi).1 = 58 * Nat.ofDigits (2 ^ 32) outi + digit ∧
      decodeDigits zeromask outi (b58digitsOrdered.getD digit 0 :: b58) =
        decodeDigits zeromask (carryWords digit outi).1 b58 := by
  obtain ⟨hmap, hhigh⟩ := digitOf_alphabet hdigit
  have hroom : 256 ^ binsz ≤ (2 ^ 32) ^ outi.length := by
    rw [hlength, ← Nat.pow_mul, show 256 = 2 ^ 8 from rfl, ← Nat.pow_mul]
    exact Nat.pow_le_pow_right (by decide) (by omega)
  obtain ⟨hcarry, hvalue⟩ := carryWords_of_lt hdigit houti (Nat.lt_of_lt_of_le hnumber hroom)
  have hnextLength := (length_carryWords digit outi).trans hlength
  have htop : (carryWords digit outi).1.getLastD 0 &&& zeromask = 0 := by
    rw [hmask]
    split
    · exact Nat.and_zero _
    · rename_i hleft
      exact and_zeromask_of_lt (getLastD_lt hnextLength hleft (by rwa [hvalue]))
  have hplace : digitOf (b58digitsOrdered.getD digit 0) ≠ -1 := by
    rw [hmap]
    omega
  refine ⟨hvalue, ?_⟩
  rw [decodeDigits, if_neg (not_not.mpr hhigh), if_neg hplace, hmap, Int.toNat_natCast]
  dsimp only
  rw [if_neg (not_not.mpr hcarry), if_neg (not_not.mpr htop)]

theorem ofDigits_zeros (size : Nat) : Nat.ofDigits (2 ^ 32) (List.replicate size 0) = 0 :=
  Nat.ofDigits_append_replicate_zero []

theorem zeros_lt (size : Nat) : ∀ word ∈ List.replicate size 0, word < 2 ^ 32 := by
  intro word hword
  rw [List.eq_of_mem_replicate hword]
  exact Nat.two_pow_pos 32

/-- The loop over the characters of digits whose number fits into `binsz` bytes. -/
theorem decodeDigits_of_lt {binsz : Nat} {zeromask : Nat}
    (hmask : zeromask = if binsz % 4 = 0 then 0 else (0xffffffff <<< (binsz % 4 * 8)) % 2 ^ 32)
    {outi : List Nat} (hlength : outi.length = (binsz + 3) / 4) (houti : ∀ word ∈ outi, word < 2 ^ 32)
    {digits : List Nat} (hdigits : ∀ digit ∈ digits, digit < 58)
    (hfits : horner (Nat.ofDigits (2 ^ 32) outi) digits < 256 ^ binsz) :
    ∃ outi', decodeDigits zeromask outi (digits.map fun digit => b58digitsOrdered.getD digit 0) =
        some outi' ∧
      outi'.length = outi.length ∧
      (∀ word ∈ outi', word < 2 ^ 32) ∧
      Nat.ofDigits (2 ^ 32) outi' = horner (Nat.ofDigits (2 ^ 32) outi) digits := by
  induction digits generalizing outi with
  | nil => exact ⟨outi, rfl, rfl, houti, rfl⟩
  | cons digit digits ih =>
      obtain ⟨hdigit, hrest⟩ := List.forall_mem_cons.mp hdigits
      rw [horner, List.foldl_cons, ← horner] at hfits ⊢
      have hnumber : 58 * Nat.ofDigits (2 ^ 32) outi + digit < 256 ^ binsz :=
        Nat.lt_of_le_of_lt (le_horner _ digits) hfits
      obtain ⟨hvalue, hround⟩ := decodeDigits_cons_of_lt hmask hlength houti hdigit hnumber
        (digits.map fun digit => b58digitsOrdered.getD digit 0)
      rw [← hvalue] at hfits ⊢
      obtain ⟨outi', hdecode, hlength', hwords, hvalue'⟩ :=
        ih ((length_carryWords digit outi).trans hlength) (carryWords_lt digit outi) hrest hfits
      refine ⟨outi', ?_, hlength'.trans (length_carryWords digit outi), hwords, hvalue'⟩
      rw [List.map_cons, hround, hdecode]

/-! ### Bytes -/

theorem bigEndian_append (front rest : Bytes) :
    bigEndian (front ++ rest) = bigEndian front * 256 ^ rest.length + bigEndian rest := by
  rw [bigEndian, List.reverse_append, List.map_append, Nat.ofDigits_append, List.length_map,
    List.length_reverse, ← bigEndian, ← bigEndian, Nat.add_comm, Nat.mul_comm]

theorem bigEndian_cons (byte : UInt8) (rest : Bytes) :
    bigEndian (byte :: rest) = byte.toNat * 256 ^ rest.length + bigEndian rest := by
  have hone : bigEndian [byte] = byte.toNat := by simp [bigEndian]
  rw [← List.singleton_append, bigEndian_append, hone]

theorem bigEndian_wordBytes {word : Nat} (hword : word < 2 ^ 32) : bigEndian (wordBytes word) = word := by
  simp only [bigEndian, wordBytes, List.reverse_cons, List.reverse_nil, List.nil_append,
    List.cons_append, List.map_cons, List.map_nil, Nat.ofDigits_cons, Nat.ofDigits_nil,
    UInt8.toNat_ofNat']
  omega

theorem length_flatMap_wordBytes (outi : List Nat) :
    (outi.flatMap wordBytes).length = 4 * outi.length := by
  induction outi with
  | nil => rfl
  | cons word outi ih =>
      rw [List.flatMap_cons, List.length_append, ih, List.length_cons]
      simp only [wordBytes, List.length_cons, List.length_nil]
      omega

theorem bigEndian_flatMap_wordBytes {outi : List Nat} (houti : ∀ word ∈ outi, word < 2 ^ 32) :
    bigEndian (outi.reverse.flatMap wordBytes) = Nat.ofDigits (2 ^ 32) outi := by
  induction outi with
  | nil => rfl
  | cons word outi ih =>
      obtain ⟨hword, hrest⟩ := List.forall_mem_cons.mp houti
      have hfour : (List.flatMap wordBytes [word]).length = 4 := rfl
      rw [List.reverse_cons, List.flatMap_append, bigEndian_append, ih hrest, hfour,
        List.flatMap_singleton, bigEndian_wordBytes hword, Nat.ofDigits_cons, Nat.add_comm,
        Nat.mul_comm, show 256 ^ 4 = 2 ^ 32 by norm_num]

theorem bigEndian_injective {data other : Bytes} (hlength : data.length = other.length)
    (heq : bigEndian data = bigEndian other) : data = other := by
  have hbytes : data.reverse.map UInt8.toNat = other.reverse.map UInt8.toNat := by
    refine Nat.ofDigits_inj_of_len_eq (b := 256) (by decide) (by simpa using hlength) ?_ ?_ heq
    · intro digit hdigit
      obtain ⟨byte, -, rfl⟩ := List.mem_map.mp hdigit
      exact byte.toNat_lt
    · intro digit hdigit
      obtain ⟨byte, -, rfl⟩ := List.mem_map.mp hdigit
      exact byte.toNat_lt
  exact List.reverse_injective
    (List.map_injective_iff.mpr (fun _ _ hbyte => UInt8.toNat_inj.mp hbyte) hbytes)

theorem wordsOut_eq_drop (bytesleft : Nat) (outi : List Nat) :
    wordsOut bytesleft outi = (outi.flatMap wordBytes).drop ((4 - bytesleft) % 4) := by
  cases outi with
  | nil => simp [wordsOut]
  | cons word outi =>
      rw [wordsOut, List.flatMap_cons, List.drop_append_of_le_length]
      have hfour : (wordBytes word).length = 4 := rfl
      omega

/-- What is written out is the number with `binsz` bytes. -/
theorem wordsOut_eq {outi : List Nat} {data : Bytes} (hlength : outi.length = (data.length + 3) / 4)
    (houti : ∀ word ∈ outi, word < 2 ^ 32) (hvalue : Nat.ofDigits (2 ^ 32) outi = bigEndian data) :
    wordsOut (data.length % 4) outi.reverse = data := by
  have htotal : (outi.reverse.flatMap wordBytes).length = (4 - data.length % 4) % 4 + data.length := by
    rw [length_flatMap_wordBytes, List.length_reverse, hlength]
    omega
  have hzeros : outi.reverse.flatMap wordBytes =
      List.replicate ((4 - data.length % 4) % 4) 0 ++ data := by
    refine bigEndian_injective (by rw [htotal, List.length_append, List.length_replicate]) ?_
    have hnil : ∀ n, bigEndian (List.replicate n 0) = 0 := by
      intro n
      have hzero := Nat.ofDigits_append_replicate_zero (b := 256) (k := n) []
      rw [bigEndian, List.reverse_replicate, List.map_replicate]
      exact hzero
    rw [bigEndian_flatMap_wordBytes houti, hvalue, bigEndian_append, hnil, Nat.zero_mul, Nat.zero_add]
  rw [wordsOut_eq_drop, hzeros, List.drop_left' List.length_replicate]

/-! ### The round trip -/

/-- The text of data without leading zero bytes does not begin with a `1`. -/
theorem head_digits_bigEndian {digit : Nat} {data : Bytes}
    (hdigit : (Nat.digits 58 (bigEndian data)).reverse.head? = some digit) : digit ≠ 0 := by
  rw [List.head?_reverse] at hdigit
  rintro rfl
  by_cases hzero : bigEndian data = 0
  · rw [hzero, Nat.digits_zero] at hdigit
    cases hdigit
  · have hne : Nat.digits 58 (bigEndian data) ≠ [] := Nat.digits_ne_nil_iff_ne_zero.mpr hzero
    rw [List.getLast?_eq_some_getLast hne] at hdigit
    exact Nat.getLast_digit_ne_zero 58 hzero (Option.some.inj hdigit)

theorem leadingOnes_cons_of_digit {char : UInt8} {digit : Int} (hmap : digitOf char = digit)
    (hne : digit ≠ 0) (hplace : digit ≠ -1) (b58 : Bytes) :
    leadingOnes (char :: b58) = some (0, char :: b58) := by
  rw [digitOf, List.getD_eq_getElem?_getD] at hmap
  rw [leadingOnes]
  cases hlookup : b58digitsMap[char.toNat]? with
  | none =>
      rw [hlookup, Option.getD_none] at hmap
      exact absurd hmap.symm hplace
  | some found =>
      rw [hlookup, Option.getD_some] at hmap
      dsimp only
      rw [if_neg (hmap ▸ hne)]

theorem base58Decode_base58 {data : Bytes} (hhead : data.head? ≠ some 0) :
    base58Decode (base58 data) data.length = .decoded data data.length := by
  have hdigits : ∀ digit ∈ (Nat.digits 58 (bigEndian data)).reverse, digit < 58 :=
    fun digit hdigit => Nat.digits_lt_base (by decide) (List.mem_reverse.mp hdigit)
  have htext : base58 data =
      (Nat.digits 58 (bigEndian data)).reverse.map fun digit => b58digitsOrdered.getD digit 0 := by
    rw [base58, takeWhile_zero_eq_nil hhead, List.map_nil, List.nil_append]
  have hones : leadingOnes (base58 data) = some (0, base58 data) := by
    rw [htext]
    cases hlist : (Nat.digits 58 (bigEndian data)).reverse with
    | nil => rfl
    | cons digit digits =>
        have hne : digit ≠ 0 := head_digits_bigEndian (by rw [hlist, List.head?_cons])
        have hmap := (digitOf_alphabet (hdigits digit (by rw [hlist]; exact List.mem_cons_self))).1
        exact leadingOnes_cons_of_digit hmap (by omega) (by omega) _
  have hnumber : horner (Nat.ofDigits (2 ^ 32) (List.replicate ((data.length + 3) / 4) 0))
      (Nat.digits 58 (bigEndian data)).reverse = bigEndian data := by
    rw [ofDigits_zeros, horner_reverse, Nat.ofDigits_digits]
  obtain ⟨outi, hdecode, hlength, houti, hvalue⟩ := decodeDigits_of_lt rfl List.length_replicate
    (zeros_lt _) hdigits (by rw [hnumber]; exact bigEndian_lt data)
  rw [base58Decode, hones]
  dsimp only
  rw [htext, hdecode]
  dsimp only
  rw [wordsOut_eq (hlength.trans List.length_replicate) houti (hvalue.trans hnumber),
    takeWhile_zero_eq_nil hhead]
  rfl

/-- Encoding into a buffer that the text and its NUL fit gives a text that decodes to the data, in a
buffer of the size of the data. -/
def RoundTrips (data : Bytes) : Prop :=
  ∀ base58Size, (base58 data).length < base58Size →
    ∃ text, base58Encode data base58Size = some text ∧
      base58Decode text data.length = .decoded data data.length

theorem roundTrips_iff (data : Bytes) : RoundTrips data ↔ data.head? ≠ some 0 := by
  constructor
  · intro hround hhead
    obtain ⟨text, hencode, -⟩ := hround _ (Nat.lt_succ_self _)
    rw [base58Encode, if_pos hhead] at hencode
    cases hencode
  · intro hhead base58Size hsize
    exact ⟨base58 data, base58Encode_of_fits hhead hsize, base58Decode_base58 hhead⟩

theorem not_roundTrips_zero : ¬RoundTrips [0, 1] := by
  intro hround
  obtain ⟨text, hencode, -⟩ := hround _ (Nat.lt_succ_self _)
  cases hencode

end CLibp2p.Crypto
