import CLibp2p.Utils.UrlEncode

/-!
# When URL encoding works

The encoder allocates three bytes for each character and none for the NUL, and a `char` with a sign leads
it beside its table of digits. The decoder steps over the two characters behind a percent sign whether they
are there or not.
-/

namespace CLibp2p.Utils

open Duplex

/-! ### Digits -/

theorem hexAt_eq {digit : Nat} (hdigit : digit < 16) :
    ∃ c, hexAt digit = some c ∧ h2b c = UInt8.ofNat digit ∧ c ≠ 0 := by
  have hall : ∀ digit < 16,
      ∃ c ∈ hex, hexAt (digit : Nat) = some c ∧ h2b c = UInt8.ofNat digit ∧ c ≠ 0 := by
    decide +kernel
  obtain ⟨c, -, hc⟩ := hall digit hdigit
  exact ⟨c, hc⟩

theorem byte_of_digits (c : UInt8) :
    UInt8.ofNat (c.toNat / 16) <<< 4 ||| UInt8.ofNat (c.toNat % 16) &&& 15 = c := by
  have hall : ∀ n < 256, UInt8.ofNat (n / 16) <<< 4 ||| UInt8.ofNat (n % 16) &&& 15 = UInt8.ofNat n := by
    decide +kernel
  rw [hall _ c.toNat_lt, UInt8.ofNat_toNat]

theorem decodeLoop_plain {c : UInt8} (hnul : c ≠ 0) (hc : c ≠ percent) (src : Bytes) :
    decodeLoop (c :: src) = (decodeLoop src).map (c :: ·) := by
  rw [decodeLoop.eq_def]
  dsimp only
  rw [if_neg hnul, if_pos hc]

theorem decodeLoop_percent (src : Bytes) :
    decodeLoop (percent :: src) =
      match src with
      | high :: low :: src => (decodeLoop src).map ((h2b high <<< 4 ||| h2b low &&& 15) :: ·)
      | _ => none := by
  have hnul : percent ≠ 0 := by decide
  rw [decodeLoop.eq_def]
  dsimp only
  rw [if_neg hnul, if_neg (not_not.mpr rfl)]
  rcases src with _ | ⟨high, _ | ⟨low, src⟩⟩ <;> rfl

/-! ### Encoding -/

/-- A character that is copied, or has no sign. -/
def Encodable (platform : Platform) (c : UInt8) : Prop :=
  platform.isalnum c = true ∨ platform.charSigned = false ∨ c < 128

section Encoding

variable (platform : Platform)

theorem percent_not_alnum : platform.isalnum percent = false := by
  rw [platform.isalnum_ascii percent (by decide)]
  decide

theorem hexAt_value {c : UInt8} (hsign : platform.charSigned = false ∨ c < 128) :
    ∃ high low, hexAt (platform.value c / 2 ^ 4) = some high ∧
      hexAt (platform.value c % 2 ^ 4) = some low ∧ high ≠ 0 ∧ low ≠ 0 ∧
      (h2b high <<< 4 ||| h2b low &&& 15) = c := by
  have hbyte := c.toNat_lt
  have hvalue : platform.value c = c.toNat := by
    rw [Platform.value]
    rcases hsign with hsign | hascii
    · rw [hsign, if_neg Bool.false_ne_true]
    · rw [UInt8.lt_iff_toNat_lt] at hascii
      split
      · apply Int.bmod_eq_of_le
        · omega
        · have hlt : c.toNat < 128 := hascii
          omega
      · rfl
  obtain ⟨high, hhigh, hhighDigit, hhighPos⟩ := hexAt_eq (by omega : c.toNat / 16 < 16)
  obtain ⟨low, hlow, hlowDigit, hlowPos⟩ := hexAt_eq (by omega : c.toNat % 16 < 16)
  refine ⟨high, low, ?_, ?_, hhighPos, hlowPos, ?_⟩
  · rw [hvalue, ← hhigh]
    rfl
  · rw [hvalue, ← hlow]
    rfl
  · rw [hhighDigit, hlowDigit, byte_of_digits]

theorem hexAt_of_negative {c : UInt8} (hsign : platform.charSigned = true) (hlarge : ¬c < 128) :
    hexAt (platform.value c / 2 ^ 4) = none := by
  have hbyte := c.toNat_lt
  have hge : 128 ≤ c.toNat := by
    rw [UInt8.lt_iff_toNat_lt] at hlarge
    exact Nat.not_lt.mp hlarge
  have hvalue := (bmod_neg_of_ge hge hbyte).1
  have hneg : platform.value c < 0 := by
    rw [Platform.value, if_pos hsign]
    exact hvalue
  rw [hexAt, if_neg]
  omega

theorem encodeLoop_of_encodable {src : Bytes} (hnul : 0 ∉ src)
    (hsrc : ∀ c ∈ src, Encodable platform c) :
    ∃ text, (platform.encodeLoop src).2 = some text ∧ decodeLoop (text ++ [0]) = some src := by
  induction src with
  | nil => exact ⟨[], rfl, rfl⟩
  | cons c src ih =>
      rw [List.mem_cons, not_or] at hnul
      obtain ⟨hc, hsrc⟩ := List.forall_mem_cons.mp hsrc
      obtain ⟨text, htext, hdecode⟩ := ih hnul.2 hsrc
      rw [Platform.encodeLoop]
      dsimp only
      by_cases halnum : platform.isalnum c = true
      · have hother : c ≠ percent := by
          rintro rfl
          rw [percent_not_alnum] at halnum
          cases halnum
        refine ⟨c :: text, ?_, ?_⟩
        · rw [if_pos halnum, htext]
          rfl
        · rw [List.cons_append, decodeLoop_plain (Ne.symm hnul.1) hother, hdecode, Option.map_some]
      · obtain ⟨high, low, hhigh, hlow, -, -, hback⟩ := hexAt_value platform (hc.resolve_left halnum)
        refine ⟨percent :: high :: low :: text, ?_, ?_⟩
        · rw [if_neg halnum, hhigh, hlow, htext]
          rfl
        · rw [List.cons_append, decodeLoop_percent, List.cons_append, List.cons_append]
          dsimp only
          rw [hdecode, Option.map_some, hback]

theorem encodeLoop_of_not_encodable {src : Bytes} (hsrc : ∃ c ∈ src, ¬Encodable platform c) :
    (platform.encodeLoop src).2 = none := by
  induction src with
  | nil =>
      obtain ⟨c, hc, -⟩ := hsrc
      cases hc
  | cons c src ih =>
      rw [Platform.encodeLoop]
      dsimp only
      by_cases hc : Encodable platform c
      · have hrest : (platform.encodeLoop src).2 = none := by
          apply ih
          obtain ⟨d, hd, hbad⟩ := hsrc
          rcases List.mem_cons.mp hd with rfl | hd
          · exact absurd hc hbad
          · exact ⟨d, hd, hbad⟩
        rw [hrest]
        split
        · rfl
        · simp
      · rw [Encodable, not_or, not_or, Bool.not_eq_false] at hc
        rw [if_neg hc.1, hexAt_of_negative platform hc.2.1 hc.2.2]
        rfl

theorem count_encodeLoop (src : Bytes) :
    (platform.encodeLoop src).1 + 2 * src.countP platform.isalnum = src.length * 3 := by
  induction src with
  | nil => rfl
  | cons c src ih =>
      rw [Platform.encodeLoop, List.countP_cons, List.length_cons]
      dsimp only
      split <;> omega

end Encoding

/-! ### Decoding -/

/-- Characters other than a percent sign, and percent signs with two characters behind them. -/
inductive Escaped : Bytes → Prop where
  | nil : Escaped []
  | plain {c : UInt8} {src : Bytes} (hother : c ≠ percent) (hsrc : Escaped src) : Escaped (c :: src)
  | escape {high low : UInt8} {src : Bytes} (hsrc : Escaped src) : Escaped (percent :: high :: low :: src)

theorem decodeLoop_ne_none_iff :
    ∀ {src : Bytes}, 0 ∉ src → (decodeLoop (src ++ [0]) ≠ none ↔ Escaped src)
  | [], _ => iff_of_true (Option.some_ne_none _) .nil
  | c :: src, hnul => by
      rw [List.mem_cons, not_or] at hnul
      rw [List.cons_append]
      by_cases hc : c = percent
      · subst hc
        rw [decodeLoop_percent]
        match src, hnul.2 with
        | [], _ =>
            refine iff_of_false (not_not.mpr rfl) ?_
            rintro (_ | ⟨hother, -⟩)
            exact hother rfl
        | [high], _ =>
            refine iff_of_false (not_not.mpr rfl) ?_
            rintro (_ | ⟨hother, -⟩)
            exact hother rfl
        | high :: low :: src, hnul =>
            rw [List.mem_cons, List.mem_cons, not_or, not_or] at hnul
            rw [List.cons_append, List.cons_append]
            dsimp only
            rw [Ne, Option.map_eq_none_iff, ← Ne, decodeLoop_ne_none_iff hnul.2.2]
            constructor
            · exact .escape
            · intro hescaped
              cases hescaped with
              | plain hother _ => exact absurd rfl hother
              | escape hsrc => exact hsrc
      · rw [decodeLoop_plain (Ne.symm hnul.1) hc, Ne, Option.map_eq_none_iff, ← Ne,
          decodeLoop_ne_none_iff hnul.2]
        constructor
        · exact .plain hc
        · intro hescaped
          cases hescaped with
          | plain _ hsrc => exact hsrc
          | escape hsrc => exact absurd rfl hc

/-! ### Both ways -/

/-- **The exact conditions of the URL encoder and decoder.** The encoder stays in its memory exactly where
something is copied, is undone by the decoder exactly where every character is encodable, and the decoder
stays in a string exactly where it is escaped. -/
theorem urlEncode_and_urlDecode_iff (platform : Platform) (src : CString) :
    ((urlEncode platform src).written ≤ (urlEncode platform src).allocated ↔
        ∃ c ∈ src.val, platform.isalnum c = true) ∧
      ((∃ text, (urlEncode platform src).text = some text ∧ urlDecode text = some src.val) ↔
        ∀ c ∈ src.val, Encodable platform c) ∧
      (urlDecode src ≠ none ↔ Escaped src) := by
  refine ⟨?_, ?_, decodeLoop_ne_none_iff src.property⟩
  · have hcount := count_encodeLoop platform src
    rw [← List.countP_pos_iff]
    show (platform.encodeLoop src).1 + 1 ≤ src.val.length * 3 ↔ _
    omega
  · constructor
    · rintro ⟨text, htext, -⟩ c hc
      by_contra hbad
      have hnone := encodeLoop_of_not_encodable platform ⟨c, hc, hbad⟩
      rw [show (platform.encodeLoop src).2 = some text from htext] at hnone
      cases hnone
    · exact encodeLoop_of_encodable platform src.property

/-- ASCII only, where a `char` has a sign. -/
def cLocale : Platform where
  charSigned := true
  isalnum := fun c => decide (c < 128) && isAsciiAlnum c
  isalnum_ascii := fun c hc => by rw [decide_eq_true hc, Bool.true_and]

/-- **A slash overruns the encoder's memory, an e with an acute accent in Latin-1 has no text, and the
decoder leaves a string that is one percent sign.** -/
theorem urlEncode_overruns :
    ¬(urlEncode cLocale [47]).written ≤ (urlEncode cLocale [47]).allocated ∧
      (urlEncode cLocale [233]).text = none ∧ urlDecode [percent] = none := by
  decide

end CLibp2p.Utils
