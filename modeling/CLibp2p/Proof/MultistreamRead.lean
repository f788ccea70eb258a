import CLibp2p.Proof.Multistream
import CLibp2p.Stream.Loop

/-!
# One length-prefixed message

What the writer puts on a stream the reader gets back, however the bytes come in. The length the reader
sees is the word that the groups leave in a `size_t`, and it is the one on the wire as long as that has
64 bits.
-/

namespace CLibp2p.Multistream

open Duplex Duplex.Prog

/-- Bytes with the high bit set, and one without. -/
def isVarint : Bytes → Bool
  | [] => false
  | byte :: rest => if byte &&& 0x80 = 0 then rest.isEmpty else isVarint rest

/-- The groups of seven bits, weighted by the powers of 128. -/
def varintValue : Bytes → Nat
  | [] => 0
  | byte :: rest => (byte &&& 0x7F).toNat + 128 * varintValue rest

/-- What the groups leave in a `size_t` that holds `msgLen` already. -/
def varintWord (mach : SizeShift) : (msgLen shift : UInt64) → Bytes → UInt64
  | msgLen, _, [] => msgLen
  | msgLen, shift, byte :: rest =>
      varintWord mach (msgLen ||| mach.shl (byte &&& 0x7F).toUInt64 shift) (shift + 7) rest

theorem isVarint_ne_nil {groups : Bytes} (hvarint : isVarint groups = true) : groups ≠ [] := by
  rintro rfl
  cases hvarint

/-! ### The word and the value -/

theorem varintWord_of_value_zero (mach : SizeShift) {groups : Bytes} (hzero : varintValue groups = 0)
    (msgLen shift : UInt64) : varintWord mach msgLen shift groups = msgLen := by
  induction groups generalizing msgLen shift with
  | nil => rfl
  | cons byte rest ih =>
      rw [varintValue, Nat.add_eq_zero_iff, Nat.mul_eq_zero] at hzero
      have hbyte : (byte &&& 0x7F).toUInt64 = 0 := UInt64.toNat_inj.mp (by simpa using hzero.1)
      rw [varintWord, hbyte, mach.shl_zero, UInt64.or_zero]
      exact ih (hzero.2.resolve_left (by decide)) msgLen (shift + 7)

/-- A value of 64 bits at most arrives as it is, padded or not. -/
theorem varintWord_toNat (mach : SizeShift) (groups : Bytes) {msgLen : UInt64} {count : Nat}
    (hmsgLen : msgLen.toNat < 2 ^ (7 * count))
    (hfits : msgLen.toNat + varintValue groups * 2 ^ (7 * count) < 2 ^ 64) :
    (varintWord mach msgLen (UInt64.ofNat (7 * count)) groups).toNat =
      msgLen.toNat + varintValue groups * 2 ^ (7 * count) := by
  induction groups generalizing msgLen count with
  | nil => rw [varintWord, varintValue, Nat.zero_mul, Nat.add_zero]
  | cons byte rest ih =>
      by_cases hzero : varintValue (byte :: rest) = 0
      · rw [varintWord_of_value_zero mach hzero, hzero, Nat.zero_mul, Nat.add_zero]
      have hpow : 2 ^ (7 * count) < 2 ^ 64 := by
        have hmul := Nat.mul_le_mul_right (2 ^ (7 * count)) (Nat.one_le_iff_ne_zero.mpr hzero)
        omega
      have hshift : 7 * count < 64 := (Nat.pow_lt_pow_iff_right (by decide)).mp hpow
      have hnext : 2 ^ (7 * (count + 1)) = 128 * 2 ^ (7 * count) := by
        rw [Nat.mul_add, Nat.pow_add, Nat.mul_comm]
      have hlow := low_lt byte
      have hsplit : varintValue (byte :: rest) * 2 ^ (7 * count) =
          (byte &&& 0x7F).toNat * 2 ^ (7 * count) + varintValue rest * 2 ^ (7 * (count + 1)) := by
        rw [varintValue, hnext]
        ring
      have hgroup : (msgLen ||| mach.shl (byte &&& 0x7F).toUInt64 (UInt64.ofNat (7 * count))).toNat =
          msgLen.toNat + (byte &&& 0x7F).toNat * 2 ^ (7 * count) := by
        rw [toUInt64_low, or_shl_group mach hlow hshift hmsgLen, Nat.mod_eq_of_lt (by omega)]
      have hbound : msgLen.toNat + (byte &&& 0x7F).toNat * 2 ^ (7 * count) < 2 ^ (7 * (count + 1)) := by
        have hmul := Nat.mul_le_mul_right (2 ^ (7 * count)) (Nat.le_of_lt_succ hlow)
        omega
      rw [varintWord, shift_add_seven, ih (by rwa [hgroup]) (by rw [hgroup]; omega), hgroup, hsplit]
      omega

theorem varintWord_eq_value (mach : SizeShift) {groups : Bytes} (hsmall : varintValue groups < 2 ^ 64) :
    (varintWord mach 0 0 groups).toNat = varintValue groups := by
  have hzero : (0 : UInt64).toNat < 2 ^ (7 * 0) := by decide
  have hfits : (0 : UInt64).toNat + varintValue groups * 2 ^ (7 * 0) < 2 ^ 64 := by
    simpa using hsmall
  calc (varintWord mach 0 0 groups).toNat
      = (0 : UInt64).toNat + varintValue groups * 2 ^ (7 * 0) := varintWord_toNat mach groups hzero hfits
    _ = varintValue groups := by simp

/-- Of ten bytes the last one loses all bits but one. -/
theorem varintWord_toNat_of_length_le (mach : SizeShift) (groups : Bytes) {msgLen : UInt64} {count : Nat}
    (hmsgLen : msgLen.toNat < 2 ^ (7 * count)) (hlength : count + groups.length ≤ 10) :
    (varintWord mach msgLen (UInt64.ofNat (7 * count)) groups).toNat =
      (msgLen.toNat + varintValue groups * 2 ^ (7 * count)) % 2 ^ 64 := by
  induction groups generalizing msgLen count with
  | nil =>
      rw [varintWord, varintValue, Nat.zero_mul, Nat.add_zero]
      exact (Nat.mod_eq_of_lt msgLen.toNat_lt).symm
  | cons byte rest ih =>
      rw [List.length_cons] at hlength
      have hlow := low_lt byte
      have hnext : 2 ^ (7 * (count + 1)) = 128 * 2 ^ (7 * count) := by
        rw [Nat.mul_add, Nat.pow_add, Nat.mul_comm]
      have hgroup : (msgLen ||| mach.shl (byte &&& 0x7F).toUInt64 (UInt64.ofNat (7 * count))).toNat =
          msgLen.toNat + (byte &&& 0x7F).toNat * 2 ^ (7 * count) % 2 ^ 64 := by
        rw [toUInt64_low, or_shl_group mach hlow (by omega) hmsgLen]
      have hsplit : msgLen.toNat + varintValue (byte :: rest) * 2 ^ (7 * count) =
          msgLen.toNat + (byte &&& 0x7F).toNat * 2 ^ (7 * count) +
            varintValue rest * 2 ^ (7 * (count + 1)) := by
        rw [varintValue, hnext]
        ring
      have hbound : msgLen.toNat + (byte &&& 0x7F).toNat * 2 ^ (7 * count) % 2 ^ 64 <
          2 ^ (7 * (count + 1)) := by
        have hmul := Nat.mul_le_mul_right (2 ^ (7 * count)) (Nat.le_of_lt_succ hlow)
        have hmod := Nat.mod_le ((byte &&& 0x7F).toNat * 2 ^ (7 * count)) (2 ^ 64)
        omega
      rw [varintWord, shift_add_seven, ih (by rwa [hgroup]) (by omega), hgroup, hsplit]
      omega

/-- The length that the reader sees: the value modulo `2 ^ 64`, as long as no group is shifted by 64 or more. -/
def lengthSeen (mach : SizeShift) (groups : Bytes) : Nat :=
  if groups.length ≤ 10 then varintValue groups % 2 ^ 64 else (varintWord mach 0 0 groups).toNat

theorem varintWord_eq_lengthSeen (mach : SizeShift) (groups : Bytes) :
    (varintWord mach 0 0 groups).toNat = lengthSeen mach groups := by
  rw [lengthSeen]
  split
  · rename_i hlength
    have hzero : (0 : UInt64).toNat < 2 ^ (7 * 0) := by decide
    calc (varintWord mach 0 0 groups).toNat
        = ((0 : UInt64).toNat + varintValue groups * 2 ^ (7 * 0)) % 2 ^ 64 :=
          varintWord_toNat_of_length_le mach groups hzero (by rwa [Nat.zero_add])
      _ = varintValue groups % 2 ^ 64 := by simp
  · rfl

/-! ### Reading -/

/-- A pass of the loop for the length that gets its byte. -/
theorem run_readMsgLen_byte (mach : SizeShift) (rounds : Nat) (msgLen shift : UInt64) {byte : UInt8}
    {w : Wire UInt8 Empty Unit} (hread : (w.read 1).1 = [byte]) :
    (readMsgLen mach (rounds + 1) msgLen shift).run w =
      (if byte &&& 0x80 = 0 then .done (some (msgLen ||| mach.shl (byte &&& 0x7F).toUInt64 shift))
      else readMsgLen mach rounds (msgLen ||| mach.shl (byte &&& 0x7F).toUInt64 shift)
        (shift + 7)).run (w.read 1).2 := by
  rw [readMsgLen, Prog.run, hread]

/-- The loop for the length ends after a varint or fails. -/
theorem run_readMsgLen (mach : SizeShift) (rounds : Nat) (msgLen shift : UInt64)
    (w : Wire UInt8 Empty Unit) :
    (∃ groups w', isVarint groups = true ∧ groups <+: w.inbound ∧ w.Took groups.length w' ∧
        (readMsgLen mach rounds msgLen shift).run w = (some (varintWord mach msgLen shift groups), w')) ∨
      ∃ w', (readMsgLen mach rounds msgLen shift).run w = (none, w') := by
  induction rounds generalizing msgLen shift w with
  | zero => exact Or.inr ⟨w, rfl⟩
  | succ rounds ih =>
      obtain ⟨hempty, -⟩ | ⟨n, hpos, hle, hread, htook⟩ := w.read_cases 1
      · refine Or.inr ⟨(w.read 1).2, ?_⟩
        rw [readMsgLen, Prog.run, hempty]
        rfl
      obtain rfl : n = 1 := by omega
      cases hinbound : w.inbound with
      | nil =>
          have henough := htook.enough
          rw [hinbound] at henough
          exact absurd henough (by simp)
      | cons byte rest =>
          rw [hinbound, List.take_succ_cons, List.take_zero] at hread
          have hrest : (w.read 1).2.inbound = rest := by
            rw [htook.inbound, hinbound, List.drop_succ_cons, List.drop_zero]
          rw [run_readMsgLen_byte mach rounds msgLen shift hread]
          by_cases hlast : byte &&& 0x80 = 0
          · rw [if_pos hlast]
            refine Or.inl ⟨[byte], (w.read 1).2, ?_, ⟨rest, rfl⟩, htook, rfl⟩
            rw [isVarint, if_pos hlast]
            rfl
          · rw [if_neg hlast]
            obtain ⟨groups, w', hvarint, hprefix, htook', hrun'⟩ | ⟨w', hrun'⟩ :=
              ih (msgLen ||| mach.shl (byte &&& 0x7F).toUInt64 shift) (shift + 7) (w.read 1).2
            · rw [hrest] at hprefix
              refine Or.inl ⟨byte :: groups, w', ?_, List.cons_prefix_cons.mpr ⟨rfl, hprefix⟩, ?_, hrun'⟩
              · rw [isVarint, if_neg hlast, hvarint]
              · rw [List.length_cons, Nat.add_comm]
                exact htook.trans htook'
            · exact Or.inr ⟨w', hrun'⟩

/-- On a live wire it gets past the varint that is there. -/
theorem run_readMsgLen_live (mach : SizeShift) {groups rest : Bytes} (hvarint : isVarint groups = true)
    {rounds : Nat} (hrounds : groups.length ≤ rounds) (msgLen shift : UInt64)
    {w : Wire UInt8 Empty Unit} (hlive : w.Live) (hinbound : w.inbound = groups ++ rest) :
    ∃ w', (readMsgLen mach rounds msgLen shift).run w = (some (varintWord mach msgLen shift groups), w') ∧
      w'.Live ∧ w'.inbound = rest := by
  induction groups generalizing rounds msgLen shift w with
  | nil => cases hvarint
  | cons byte groups ih =>
      obtain ⟨rounds, rfl⟩ : ∃ n, rounds = n + 1 := ⟨rounds - 1, by rw [List.length_cons] at hrounds; omega⟩
      obtain ⟨hread, htook, hlive'⟩ := hlive.read_one hinbound
      have hrest : (w.read 1).2.inbound = groups ++ rest := by
        rw [htook.inbound, hinbound]
        rfl
      rw [run_readMsgLen_byte mach rounds msgLen shift hread]
      rw [isVarint] at hvarint
      by_cases hlast : byte &&& 0x80 = 0
      · rw [if_pos hlast] at hvarint ⊢
        obtain rfl : groups = [] := List.isEmpty_iff.mp hvarint
        exact ⟨(w.read 1).2, rfl, hlive', hrest⟩
      · rw [if_neg hlast] at hvarint ⊢
        exact ih hvarint (by rw [List.length_cons] at hrounds; omega) _ _ hlive' hrest

/-- A live wire with a whole message gives it, when the word in front of it is below `maxLen`. -/
theorem run_readProtocol_live (mach : SizeShift) {groups rest : Bytes} (hvarint : isVarint groups = true)
    {rounds : Nat} (hrounds : groups.length ≤ rounds) {maxLen : UInt64}
    (hmax : varintWord mach 0 0 groups < maxLen)
    (henough : (varintWord mach 0 0 groups).toNat ≤ rest.length)
    {w : Wire UInt8 Empty Unit} (hlive : w.Live) (hinbound : w.inbound = groups ++ rest) :
    ∃ w', (readProtocol mach rounds maxLen).run w =
        (some (rest.take (varintWord mach 0 0 groups).toNat), w') ∧
      w'.Live ∧ w'.inbound = rest.drop (varintWord mach 0 0 groups).toNat := by
  have hpos : maxLen ≠ 0 := by
    rintro rfl
    rw [UInt64.lt_iff_toNat_lt] at hmax
    exact Nat.not_lt_zero _ hmax
  obtain ⟨w₁, hlength, hlive₁, hinbound₁⟩ :=
    run_readMsgLen_live mach hvarint hrounds 0 0 hlive hinbound
  have henough₁ : (varintWord mach 0 0 groups).toNat ≤ w₁.inbound.length := by
    rw [hinbound₁]
    exact henough
  obtain ⟨w₂, hbody, htook, hlive₂⟩ := run_readExactly_live hlive₁ henough₁
  refine ⟨w₂, ?_, hlive₂, by rw [htook.inbound, hinbound₁]⟩
  rw [readProtocol, readLengthPrefixedMsg, if_neg hpos, run_bind, hlength]
  dsimp only
  rw [if_neg (UInt64.not_le.mpr hmax), hbody, hinbound₁]

/-- What the reader can have done when it succeeds. -/
theorem readProtocol_some (mach : SizeShift) {rounds : Nat} {maxLen : UInt64}
    {w w' : Wire UInt8 Empty Unit} {out : Bytes}
    (hrun : (readProtocol mach rounds maxLen).run w = (some out, w')) :
    ∃ groups rest, w.inbound = groups ++ rest ∧ isVarint groups = true ∧
      varintWord mach 0 0 groups < maxLen ∧ (varintWord mach 0 0 groups).toNat ≤ rest.length ∧
      out = rest.take (varintWord mach 0 0 groups).toNat ∧
      w'.inbound = rest.drop (varintWord mach 0 0 groups).toNat := by
  rw [readProtocol, readLengthPrefixedMsg] at hrun
  split at hrun
  · cases hrun
  rw [run_bind] at hrun
  obtain ⟨groups, w₁, hvarint, ⟨rest, hsplit⟩, htook, hlength⟩ | ⟨w₁, hlength⟩ :=
    run_readMsgLen mach rounds 0 0 w
  · rw [hlength] at hrun
    dsimp only at hrun
    split at hrun
    · cases hrun
    rename_i hmax
    have hinbound₁ : w₁.inbound = rest := by
      rw [htook.inbound, ← hsplit, List.drop_left]
    obtain ⟨w₂, hbody, htook₂⟩ | ⟨w₂, hbody, -⟩ :=
      run_readExactly (varintWord mach 0 0 groups).toNat w₁
    · rw [hbody, hinbound₁] at hrun
      cases hrun
      refine ⟨groups, rest, hsplit.symm, hvarint, UInt64.not_le.mp hmax, ?_, rfl, ?_⟩
      · rw [← hinbound₁]
        exact htook₂.enough
      · rw [htook₂.inbound, hinbound₁]
    · rw [hbody] at hrun
      cases hrun
  · rw [hlength] at hrun
    cases hrun

/-! ### What the writer sends -/

theorem isVarint_lengthHeader {room len : Nat} (hpos : 0 < room) (hroom : len < 128 ^ room) :
    isVarint (lengthHeader room len) = true ∧ varintValue (lengthHeader room len) = len ∧
      (lengthHeader room len).length ≤ room := by
  induction room generalizing len with
  | zero => omega
  | succ room ih =>
      have hlow : len &&& 0x7F = len % 128 := Nat.and_two_pow_sub_one_eq_mod len 7
      have hhigh : len >>> 7 = len / 128 := Nat.shiftRight_eq_div_pow len 7
      obtain ⟨hbyte, hlast, hbyte', hmore⟩ := seven_bits ⟨len % 128, Nat.mod_lt len (by decide)⟩
      rw [lengthHeader, hlow, hhigh]
      by_cases hrest : 0 < len / 128
      · have hroom' : len / 128 < 128 ^ room := by
          rw [Nat.pow_succ] at hroom
          omega
        have hpos' : 0 < room := by
          by_contra hzero
          obtain rfl : room = 0 := by omega
          omega
        obtain ⟨hvarint, hvalue, hlength⟩ := ih hpos' hroom'
        rw [if_pos hrest]
        refine ⟨?_, ?_, ?_⟩
        · rw [isVarint, if_neg hmore, hvarint]
        · rw [varintValue, hbyte', hvalue]
          exact Nat.mod_add_div len 128
        · rw [List.length_cons]
          omega
      · have hsmall : len % 128 = len := Nat.mod_eq_of_lt (by omega)
        rw [if_neg hrest]
        refine ⟨?_, ?_, ?_⟩
        · rw [isVarint, if_pos hlast]
          rfl
        · rw [varintValue, hbyte, varintValue, Nat.mul_zero, Nat.add_zero]
          exact hsmall
        · rw [List.length_singleton]
          omega

/-- A write that reports success put the whole message on the stream. -/
theorem run_writeProtocol {protocol written : Bytes} {out out' : Wire UInt8 Empty Unit}
    (hwrite : (writeProtocol protocol).run out = (true, out'))
    (hwritten : out'.outbound = out.outbound ++ written) : written = framed protocol := by
  rw [writeProtocol, writeLengthPrefixedMsg, ← framed, run_bind, run_send] at hwrite
  obtain ⟨chunk, hprefix, hsent, hret⟩ := out.write_cases (framed protocol)
  have hcount : 0 < (out.write (framed protocol)).1 ∧
      (out.write (framed protocol)).1 = (framed protocol).length :=
    of_decide_eq_true (congrArg Prod.fst hwrite)
  have hout' : (out.write (framed protocol)).2 = out' := congrArg Prod.snd hwrite
  have hchunk : chunk = framed protocol := by
    refine hprefix.eq_of_length ?_
    omega
  rw [Wire.outbound, ← hout', hsent, List.flatten_append, Wire.outbound, List.append_cancel_left_eq]
    at hwritten
  rw [← hwritten, hchunk]
  simp

/-- **A protocol string goes through.** Whatever follows it on the stream and however reads are split,
the reader gets the string that was written, and the stream is left just after it. -/
theorem readProtocol_writeProtocol (mach : SizeShift) {protocol : Bytes} (hnul : (0 : UInt8) ∉ protocol)
    {maxLen : UInt64} (hmax : protocol.length < maxLen.toNat) {rounds : Nat} (hrounds : 10 ≤ rounds)
    {out out' : Wire UInt8 Empty Unit} {written : Bytes}
    (hwrite : (writeProtocol protocol).run out = (true, out'))
    (hwritten : out'.outbound = out.outbound ++ written)
    {w : Wire UInt8 Empty Unit} (hlive : w.Live) {rest : Bytes} (hinbound : w.inbound = written ++ rest) :
    ∃ w', (readProtocol mach rounds maxLen).run w = (some protocol, w') ∧
      cString (protocol ++ [0]) = protocol ∧ w'.Live ∧ w'.inbound = rest := by
  obtain rfl := run_writeProtocol hwrite hwritten
  have hsize : protocol.length < 2 ^ 64 := lt_trans hmax maxLen.toNat_lt
  obtain ⟨hvarint, hvalue, hlength⟩ :=
    isVarint_lengthHeader (show 0 < 10 by decide) (lt_trans hsize (by decide))
  have hword : (varintWord mach 0 0 (lengthHeader 10 protocol.length)).toNat = protocol.length := by
    rw [varintWord_eq_value mach (by rwa [hvalue]), hvalue]
  have hmax' : varintWord mach 0 0 (lengthHeader 10 protocol.length) < maxLen := by
    rwa [UInt64.lt_iff_toNat_lt, hword]
  rw [framed, List.append_assoc] at hinbound
  obtain ⟨w', hrun, hlive', hinbound'⟩ := run_readProtocol_live mach hvarint (le_trans hlength hrounds)
    hmax' (by rw [hword]; simp) hlive hinbound
  rw [hword, List.take_left] at hrun
  rw [hword, List.drop_left] at hinbound'
  refine ⟨w', hrun, ?_, hlive', hinbound'⟩
  rw [cString, List.takeWhile_append_of_pos]
  · simp
  · intro byte hbyte
    rw [decide_eq_true_eq]
    rintro rfl
    exact hnul hbyte

/-- A wire that takes what is written and has nothing inbound. -/
def emptyWire : Wire UInt8 Empty Unit := Wire.fresh [] [] [] []

/-- A string of 130 bytes, whose length takes two, read in four parts with one byte behind it. -/
theorem readProtocol_writeProtocol_long :
    ∃ w', (readProtocol .masked 10 1000).run { emptyWire with
          inbound := framed (List.replicate 130 47) ++ [7], grants := [1, 1, 80] } =
        (some (List.replicate 130 47), w') ∧
      cString (List.replicate 130 47 ++ [0]) = List.replicate 130 47 ∧ w'.Live ∧ w'.inbound = [7] := by
  have hwrite : (writeProtocol (List.replicate 130 47)).run emptyWire =
      (true, (emptyWire.write (framed (List.replicate 130 47))).2) := by
    rw [writeProtocol, writeLengthPrefixedMsg, ← framed, run_bind, run_send]
    exact Prod.ext (by decide +kernel) rfl
  have hwritten : (emptyWire.write (framed (List.replicate 130 47))).2.outbound =
      emptyWire.outbound ++ framed (List.replicate 130 47) := by
    decide +kernel
  exact readProtocol_writeProtocol .masked (by simp) (by simp) le_rfl hwrite hwritten
    ⟨rfl, rfl, by decide⟩ rfl

/-! ### What a hostile peer can send -/

/-- Of `bytes` a varint below `maxLen` was taken and as many bytes as it says, which are `out`. -/
def ReadsVarint (bytes : Bytes) (maxLen : UInt64) (out left : Bytes) : Prop :=
  ∃ groups rest, bytes = groups ++ rest ∧ isVarint groups = true ∧
    varintValue groups < maxLen.toNat ∧ varintValue groups ≤ rest.length ∧
    out = rest.take (varintValue groups) ∧ left = rest.drop (varintValue groups)

/-- No varint goes on where another one ends. -/
theorem isVarint_append_inj {groups groups' rest rest' : Bytes} (hvarint : isVarint groups = true)
    (hvarint' : isVarint groups' = true) (happend : groups ++ rest = groups' ++ rest') :
    groups = groups' ∧ rest = rest' := by
  induction groups generalizing groups' with
  | nil => cases hvarint
  | cons byte groups ih =>
      cases groups' with
      | nil => cases hvarint'
      | cons byte' groups' =>
          obtain ⟨rfl, htail⟩ := List.cons.inj happend
          rw [isVarint] at hvarint hvarint'
          split at hvarint
          · rename_i hlast
            rw [if_pos hlast] at hvarint'
            obtain rfl := List.isEmpty_iff.mp hvarint
            obtain rfl := List.isEmpty_iff.mp hvarint'
            exact ⟨rfl, htail⟩
          · rename_i hmore
            rw [if_neg hmore] at hvarint'
            obtain ⟨rfl, hrest⟩ := ih hvarint hvarint' htail
            exact ⟨rfl, hrest⟩

/-- **What a hostile peer can send.** For all bytes on the stream: however they come in, a message that
is read is the one that the varint announces, if and only if the varint has 64 bits at most, or else the
length that is seen is refused or has too few bytes behind it. -/
theorem readProtocol_exact_iff (mach : SizeShift) (maxLen : UInt64) (bytes : Bytes) :
    (∀ (rounds : Nat) (w w' : Wire UInt8 Empty Unit) (out : Bytes), w.inbound = bytes →
        (readProtocol mach rounds maxLen).run w = (some out, w') →
        ReadsVarint bytes maxLen out w'.inbound) ↔
      ∀ groups rest, bytes = groups ++ rest → isVarint groups = true →
        varintValue groups < 2 ^ 64 ∨ maxLen.toNat ≤ lengthSeen mach groups ∨
          rest.length < lengthSeen mach groups := by
  simp only [← varintWord_eq_lengthSeen]
  constructor
  · intro hreads groups rest hsplit hvarint
    by_contra hbad
    rw [not_or, not_or, not_lt, not_lt, not_le, ← UInt64.lt_iff_toNat_lt] at hbad
    obtain ⟨hlarge, hmax, henough⟩ := hbad
    obtain ⟨w', hrun, -, hinbound'⟩ := run_readProtocol_live mach hvarint le_rfl hmax henough
      (w := Wire.fresh bytes [] [] []) ⟨rfl, rfl, by simp [Wire.fresh]⟩ hsplit
    obtain ⟨groups', rest', hsplit', hvarint', hvalue, -⟩ := hreads _ _ _ _ rfl hrun
    obtain ⟨rfl, -⟩ := isVarint_append_inj hvarint hvarint' (hsplit.symm.trans hsplit')
    exact absurd (lt_trans hvalue maxLen.toNat_lt) (not_lt.mpr hlarge)
  · rintro hcondition rounds w w' out rfl hrun
    obtain ⟨groups, rest, hsplit, hvarint, hmax, henough, hout, hleft⟩ := readProtocol_some mach hrun
    rcases hcondition groups rest hsplit hvarint with hsmall | hrefused | hfew
    · have hword := varintWord_eq_value mach hsmall
      rw [UInt64.lt_iff_toNat_lt, hword] at hmax
      rw [hword] at henough hout hleft
      exact ⟨groups, rest, hsplit, hvarint, hmax, henough, hout, hleft⟩
    · exact absurd (UInt64.le_iff_toNat_le.mpr hrefused) (UInt64.not_le.mpr hmax)
    · exact absurd henough (not_le.mpr hfew)

/-- `80 80 80 80 80 80 80 80 80 02` stands for `2 ^ 64` and is read as the empty message. -/
theorem readProtocol_exact_overlong :
    ¬∀ (mach : SizeShift) (maxLen : UInt64) (bytes : Bytes) (rounds : Nat)
        (w w' : Wire UInt8 Empty Unit) (out : Bytes), w.inbound = bytes →
      (readProtocol mach rounds maxLen).run w = (some out, w') →
      ReadsVarint bytes maxLen out w'.inbound := by
  intro hclaim
  have hvarint : isVarint [0x80, 0x80, 0x80, 0x80, 0x80, 0x80, 0x80, 0x80, 0x80, 2] = true := by
    decide
  obtain ⟨groups, rest, hsplit, hvarint', hvalue, -⟩ := hclaim .masked 256
    [0x80, 0x80, 0x80, 0x80, 0x80, 0x80, 0x80, 0x80, 0x80, 2] 10
    (Wire.fresh [0x80, 0x80, 0x80, 0x80, 0x80, 0x80, 0x80, 0x80, 0x80, 2] [] [] []) _ [] rfl rfl
  obtain ⟨rfl, -⟩ := isVarint_append_inj hvarint hvarint' ((List.append_nil _).trans hsplit)
  exact absurd hvalue (by decide)

end CLibp2p.Multistream
