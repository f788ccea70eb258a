import CLibp2p.Net.Multistream
import CLibp2p.Stream.Net
import Mathlib.Data.List.TakeWhile
import Mathlib.Tactic.Ring

/-!
# Both sides of a multistream negotiation agree

Each message that one side writes is the one that the other side reads, however the channel splits it,
and an id that fits the buffers comes back as it was proposed. So client and server end with the same
answer, which is whether the id is the one the server expects.
-/

namespace CLibp2p.Multistream

open Duplex Duplex.Prog

/-! ### The length of a message -/

theorem seven_bits : ∀ i : Fin 128, (UInt8.ofNat i &&& 0x7F).toNat = i ∧ UInt8.ofNat i &&& 0x80 = 0 ∧
    ((UInt8.ofNat i ||| 0x80) &&& 0x7F).toNat = i ∧ (UInt8.ofNat i ||| 0x80) &&& 0x80 ≠ 0 := by
  decide

theorem toNat_mul_seven {count : Nat} (hcount : 7 * count < 64) :
    (UInt64.ofNat (7 * count)).toNat = 7 * count :=
  UInt64.toNat_ofNat_of_lt' (lt_trans hcount (by decide))

/-- One group goes in above those that are there. -/
theorem or_shl_group (mach : SizeShift) {msgLen : UInt64} {low count : Nat} (hlow : low < 128)
    (hshift : 7 * count < 64) (hmsgLen : msgLen.toNat < 2 ^ (7 * count)) :
    (msgLen ||| mach.shl (UInt64.ofNat low) (UInt64.ofNat (7 * count))).toNat =
      msgLen.toNat + low * 2 ^ (7 * count) % 2 ^ 64 := by
  have hcount := toNat_mul_seven hshift
  have hlow64 : (UInt64.ofNat low).toNat = low :=
    UInt64.toNat_ofNat_of_lt' (lt_trans hlow (by decide))
  have hfactor : low * 2 ^ (7 * count) % 2 ^ 64 = 2 ^ (7 * count) * (low % 2 ^ (64 - 7 * count)) := by
    have hpow : 2 ^ 64 = 2 ^ (7 * count) * 2 ^ (64 - 7 * count) := by
      rw [← Nat.pow_add]
      congr 1
      omega
    rw [hpow, Nat.mul_comm low, Nat.mul_mod_mul_left]
  rw [mach.shl_of_lt _ _ (by rw [UInt64.lt_iff_toNat_lt, hcount]; exact hshift), UInt64.toNat_or,
    UInt64.toNat_shiftLeft, hcount, hlow64, Nat.mod_eq_of_lt hshift, Nat.shiftLeft_eq, hfactor,
    Nat.or_comm, ← Nat.two_pow_add_eq_or_of_lt hmsgLen, Nat.add_comm]

theorem low_lt (byte : UInt8) : (byte &&& 0x7F).toNat < 128 := by
  have hand := Nat.and_lt_two_pow byte.toNat (show (0x7F : UInt8).toNat < 2 ^ 7 by decide)
  rwa [← UInt8.toNat_and] at hand

theorem toUInt64_low (byte : UInt8) :
    (byte &&& 0x7F).toUInt64 = UInt64.ofNat (byte &&& 0x7F).toNat := by
  apply UInt64.toNat_inj.mp
  rw [UInt8.toNat_toUInt64, UInt64.toNat_ofNat_of_lt' (lt_trans (low_lt byte) (by decide))]

theorem shift_add_seven (count : Nat) :
    UInt64.ofNat (7 * count) + 7 = UInt64.ofNat (7 * (count + 1)) := by
  apply UInt64.toNat_inj.mp
  simp only [UInt64.toNat_add, UInt64.toNat_ofNat', UInt64.reduceToNat]
  omega

/-! ### Over the channel -/

section

variable {α β : Type} {atom : Nat} {answer : Empty → Unit} {good : α → β → Prop}
variable {q : Talk β} {toRight : Bytes}

theorem left_readByte {next : Bytes → Talk α} {byte : UInt8} {toLeft : Bytes} (hidle : Idle q toRight)
    (hends : Net.Ends atom answer answer good ⟨next [byte], q, toLeft, toRight⟩) :
    Net.Ends atom answer answer good ⟨.read 1 next, q, byte :: toLeft, toRight⟩ := by
  have hmin : min 1 (byte :: toLeft).length = 1 := Nat.min_eq_left (by simp)
  refine .left hidle ⟨_, _, _, .read Nat.one_pos (le_of_eq hmin.symm) (Or.inl hmin.symm)⟩
    fun p' toLeft' out hacts => ?_
  cases hacts with
  | read hpos hbound hall =>
      rename_i n
      obtain rfl : n = 1 := by omega
      rwa [List.append_nil]

theorem left_readMsgLen (mach : SizeShift) {next : Option UInt64 → Talk α} {toLeft : Bytes}
    (hidle : Idle q toRight) {room rounds len count : Nat} {msgLen : UInt64} (hroom : len < 128 ^ room)
    (hrounds : room ≤ rounds) (hpos : 0 < room) (hshift : 7 * count < 64)
    (hmsgLen : msgLen.toNat < 2 ^ (7 * count)) (hfits : msgLen.toNat + len * 2 ^ (7 * count) < 2 ^ 64)
    (hends : Net.Ends atom answer answer good
      ⟨next (some (UInt64.ofNat (msgLen.toNat + len * 2 ^ (7 * count)))), q, toLeft, toRight⟩) :
    Net.Ends atom answer answer good
      ⟨readMsgLen mach rounds msgLen (UInt64.ofNat (7 * count)) >>= next, q, lengthHeader room len ++ toLeft,
        toRight⟩ := by
  induction room generalizing rounds len count msgLen with
  | zero => omega
  | succ room ih =>
      obtain ⟨rounds, rfl⟩ : ∃ n, rounds = n + 1 := ⟨rounds - 1, by omega⟩
      have hlow : len &&& 0x7F = len % 128 := Nat.and_two_pow_sub_one_eq_mod len 7
      have hhigh : len >>> 7 = len / 128 := Nat.shiftRight_eq_div_pow len 7
      have hmod : len % 128 < 128 := Nat.mod_lt len (by decide)
      obtain ⟨hbyte, hlast, hbyte', hmore⟩ := seven_bits ⟨len % 128, hmod⟩
      have hnext : 2 ^ (7 * (count + 1)) = 128 * 2 ^ (7 * count) := by
        rw [Nat.mul_add, Nat.pow_add, Nat.mul_comm]
      have hsplit : len % 128 * 2 ^ (7 * count) + len / 128 * 2 ^ (7 * (count + 1)) = len * 2 ^ (7 * count) := by
        have hlen := Nat.mod_add_div len 128
        rw [hnext]
        calc len % 128 * 2 ^ (7 * count) + len / 128 * (128 * 2 ^ (7 * count))
            = (len % 128 + 128 * (len / 128)) * 2 ^ (7 * count) := by ring
          _ = len * 2 ^ (7 * count) := by rw [hlen]
      have hor : (msgLen ||| mach.shl (UInt64.ofNat (len % 128)) (UInt64.ofNat (7 * count))).toNat =
          msgLen.toNat + len % 128 * 2 ^ (7 * count) := by
        rw [or_shl_group mach hmod hshift hmsgLen, Nat.mod_eq_of_lt (by omega)]
      rw [lengthHeader, hlow, hhigh]
      by_cases hrest : 0 < len / 128
      · rw [if_pos hrest]
        refine left_readByte hidle ?_
        dsimp only
        rw [toUInt64_low, hbyte', if_neg hmore, shift_add_seven]
        have hbound : msgLen.toNat + len % 128 * 2 ^ (7 * count) < 2 ^ (7 * (count + 1)) := by
          have hmul := Nat.mul_le_mul_right (2 ^ (7 * count)) (Nat.le_of_lt_succ hmod)
          omega
        have hshift' : 7 * (count + 1) < 64 := by
          have hmul := Nat.mul_le_mul_right (2 ^ (7 * (count + 1))) hrest
          exact (Nat.pow_lt_pow_iff_right (by decide)).mp (show 2 ^ (7 * (count + 1)) < 2 ^ 64 by omega)
        refine ih (by rw [Nat.pow_succ] at hroom; omega) (by omega) ?_ hshift' (by rwa [hor])
          (by rw [hor]; omega) ?_
        · by_contra hzero
          obtain rfl : room = 0 := by omega
          omega
        · rwa [hor, Nat.add_assoc, hsplit]
      · rw [if_neg hrest]
        refine left_readByte hidle ?_
        have hzero : len / 128 = 0 := by omega
        rw [hzero, Nat.zero_mul, Nat.add_zero] at hsplit
        have hword : msgLen ||| mach.shl (UInt64.ofNat (len % 128)) (UInt64.ofNat (7 * count)) =
            UInt64.ofNat (msgLen.toNat + len * 2 ^ (7 * count)) := by
          rw [← hsplit, ← hor, UInt64.ofNat_toNat]
        dsimp only
        rw [toUInt64_low, hbyte, if_pos hlast, hword]
        exact hends

/-- A message on the wire. -/
def framed (msg : Bytes) : Bytes := lengthHeader 10 msg.length ++ msg

theorem length_framed_pos (msg : Bytes) : 0 < (framed msg).length := by
  have hheader : (lengthHeader 10 msg.length).length ≠ 0 := by
    rw [lengthHeader]
    split <;> simp
  rw [framed, List.length_append]
  omega

/-- The negotiation reads into buffers of 256 bytes. -/
theorem left_readMsg (mach : SizeShift) {next : Option Bytes → Talk α} {rounds : Nat} {msg toLeft : Bytes}
    (hidle : Idle q toRight) (hrounds : 10 ≤ rounds) (hmax : msg.length < 256)
    (hends : Net.Ends atom answer answer good ⟨next (some msg), q, toLeft, toRight⟩) :
    Net.Ends atom answer answer good
      ⟨readLengthPrefixedMsg mach rounds 256 >>= next, q, framed msg ++ toLeft, toRight⟩ := by
  have hword : (UInt64.ofNat msg.length).toNat = msg.length :=
    UInt64.toNat_ofNat_of_lt' (lt_trans hmax (by decide))
  have hfits : ¬(256 : UInt64) ≤ UInt64.ofNat msg.length := by
    rw [UInt64.not_le, UInt64.lt_iff_toNat_lt, hword]
    exact hmax
  rw [framed, List.append_assoc, readLengthPrefixedMsg, if_neg (by decide), Prog.bind_assoc]
  refine @left_readMsgLen _ _ _ _ _ _ _ mach _ _ hidle 10 rounds msg.length 0 0 (by omega) hrounds (by decide)
    (by decide) (by decide) (by simp; omega) ?_
  have hlen : (0 : UInt64).toNat + msg.length * 2 ^ (7 * 0) = msg.length := by simp
  rw [hlen]
  dsimp only
  rw [if_neg hfits, hword]
  refine Net.Ends.left_readLoop msg.length hidle le_rfl (by simp) ?_
  simpa using hends

theorem left_writeMsg {next : Bool → Talk α} {msg toLeft : Bytes} (hidle : Idle q toRight)
    (hends : Net.Ends atom answer answer good ⟨next true, q, toLeft, toRight ++ framed msg⟩) :
    Net.Ends atom answer answer good
      ⟨writeLengthPrefixedMsg msg >>= next, q, toLeft, toRight⟩ := by
  have hwrite : writeLengthPrefixedMsg msg >>= next = .write (framed msg) fun n =>
      next (decide (0 < n ∧ n = (framed msg).length)) := rfl
  rw [hwrite]
  refine Net.Ends.left_write hidle ?_
  have hpos := length_framed_pos msg
  have hsent : (0 : Int) < (framed msg).length ∧
      ((framed msg).length : Int) = (framed msg).length := ⟨by omega, rfl⟩
  rwa [decide_eq_true hsent]

theorem idle_readMsg (mach : SizeShift) {next : Option Bytes → Talk α} {rounds : Nat} (hrounds : 10 ≤ rounds) :
    Idle (readLengthPrefixedMsg mach rounds 256 >>= next) [] := by
  obtain ⟨rounds, rfl⟩ : ∃ n, rounds = n + 1 := ⟨rounds - 1, by omega⟩
  rw [readLengthPrefixedMsg, if_neg (by decide)]
  exact Or.inr ⟨1, _, rfl, rfl⟩

theorem right_readMsg (mach : SizeShift) {next : Option Bytes → Talk β} {p : Talk α} {rounds : Nat}
    {msg toRight toLeft : Bytes} (hidle : Idle p toLeft) (hrounds : 10 ≤ rounds)
    (hmax : msg.length < 256)
    (hends : Net.Ends atom answer answer good ⟨p, next (some msg), toLeft, toRight⟩) :
    Net.Ends atom answer answer good
      ⟨p, readLengthPrefixedMsg mach rounds 256 >>= next, toLeft, framed msg ++ toRight⟩ :=
  .of_swap (left_readMsg mach hidle hrounds hmax hends.swap)

theorem right_writeMsg {next : Bool → Talk β} {p : Talk α} {msg toLeft toRight : Bytes}
    (hidle : Idle p toLeft)
    (hends : Net.Ends atom answer answer good ⟨p, next true, toLeft ++ framed msg, toRight⟩) :
    Net.Ends atom answer answer good
      ⟨p, writeLengthPrefixedMsg msg >>= next, toLeft, toRight⟩ :=
  .of_swap (left_writeMsg hidle hends.swap)

end

/-! ### The negotiation -/

theorem cString_eq_self {text : Bytes} (hnul : (0 : UInt8) ∉ text) : cString text = text := by
  refine List.takeWhile_eq_self_iff.mpr fun byte hbyte => ?_
  rw [decide_eq_true_eq]
  rintro rfl
  exact hnul hbyte

theorem cString_msgHeader : cString msgHeader = msgHeader :=
  cString_eq_self (by decide +kernel)

theorem length_msgHeader : msgHeader.length < 256 := by decide +kernel

theorem trimNewline_concat (text : Bytes) : trimNewline (text ++ [newline]) = text := by
  rw [trimNewline, List.getLast?_concat, if_pos rfl, List.dropLast_concat]

theorem snprintf_concat {protocolId : Bytes} (hlength : protocolId.length ≤ 254) :
    snprintf 256 (protocolId ++ [newline]) = protocolId ++ [newline] :=
  List.take_of_length_le (by rw [List.length_append, List.length_singleton]; omega)

/-- Client and server have the same answer, and it is yes when the id is the one expected. -/
def Agreed (protocolId : Bytes) (expectedProtocol : Option Bytes) (client server : Bool) : Prop :=
  client = server ∧ (client = true ↔ expectedProtocol = none ∨ expectedProtocol = some protocolId)

/-- **Multistream negotiation.** Over FIFO channels, every run of a client that connects and proposes an
id against a server ends, whatever the interleaving and however reads are split, with nothing left to
read, and both sides have the answer that the expected id calls for. -/
theorem dial_accept_ends (mach : SizeShift) (atom : Nat) (answer : Empty → Unit) {rounds : Nat} (hrounds : 10 ≤ rounds)
    {protocolId : Bytes} (hlength : protocolId.length ≤ 254) (hnul : (0 : UInt8) ∉ protocolId)
    (hreserved : protocolId ≠ "na".toUTF8.toList) (expectedProtocol : Option Bytes) :
    Net.Ends atom answer answer (Agreed protocolId expectedProtocol)
      ⟨dial mach rounds protocolId, accept mach rounds expectedProtocol, [], []⟩ := by
  have hnul' : (0 : UInt8) ∉ protocolId ++ [newline] := by
    rw [List.mem_append, not_or]
    exact ⟨hnul, by decide⟩
  have hproposal : (protocolId ++ [newline]).length < 256 := by
    rw [List.length_append, List.length_singleton]
    omega
  -- the client announces multistream and waits
  unfold dial connect accept
  simp only [Prog.bind_assoc]
  refine left_writeMsg (idle_readMsg mach hrounds) ?_
  rw [List.nil_append, ← List.append_nil (framed msgHeader)]
  simp only [if_true, Prog.bind_assoc]
  refine right_readMsg mach (idle_readMsg mach hrounds) hrounds length_msgHeader ?_
  simp only [cString_msgHeader, ne_eq, not_true_eq_false, if_false]
  -- the server echoes and waits
  refine right_writeMsg (idle_readMsg mach hrounds) ?_
  rw [List.nil_append, ← List.append_nil (framed msgHeader)]
  simp only [if_true]
  refine left_readMsg mach (idle_readMsg mach hrounds) hrounds length_msgHeader ?_
  simp only [cString_msgHeader, decide_true, pure_eq_done, done_bind, if_true]
  -- the client proposes the id
  unfold negotiateProtocol
  simp only [snprintf_concat hlength]
  refine left_writeMsg (idle_readMsg mach hrounds) ?_
  rw [List.nil_append, ← List.append_nil (framed (protocolId ++ [newline]))]
  simp only [if_true]
  refine right_readMsg mach (idle_readMsg mach hrounds) hrounds hproposal ?_
  simp only [cString_eq_self hnul', trimNewline_concat, snprintf_concat hlength]
  by_cases hexpected : expectedProtocol = none ∨ expectedProtocol = some protocolId
  · have haccepts : expectedProtocol.any (fun x => decide (x ≠ protocolId)) = false := by
      rcases hexpected with rfl | rfl <;> simp
    simp only [haccepts, Bool.false_eq_true, if_false]
    change Net.Ends atom answer answer _
      ⟨_, writeLengthPrefixedMsg (protocolId ++ [newline]) >>= .done, [], []⟩
    refine right_writeMsg (idle_readMsg mach hrounds) ?_
    rw [List.nil_append, ← List.append_nil (framed (protocolId ++ [newline]))]
    refine left_readMsg mach (Or.inl ⟨true, rfl⟩) hrounds hproposal ?_
    simp only [cString_eq_self hnul', decide_true]
    exact .done ⟨rfl, iff_of_true rfl hexpected⟩
  · have hrefuses : expectedProtocol.any (fun x => decide (x ≠ protocolId)) = true := by
      cases expectedProtocol with
      | none => exact absurd (Or.inl rfl) hexpected
      | some expected =>
          have hne : expected ≠ protocolId := fun heq => hexpected (Or.inr (by rw [heq]))
          simpa using hne
    have hdiffers : cString notAvailable ≠ protocolId ++ [newline] := by
      have hna : cString notAvailable = "na".toUTF8.toList ++ [newline] := by decide +kernel
      rw [hna]
      intro heq
      exact hreserved (List.append_cancel_right heq).symm
    simp only [hrefuses, if_true]
    refine right_writeMsg (idle_readMsg mach hrounds) ?_
    rw [List.nil_append, ← List.append_nil (framed notAvailable)]
    refine left_readMsg mach (Or.inl ⟨false, rfl⟩) hrounds (by decide +kernel) ?_
    simp only [decide_eq_false hdiffers]
    exact .done ⟨rfl, iff_of_false Bool.false_ne_true hexpected⟩

/-- A server that expects another id refuses in every run. -/
theorem dial_accept_ends_refused :
    Net.Ends 0 (fun _ => ()) (fun _ => ())
      (Agreed "/yamux/1.0.0".toUTF8.toList (some "/mplex/6.7.0".toUTF8.toList))
      ⟨dial .masked 10 "/yamux/1.0.0".toUTF8.toList, accept .masked 10 (some "/mplex/6.7.0".toUTF8.toList), [], []⟩ :=
  dial_accept_ends .masked 0 (fun _ => ()) le_rfl (by decide +kernel) (by decide +kernel) (by decide +kernel) _

end CLibp2p.Multistream
