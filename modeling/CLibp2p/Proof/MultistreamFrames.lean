import CLibp2p.Net.MultistreamV1
import CLibp2p.Proof.MultistreamRead

/-!
# Frames over a parent that falls short

A read of the message layer is several reads of the parent. Of those only the first may find nothing:
from the first length byte on, what the parent does not deliver is taken for a zero, or what it did
deliver is thrown away.
-/

namespace CLibp2p.MultistreamV1

open Duplex Multistream

/-- The encoding is the one to the base 128, and decoding gives the value and how many bytes it took. -/
structure VarintLibrary.Lawful (lib : VarintLibrary) : Prop where
  encodes : ∀ value, lib.varintEncode value 12 = CLibp2p.varintEncode 12 value.toNat
  decodes : ∀ groups, isVarint groups = true → groups.length ≤ 12 → varintValue groups < 2 ^ 64 →
    lib.varintDecode groups = (UInt64.ofNat (varintValue groups), groups.length)

/-- One call after the other gets all that it asks for. -/
def fullReads : (asked : List Nat) → List RawRead → Bool
  | [], _ => true
  | _ :: _, [] => true
  | size :: asked, .moved count :: schedule => decide (size ≤ count) && fullReads asked schedule
  | _ :: _, .failed :: _ => false

/-- The length in front of a message. -/
def lengthBytes (message : Bytes) : Bytes := CLibp2p.varintEncode 12 message.length

/-- What a read of the message asks its parent for. -/
def asks (message : Bytes) : List Nat :=
  List.replicate (lengthBytes message).length 1 ++ [message.length]

def frames (lib : VarintLibrary) (messages : List Bytes) : Bytes :=
  messages.flatMap (prepareToSend lib)

/-! ### Varints -/

theorem shiftRight_eq_zero_iff (byte : UInt8) : byte >>> 7 = 0 ↔ byte &&& 0x80 = 0 := by
  have hall : ∀ i : Fin 256, (UInt8.ofNat i >>> 7 = 0 ↔ UInt8.ofNat i &&& 0x80 = 0) := by
    decide +kernel
  have hbyte := hall ⟨byte.toNat, byte.toNat_lt⟩
  rwa [UInt8.ofNat_toNat] at hbyte

theorem eight_bits : ∀ i : Fin 128, (UInt8.ofNat (i + 128) &&& 0x7F).toNat = i ∧
    UInt8.ofNat (i + 128) &&& 0x80 ≠ 0 := by
  decide

theorem isVarint_varintEncode {fuel n : Nat} (hn : n < 128 ^ (fuel + 1)) :
    isVarint (CLibp2p.varintEncode (fuel + 1) n) = true ∧
      varintValue (CLibp2p.varintEncode (fuel + 1) n) = n := by
  induction fuel generalizing n with
  | zero =>
      obtain ⟨hlow, hlast, -⟩ := seven_bits ⟨n, by omega⟩
      rw [varintEncode_small 0 (by omega), isVarint, if_pos hlast, varintValue, hlow]
      exact ⟨rfl, by simp [varintValue]⟩
  | succ fuel ih =>
      by_cases hsmall : n < 128
      · obtain ⟨hlow, hlast, -⟩ := seven_bits ⟨n, hsmall⟩
        rw [varintEncode_small _ hsmall, isVarint, if_pos hlast, varintValue, hlow]
        exact ⟨rfl, by simp [varintValue]⟩
      · obtain ⟨hlow, hmore⟩ := eight_bits ⟨n % 128, Nat.mod_lt n (by decide)⟩
        have hrest : n / 128 < 128 ^ (fuel + 1) := by
          rw [Nat.div_lt_iff_lt_mul (by decide), ← Nat.pow_succ]
          exact hn
        obtain ⟨hvarint, hvalue⟩ := ih hrest
        rw [CLibp2p.varintEncode, if_neg hsmall, isVarint, if_neg hmore, varintValue, hlow, hvalue]
        exact ⟨hvarint, Nat.mod_add_div n 128⟩

/-- A part of the length is less than the length. -/
theorem varintValue_take_lt {fuel n count : Nat} (hpos : 0 < count)
    (hpart : count < (CLibp2p.varintEncode fuel n).length) :
    varintValue ((CLibp2p.varintEncode fuel n).take count) < n := by
  induction fuel generalizing n count with
  | zero => exact absurd hpart (Nat.not_lt_zero _)
  | succ fuel ih =>
      by_cases hsmall : n < 128
      · rw [varintEncode_small _ hsmall, List.length_singleton] at hpart
        omega
      · obtain ⟨hlow, -⟩ := eight_bits ⟨n % 128, Nat.mod_lt n (by decide)⟩
        obtain ⟨count, rfl⟩ : ∃ k, count = k + 1 := ⟨count - 1, by omega⟩
        rw [CLibp2p.varintEncode, if_neg hsmall] at hpart ⊢
        rw [List.length_cons] at hpart
        rw [List.take_succ_cons, varintValue, hlow]
        have hvalue : varintValue ((CLibp2p.varintEncode fuel (n / 128)).take count) < n / 128 := by
          by_cases hcount : count = 0
          · rw [hcount, List.take_zero, varintValue]
            omega
          · exact ih (Nat.pos_of_ne_zero hcount) (by omega)
        dsimp only
        omega

theorem varintValue_concat_zero (groups : Bytes) : varintValue (groups ++ [0]) = varintValue groups := by
  induction groups with
  | nil => rfl
  | cons byte rest ih => rw [List.cons_append, varintValue, varintValue, ih]

/-- The first bytes of a varint, cut short by a zero. -/
theorem isVarint_take_concat_zero {groups : Bytes} (hvarint : isVarint groups = true) {count : Nat}
    (hpart : count < groups.length) : isVarint (groups.take count ++ [0]) = true := by
  induction groups generalizing count with
  | nil => cases hvarint
  | cons byte rest ih =>
      cases count with
      | zero => rfl
      | succ count =>
          rw [isVarint] at hvarint
          rw [List.take_succ_cons, List.cons_append, isVarint]
          rw [List.length_cons] at hpart
          by_cases hlast : byte &&& 0x80 = 0
          · rw [if_pos hlast] at hvarint
            rw [List.isEmpty_iff.mp hvarint] at hpart
            exact absurd hpart (by simp)
          · rw [if_neg hlast] at hvarint ⊢
            exact ih hvarint (by omega)

theorem varintRead_of_isVarint {groups : Bytes} (hvarint : isVarint groups = true) :
    varintRead groups = some (varintValue groups, groups.length) := by
  have hbits : ∀ i : Fin 256, (UInt8.ofNat i < 128 ↔ UInt8.ofNat i &&& 0x80 = 0) ∧
      (UInt8.ofNat i &&& 0x7F).toNat =
        if UInt8.ofNat i < 128 then (UInt8.ofNat i).toNat else (UInt8.ofNat i).toNat - 128 := by
    decide +kernel
  induction groups with
  | nil => cases hvarint
  | cons byte rest ih =>
      obtain ⟨hbit, hlow⟩ := hbits ⟨byte.toNat, byte.toNat_lt⟩
      rw [UInt8.ofNat_toNat] at hbit hlow
      rw [isVarint] at hvarint
      rw [varintRead, varintValue, hlow]
      by_cases hlast : byte &&& 0x80 = 0
      · rw [if_pos hlast] at hvarint
        rw [if_pos (hbit.mpr hlast), if_pos (hbit.mpr hlast), List.isEmpty_iff.mp hvarint]
        rfl
      · rw [if_neg hlast] at hvarint
        rw [if_neg (mt hbit.mp hlast), if_neg (mt hbit.mp hlast), ih hvarint]
        rfl

theorem varintLibrary_lawful : VarintLibrary.varints.Lawful where
  encodes _ := rfl
  decodes groups hvarint _ _ := by
    simp only [VarintLibrary.varints, Protobuf.varints, varintRead_of_isVarint hvarint]

/-! ### The calls of the parent -/

theorem fullReads_cons (size : Nat) (asked : List Nat) (schedule : List RawRead) :
    fullReads (size :: asked) schedule =
      (fullReads [size] schedule && fullReads asked (schedule.drop 1)) := by
  cases schedule with
  | nil => cases asked <;> rfl
  | cons outcome schedule =>
      cases outcome with
      | failed => rfl
      | moved count => simp [fullReads]

theorem readRaw_of_full {size : Nat} {schedule : List RawRead} (hfull : fullReads [size] schedule = true)
    (content rest : Bytes) (hsize : content.length = size) :
    (Parent.mk (content ++ rest) schedule).readRaw size =
      ((size : Int), content, ⟨rest, schedule.drop 1⟩) := by
  cases schedule with
  | nil =>
      simp only [Parent.readRaw, Int.toNat_natCast, List.take_left' hsize, hsize, List.drop_left' hsize,
        List.drop_nil]
  | cons outcome schedule =>
      cases outcome with
      | failed => cases hfull
      | moved count =>
          have hcount : size ≤ count := by simpa [fullReads] using hfull
          simp only [Parent.readRaw, Int.toNat_natCast, Nat.min_eq_right hcount, List.take_left' hsize,
            hsize, List.drop_left' hsize, List.drop_succ_cons, List.drop_zero]

/-- A read of one byte that gets nothing. -/
theorem readRaw_one_of_not_full {schedule : List RawRead} (hshort : fullReads [1] schedule = false)
    (inbound : Bytes) :
    (Parent.mk inbound schedule).readRaw 1 = (-1, [], ⟨inbound, schedule.drop 1⟩) ∨
      (Parent.mk inbound schedule).readRaw 1 = (0, [], ⟨inbound, schedule.drop 1⟩) := by
  cases schedule with
  | nil => cases hshort
  | cons outcome schedule =>
      cases outcome with
      | failed => exact Or.inl rfl
      | moved count =>
          have hcount : count = 0 := by
            simp only [fullReads, Bool.and_true, decide_eq_false_iff_not, not_le] at hshort
            omega
          rw [hcount]
          exact Or.inr (by simp [Parent.readRaw])

/-- Whatever comes of a call, it returns what it delivered, or -1 and nothing. -/
theorem readRaw_cases (parent : Parent) (bufferSize : Int) :
    ∃ ret data, ∃ parent' : Parent, parent.readRaw bufferSize = (ret, data, parent') ∧
      (ret = data.length ∨ data = []) ∧ data.length ≤ bufferSize.toNat ∧
      parent'.inbound.length ≤ parent.inbound.length := by
  rw [Parent.readRaw]
  split
  · exact ⟨_, _, _, rfl, Or.inr rfl, Nat.zero_le _, le_rfl⟩
  · refine ⟨_, _, _, rfl, Or.inl rfl, ?_, ?_⟩
    · rw [List.length_take]
      omega
    · rw [List.length_drop]
      omega
  · refine ⟨_, _, _, rfl, Or.inl rfl, ?_, ?_⟩
    · rw [List.length_take]
      omega
    · rw [List.length_drop]
      omega

theorem length_lt_of_not_full {size : Nat} {schedule : List RawRead}
    (hshort : fullReads [size] schedule = false) (hpos : 0 < size) (inbound : Bytes) :
    ((Parent.mk inbound schedule).readRaw size).2.1.length < size := by
  cases schedule with
  | nil => cases hshort
  | cons outcome schedule =>
      cases outcome with
      | failed => exact hpos
      | moved count =>
          have hcount : ¬size ≤ count := by simpa [fullReads] using hshort
          simp only [Parent.readRaw, List.length_take]
          omega

/-! ### The length -/

variable {lib : VarintLibrary}

theorem readVarint_succ_of_full {room : Nat} {got rest : Bytes} {byte : UInt8} {schedule : List RawRead}
    (hfull : fullReads [1] schedule = true) :
    readVarint lib (room + 1) got ⟨byte :: rest, schedule⟩ =
      if byte &&& 0x80 = 0 then
        (some (lib.varintDecode (got ++ [byte])).1, ⟨rest, schedule.drop 1⟩)
      else readVarint lib room (got ++ [byte]) ⟨rest, schedule.drop 1⟩ := by
  have hread : (Parent.mk (byte :: rest) schedule).readRaw 1 =
      (1, [byte], ⟨rest, schedule.drop 1⟩) :=
    readRaw_of_full hfull [byte] rest rfl
  simp only [readVarint, hread, shiftRight_eq_zero_iff, List.headD_cons]
  rfl

/-- All length bytes come in. -/
theorem readVarint_of_full {groups : Bytes} (hvarint : isVarint groups = true) {room : Nat}
    (hroom : groups.length ≤ room) {schedule : List RawRead}
    (hfull : fullReads (List.replicate groups.length 1) schedule = true) (got rest : Bytes) :
    readVarint lib room got ⟨groups ++ rest, schedule⟩ =
      (some (lib.varintDecode (got ++ groups)).1, ⟨rest, schedule.drop groups.length⟩) := by
  induction groups generalizing room schedule got with
  | nil => cases hvarint
  | cons byte groups ih =>
      rw [List.length_cons] at hroom hfull
      obtain ⟨room, rfl⟩ : ∃ n, room = n + 1 := ⟨room - 1, by omega⟩
      rw [List.replicate_succ, fullReads_cons, Bool.and_eq_true] at hfull
      rw [List.cons_append, readVarint_succ_of_full hfull.1]
      rw [isVarint] at hvarint
      by_cases hlast : byte &&& 0x80 = 0
      · rw [if_pos hlast] at hvarint ⊢
        rw [List.isEmpty_iff.mp hvarint]
        rfl
      · rw [if_neg hlast] at hvarint ⊢
        rw [ih hvarint (by omega) hfull.2, List.append_assoc, List.singleton_append, List.drop_drop,
          List.length_cons, Nat.add_comm 1]

/-- One of them does not: those before it are gone, and what there is of the length counts as all. -/
theorem readVarint_of_not_full {groups : Bytes} (hvarint : isVarint groups = true) {room : Nat}
    (hroom : groups.length ≤ room) {schedule : List RawRead}
    (hshort : fullReads (List.replicate groups.length 1) schedule = false) (got rest : Bytes) :
    ∃ count parent, count < groups.length ∧
      fullReads (List.replicate (count + 1) 1) schedule = false ∧
      parent = ⟨groups.drop count ++ rest, schedule.drop (count + 1)⟩ ∧
      (readVarint lib room got ⟨groups ++ rest, schedule⟩ = (none, parent) ∨
        readVarint lib room got ⟨groups ++ rest, schedule⟩ =
          (some (lib.varintDecode (got ++ (groups.take count ++ [0]))).1, parent)) := by
  induction groups generalizing room schedule got with
  | nil => cases hvarint
  | cons byte groups ih =>
      rw [List.length_cons] at hroom hshort
      obtain ⟨room, rfl⟩ : ∃ n, room = n + 1 := ⟨room - 1, by omega⟩
      rw [List.replicate_succ, fullReads_cons] at hshort
      cases hfirst : fullReads [1] schedule with
      | false =>
          refine ⟨0, _, by rw [List.length_cons]; omega, hfirst, rfl, ?_⟩
          rw [readVarint]
          rcases readRaw_one_of_not_full hfirst (byte :: groups ++ rest) with hread | hread
          · rw [hread]
            exact Or.inl rfl
          · rw [hread]
            exact Or.inr rfl
      | true =>
          rw [hfirst, Bool.true_and] at hshort
          rw [isVarint] at hvarint
          have hmore : ¬byte &&& 0x80 = 0 := by
            intro hlast
            rw [if_pos hlast] at hvarint
            rw [List.isEmpty_iff.mp hvarint] at hshort
            cases hshort
          rw [if_neg hmore] at hvarint
          obtain ⟨count, parent, hcount, hnext, hparent, hread⟩ :=
            ih hvarint (show groups.length ≤ room by omega) hshort (got ++ [byte])
          refine ⟨count + 1, parent, by rw [List.length_cons]; omega, ?_, ?_, ?_⟩
          · rw [List.replicate_succ, fullReads_cons, hfirst, hnext]
            rfl
          · rw [hparent, List.drop_drop, List.drop_succ_cons, Nat.add_comm 1]
          · rw [List.cons_append, readVarint_succ_of_full hfirst, if_neg hmore, List.take_succ_cons]
            simpa using hread

/-! ### One message -/

theorem fullReads_append (asked asked' : List Nat) (schedule : List RawRead) :
    fullReads (asked ++ asked') schedule =
      (fullReads asked schedule && fullReads asked' (schedule.drop asked.length)) := by
  induction asked generalizing schedule with
  | nil => rfl
  | cons size asked ih =>
      rw [List.cons_append, fullReads_cons, fullReads_cons size asked, ih, Bool.and_assoc, List.drop_drop,
        List.length_cons, Nat.add_comm 1]

theorem decode_zero (hlawful : lib.Lawful) : (lib.varintDecode [0]).1 = 0 := by
  rw [hlawful.decodes [0] rfl (by decide) (by decide)]
  rfl

/-- Nothing is there, or nothing of it comes in. -/
theorem read_nothing (hlawful : lib.Lawful) {parent : Parent}
    (hnothing : parent.inbound = [] ∨ fullReads [1] parent.schedule = false) :
    read lib parent = (none, ⟨parent.inbound, parent.schedule.drop 1⟩) := by
  obtain ⟨inbound, schedule⟩ := parent
  have hread : (Parent.mk inbound schedule).readRaw 1 = (-1, [], ⟨inbound, schedule.drop 1⟩) ∨
      (Parent.mk inbound schedule).readRaw 1 = (0, [], ⟨inbound, schedule.drop 1⟩) := by
    rcases hnothing with hempty | hshort
    · obtain rfl : inbound = [] := hempty
      cases schedule with
      | nil => exact Or.inr rfl
      | cons outcome schedule =>
          cases outcome with
          | failed => exact Or.inl rfl
          | moved count => exact Or.inr (by simp [Parent.readRaw])
    · exact readRaw_one_of_not_full hshort inbound
  rcases hread with hread | hread
  · simp only [read, readVarint, hread]
    rfl
  · have hvarint : readVarint lib 12 [] ⟨inbound, schedule⟩ = (some 0, ⟨inbound, schedule.drop 1⟩) := by
      have hzero := decode_zero hlawful
      simp only [readVarint, hread]
      exact congrArg (fun value => (some value, Parent.mk inbound (schedule.drop 1))) hzero
    rw [read, hvarint]
    rfl

section

variable {message tail : Bytes} {schedule : List RawRead}

theorem lengthBytes_spec (hsize : message.length < 2 ^ 64) :
    isVarint (lengthBytes message) = true ∧ varintValue (lengthBytes message) = message.length ∧
      (lengthBytes message).length ≤ 12 := by
  obtain ⟨hvarint, hvalue⟩ :=
    isVarint_varintEncode (show message.length < 128 ^ (11 + 1) from lt_trans hsize (by decide))
  exact ⟨hvarint, hvalue, varintEncode_length_le 12 _⟩

/-- The length came in whole, and the content is read. -/
theorem read_of_length (hlawful : lib.Lawful) (hsize : message.length < 2 ^ 64)
    (hfull : fullReads (List.replicate (lengthBytes message).length 1) schedule = true) :
    read lib ⟨lengthBytes message ++ tail, schedule⟩ =
      if message.length = 0 then (none, ⟨tail, schedule.drop (lengthBytes message).length⟩)
      else readContent message.length ⟨tail, schedule.drop (lengthBytes message).length⟩ := by
  obtain ⟨hvarint, hvalue, hlength⟩ := lengthBytes_spec hsize
  have hnat : (UInt64.ofNat message.length).toNat = message.length := UInt64.toNat_ofNat_of_lt' hsize
  have hzero : UInt64.ofNat message.length = 0 ↔ message.length = 0 := by
    rw [← UInt64.toNat_inj, hnat]
    rfl
  rw [read, readVarint_of_full hvarint hlength hfull, List.nil_append,
    hlawful.decodes _ hvarint hlength (by rwa [hvalue]), hvalue]
  simp only [hzero, hnat]

theorem sizeOfInt_natCast {size : Nat} (hsize : size < 2 ^ 64) : sizeOfInt (size : Int) = size := by
  rw [sizeOfInt]
  omega

/-- A message that comes in whole. -/
theorem read_whole (hlawful : lib.Lawful) (hne : message ≠ []) (hint : message.length < 2 ^ 31)
    (hfull : fullReads (asks message) schedule = true) :
    read lib ⟨lengthBytes message ++ (message ++ tail), schedule⟩ =
      (some message, ⟨tail, schedule.drop ((lengthBytes message).length + 1)⟩) := by
  rw [asks, fullReads_append, List.length_replicate, Bool.and_eq_true] at hfull
  have hsize : message.length < 2 ^ 64 := lt_trans hint (by decide)
  rw [read_of_length hlawful hsize hfull.1, if_neg (mt List.eq_nil_of_length_eq_zero hne), readContent,
    intOfSize_of_lt (show message.length < intBound from hint), readRaw_of_full hfull.2 message tail rfl]
  simp only [sizeOfInt_natCast hsize, ne_eq, not_true_eq_false, if_false, List.drop_drop]

theorem read_empty (hlawful : lib.Lawful) (hfull : fullReads [1] schedule = true) :
    read lib ⟨lengthBytes [] ++ tail, schedule⟩ = (none, ⟨tail, schedule.drop 1⟩) :=
  read_of_length hlawful (show ([] : Bytes).length < 2 ^ 64 by decide) hfull

end

/-- The content has the length that was asked for, unless -1 was taken for it. -/
theorem readContent_some {numBytesRequested : Nat} {parent parent' : Parent} {data : Bytes}
    (hread : readContent numBytesRequested parent = (some data, parent')) :
    (data.length = numBytesRequested ∧ numBytesRequested < 2 ^ 31 ∨ data = []) ∧
      (parent.readRaw (intOfSize numBytesRequested)).2.1 = data := by
  obtain ⟨ret, chunk, after, hraw, hret, hlength, -⟩ := readRaw_cases parent (intOfSize numBytesRequested)
  rw [readContent, hraw] at hread
  rw [hraw]
  dsimp only at hread ⊢
  split at hread
  · cases hread
  · rename_i hsame
    cases hread
    refine ⟨hret.imp_left fun hret => ?_, rfl⟩
    have hbound : intOfSize numBytesRequested < 2 ^ 31 := intOfSize_lt numBytesRequested
    rw [hret, not_not, sizeOfInt_natCast (by omega)] at hsame
    exact ⟨hsame, by omega⟩

theorem readContent_inbound (numBytesRequested : Nat) (parent : Parent) :
    (readContent numBytesRequested parent).2.inbound.length ≤ parent.inbound.length := by
  obtain ⟨ret, chunk, after, hraw, -, -, hinbound⟩ := readRaw_cases parent (intOfSize numBytesRequested)
  rw [readContent, hraw]
  dsimp only
  split
  · exact hinbound
  · exact hinbound

/-- A message that begins to come in and then does not: it is not returned, and some of it is gone. -/
theorem read_spoiled (hlawful : lib.Lawful) {message tail : Bytes} {schedule : List RawRead}
    (hsize : message.length < 2 ^ 64) (hne : message ≠ []) (hbegins : fullReads [1] schedule = true)
    (hspoiled : ¬(message.length < 2 ^ 31 ∧ fullReads (asks message) schedule = true)) :
    (read lib ⟨lengthBytes message ++ (message ++ tail), schedule⟩).1 ≠ some message ∧
      (read lib ⟨lengthBytes message ++ (message ++ tail), schedule⟩).2.inbound.length <
        (lengthBytes message ++ (message ++ tail)).length := by
  obtain ⟨hvarint, hvalue, hlength⟩ := lengthBytes_spec hsize
  have hpos : 0 < (lengthBytes message).length := List.length_pos_iff.mpr (isVarint_ne_nil hvarint)
  have hmessage : message.length ≠ 0 := mt List.eq_nil_of_length_eq_zero hne
  cases hheader : fullReads (List.replicate (lengthBytes message).length 1) schedule with
  | true =>
      -- the length came in, and the content did not
      rw [read_of_length hlawful hsize hheader, if_neg hmessage]
      constructor
      · intro hsame
        obtain ⟨⟨-, hint⟩ | hempty, hdata⟩ := readContent_some (Prod.ext hsame rfl)
        · have hshort : fullReads [message.length] (schedule.drop (lengthBytes message).length) = false := by
            rw [asks, fullReads_append, List.length_replicate, hheader, Bool.true_and] at hspoiled
            simpa using fun hfull => hspoiled ⟨hint, hfull⟩
          rw [intOfSize_of_lt (show message.length < intBound from hint)] at hdata
          have hless := length_lt_of_not_full hshort (Nat.pos_of_ne_zero hmessage) (message ++ tail)
          rw [hdata] at hless
          exact absurd hless (lt_irrefl _)
        · exact hne hempty
      · have hinbound := readContent_inbound message.length
          ⟨message ++ tail, schedule.drop (lengthBytes message).length⟩
        rw [List.length_append]
        dsimp only at hinbound
        omega
  | false =>
      -- a byte of the length did not come in, and what there is of it stands for a smaller number
      obtain ⟨count, parent, hcount, hnext, rfl, hread⟩ :=
        readVarint_of_not_full hvarint hlength hheader [] (message ++ tail)
      have hgone : 0 < count := by
        by_contra hzero
        obtain rfl : count = 0 := by omega
        rw [List.replicate_one, hbegins] at hnext
        cases hnext
      have hshorter : ((lengthBytes message).drop count ++ (message ++ tail)).length <
          (lengthBytes message ++ (message ++ tail)).length := by
        simp only [List.length_append, List.length_drop]
        omega
      rcases hread with hread | hread
      · rw [read, hread]
        exact ⟨by simp, hshorter⟩
      · have hvalue' : varintValue ((lengthBytes message).take count) < message.length :=
          varintValue_take_lt hgone hcount
        have hpart : lib.varintDecode ((lengthBytes message).take count ++ [0]) =
            (UInt64.ofNat (varintValue ((lengthBytes message).take count)),
              ((lengthBytes message).take count ++ [0]).length) := by
          rw [hlawful.decodes _ (isVarint_take_concat_zero hvarint hcount), varintValue_concat_zero]
          · rw [List.length_append, List.length_take, List.length_singleton]
            omega
          · rw [varintValue_concat_zero]
            exact lt_trans hvalue' hsize
        rw [List.nil_append, hpart] at hread
        rw [read, hread]
        dsimp only
        split
        · exact ⟨by simp, hshorter⟩
        · refine ⟨fun hsame => ?_, lt_of_le_of_lt (readContent_inbound _ _) hshorter⟩
          obtain ⟨⟨hsame, -⟩ | hempty, -⟩ := readContent_some (Prod.ext hsame rfl)
          · rw [UInt64.toNat_ofNat_of_lt' (lt_trans hvalue' hsize)] at hsame
            exact absurd hsame hvalue'.ne'
          · exact hne hempty

/-! ### Whole runs -/

/-- Each read returns the next frame that is not read yet, or nothing, and then nothing is gone, save a
frame without content. -/
def ReadsFrames (lib : VarintLibrary) : (calls : Nat) → (messages : List Bytes) → Parent → Prop
  | 0, _, _ => True
  | calls + 1, messages, parent =>
      let (result, parent') := read lib parent
      (∃ message rest, messages = message :: rest ∧ result = some message ∧
          ReadsFrames lib calls rest parent') ∨
        (result = none ∧ parent'.inbound = parent.inbound ∧ ReadsFrames lib calls messages parent') ∨
        ∃ rest, messages = [] :: rest ∧ result = none ∧ parent'.inbound = frames lib rest ∧
          ReadsFrames lib calls rest parent'

/-- Each read that gets the first length byte of a message gets all the rest of it, and that is less than
two gigabytes. -/
def ComesWhole : (calls : Nat) → (messages : List Bytes) → (schedule : List RawRead) → Prop
  | 0, _, _ => True
  | _ + 1, [], _ => True
  | calls + 1, message :: messages, schedule =>
      if fullReads [1] schedule = false then ComesWhole calls (message :: messages) (schedule.drop 1)
      else if message = [] then ComesWhole calls messages (schedule.drop 1)
      else (message.length < 2 ^ 31 ∧ fullReads (asks message) schedule = true) ∧
        ComesWhole calls messages (schedule.drop ((lengthBytes message).length + 1))

theorem prepareToSend_eq (hlawful : lib.Lawful) {message : Bytes} (hsize : message.length < 2 ^ 64) :
    prepareToSend lib message = lengthBytes message ++ message := by
  rw [prepareToSend, hlawful.encodes, UInt64.toNat_ofNat_of_lt' hsize, lengthBytes]

theorem frames_cons (hlawful : lib.Lawful) {message : Bytes} (hsize : message.length < 2 ^ 64)
    (messages : List Bytes) :
    frames lib (message :: messages) = lengthBytes message ++ (message ++ frames lib messages) := by
  rw [frames, List.flatMap_cons, prepareToSend_eq hlawful hsize, List.append_assoc, ← frames]

theorem frame_append_ne {message : Bytes} (hsize : message.length < 2 ^ 64) (rest : Bytes) :
    lengthBytes message ++ (message ++ rest) ≠ rest := by
  have hpos := List.length_pos_iff.mpr (isVarint_ne_nil (lengthBytes_spec hsize).1)
  intro hsame
  have hlength := congrArg List.length hsame
  simp only [List.length_append] at hlength
  omega

/-- Without anything to read the reads find nothing. -/
theorem readsFrames_nil (hlawful : lib.Lawful) (calls : Nat) (schedule : List RawRead) :
    ReadsFrames lib calls [] ⟨[], schedule⟩ := by
  induction calls generalizing schedule with
  | zero => trivial
  | succ calls ih =>
      rw [ReadsFrames, read_nothing hlawful (Or.inl rfl)]
      exact Or.inr (Or.inl ⟨rfl, rfl, ih _⟩)

/-- **Frames over a parent that falls short.** For all messages that are framed and every schedule of the
parent, the reads return the messages one after the other and lose nothing of them, if and only if the
parent delivers the whole of each message in the read in which it begins to. -/
theorem readsFrames_iff (hlawful : lib.Lawful) (calls : Nat) {messages : List Bytes}
    (hsizes : ∀ message ∈ messages, message.length < 2 ^ 64) (schedule : List RawRead) :
    ReadsFrames lib calls messages ⟨frames lib messages, schedule⟩ ↔
      ComesWhole calls messages schedule := by
  induction calls generalizing messages schedule with
  | zero => exact Iff.rfl
  | succ calls ih =>
      cases messages with
      | nil => exact iff_of_true (readsFrames_nil hlawful _ schedule) trivial
      | cons message messages =>
          have hsize := hsizes message List.mem_cons_self
          have hsizes' : ∀ m ∈ messages, m.length < 2 ^ 64 := fun m hm =>
            hsizes m (List.mem_cons_of_mem _ hm)
          rw [ReadsFrames, ComesWhole]
          cases hbegins : fullReads [1] schedule with
          | false =>
              rw [read_nothing hlawful (Or.inr hbegins), if_pos rfl, ← ih hsizes]
              constructor
              · rintro (⟨_, _, -, hresult, -⟩ | ⟨-, -, hreads⟩ | ⟨rest, hmessages, -, hinbound, -⟩)
                · cases hresult
                · exact hreads
                · -- nothing was taken, not even a frame without content
                  cases hmessages
                  rw [frames_cons hlawful hsize] at hinbound
                  exact absurd hinbound (frame_append_ne hsize (frames lib messages))
              · intro hreads
                exact Or.inr (Or.inl ⟨rfl, rfl, hreads⟩)
          | true =>
              rw [if_neg (by decide), frames_cons hlawful hsize]
              by_cases hempty : message = []
              · rw [if_pos hempty]
                subst hempty
                rw [List.nil_append, read_empty hlawful hbegins, ← ih hsizes']
                constructor
                · rintro (⟨_, _, -, hresult, -⟩ | ⟨-, hinbound, -⟩ | ⟨rest, hmessages, -, -, hreads⟩)
                  · cases hresult
                  · exact absurd hinbound.symm (frame_append_ne hsize (frames lib messages))
                  · cases hmessages
                    exact hreads
                · intro hreads
                  exact Or.inr (Or.inr ⟨messages, rfl, rfl, rfl, hreads⟩)
              rw [if_neg hempty]
              by_cases hwhole : message.length < 2 ^ 31 ∧ fullReads (asks message) schedule = true
              · rw [read_whole hlawful hempty hwhole.1 hwhole.2, ← ih hsizes']
                constructor
                · rintro (⟨_, _, hmessages, -, hreads⟩ | ⟨hresult, -⟩ | ⟨_, -, hresult, -⟩)
                  · cases hmessages
                    exact ⟨hwhole, hreads⟩
                  · cases hresult
                  · cases hresult
                · rintro ⟨-, hreads⟩
                  exact Or.inl ⟨message, messages, rfl, rfl, hreads⟩
              · obtain ⟨hresult', hinbound'⟩ :=
                  read_spoiled hlawful hsize hempty hbegins hwhole
                constructor
                · rintro (⟨_, _, hmessages, hresult, -⟩ | ⟨-, hinbound, -⟩ | ⟨_, hmessages, -⟩)
                  · cases hmessages
                    exact absurd hresult hresult'
                  · exact absurd (congrArg List.length hinbound) hinbound'.ne
                  · cases hmessages
                    exact absurd rfl hempty
                · rintro ⟨hwhole', -⟩
                  exact absurd hwhole' hwhole

/-- Three messages, the second of which comes only when it was asked for twice. -/
theorem readsFrames_iff_later :
    ReadsFrames .varints 4 [[7], [], [8, 9]] ⟨frames .varints [[7], [], [8, 9]],
        [.moved 1, .moved 1, .moved 0, .moved 1, .moved 5, .moved 2]⟩ ↔
      ComesWhole 4 [[7], [], [8, 9]] [.moved 1, .moved 1, .moved 0, .moved 1, .moved 5, .moved 2] :=
  readsFrames_iff varintLibrary_lawful 4 (by decide) _

/-- Of a message of 300 bytes the second length byte is late: the read returns 44 bytes, of which the
first is the rest of the length. -/
example : (read .varints ⟨frames .varints [List.replicate 300 7], [.moved 1, .moved 0]⟩).1 =
    some (2 :: List.replicate 43 7) := by
  decide +kernel

/-- Of two bytes one is late: neither of them is there any more for the next read. -/
theorem readsFrames_late_byte :
    ¬∀ (lib : VarintLibrary), lib.Lawful → ∀ (calls : Nat) (messages : List Bytes) (schedule : List RawRead),
      (∀ message ∈ messages, message.length < 2 ^ 64) →
      ReadsFrames lib calls messages ⟨frames lib messages, schedule⟩ := by
  intro hclaim
  have hreads := hclaim .varints varintLibrary_lawful 1 [[7, 8]] [.moved 1, .moved 1] (by decide)
  have hresult : read .varints ⟨frames .varints [[7, 8]], [.moved 1, .moved 1]⟩ = (none, ⟨[8], []⟩) := by
    decide
  rw [ReadsFrames, hresult] at hreads
  rcases hreads with ⟨_, _, -, hsome, -⟩ | ⟨-, hinbound, -⟩ | ⟨_, hmessages, -⟩
  · cases hsome
  · exact absurd hinbound (by decide)
  · cases hmessages

end CLibp2p.MultistreamV1
