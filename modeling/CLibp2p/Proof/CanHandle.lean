import CLibp2p.Net.CanHandle

/-!
# Which bytes the `CanHandle` predicates look at

The length test allows for a varint by asking for fewer bytes, but the comparison starts behind the
varint and takes the whole id. So a message that ends within the id, and agrees with it so far, is judged
by the bytes that happen to follow it in memory.
-/

namespace CLibp2p.CanHandle

open Duplex

/-! ### Memory -/

theorem length_bytesAt (data : Memory) (n : Nat) : (bytesAt data n).length = n := by
  rw [bytesAt, List.length_map, List.length_range]

theorem getElem_bytesAt (data : Memory) {n i : Nat} (hi : i < (bytesAt data n).length) :
    (bytesAt data n)[i] = data i := by
  simp only [bytesAt, List.getElem_map, List.getElem_range]

theorem bytesAt_succ (data : Memory) (n : Nat) :
    bytesAt data (n + 1) = data 0 :: bytesAt (fun i => data (i + 1)) n := by
  simp only [bytesAt, List.range_succ_eq_map, List.map_cons, List.map_map]
  rfl

theorem bytesAt_congr {data data' : Memory} {n : Nat} (hagree : ∀ i < n, data' i = data i) :
    bytesAt data' n = bytesAt data n :=
  List.map_congr_left fun i hi => hagree i (List.mem_range.mp hi)

theorem take_bytesAt (data : Memory) {m n : Nat} (hle : m ≤ n) :
    (bytesAt data n).take m = bytesAt data m := by
  apply List.ext_getElem
  · rw [List.length_take, length_bytesAt, length_bytesAt, Nat.min_eq_left hle]
  · intro i hi hi'
    rw [List.getElem_take, getElem_bytesAt, getElem_bytesAt]

theorem drop_bytesAt (data : Memory) (k n : Nat) :
    (bytesAt data n).drop k = bytesAt (fun i => data (k + i)) (n - k) := by
  apply List.ext_getElem
  · rw [List.length_drop, length_bytesAt, length_bytesAt]
  · intro i hi hi'
    rw [List.getElem_drop, getElem_bytesAt, getElem_bytesAt]

/-- Without a NUL in the string, `strncmp` compares all of it. -/
theorem strncmpEq_iff {s : Bytes} (hnul : (0 : UInt8) ∉ s) (mem : Memory) :
    strncmpEq s mem = true ↔ bytesAt mem s.length = s := by
  induction s generalizing mem with
  | nil => exact ⟨fun _ => rfl, fun _ => rfl⟩
  | cons c s ih =>
      rw [List.mem_cons, not_or] at hnul
      obtain ⟨hc, hs⟩ := hnul
      rw [strncmpEq, List.length_cons, bytesAt_succ, List.cons.injEq, ← ih hs]
      simp [Ne.symm hc]

/-! ### The ids -/

namespace V1Protocol

variable (protocol : V1Protocol)

theorem nul_notMem_id : (0 : UInt8) ∉ protocol.id := by
  cases protocol <;> decide +kernel

theorem length_id_bounds : 3 ≤ protocol.id.length ∧ protocol.id.length ≤ 19 := by
  cases protocol <;> decide +kernel

end V1Protocol

/-! ### One message -/

section Message

variable {varintBytes : Bytes → UInt64} (hvarint : ∀ bytes, (varintBytes bytes).toNat ≤ bytes.length)
variable (protocol : V1Protocol)

/-- The message passes the length test. -/
def LongEnough (varintBytes : Bytes → UInt64) (protocol : V1Protocol) (data : Memory)
    (dataSize : UInt64) : Prop :=
  dataSize ≠ 0 ∧
    UInt64.ofNat protocol.id.length - prefixLength varintBytes protocol.second data dataSize ≤ dataSize

theorem canHandle_iff {data : Memory} {dataSize : UInt64} :
    protocol.canHandle varintBytes ⟨some data, dataSize⟩ = true ↔
      LongEnough varintBytes protocol data dataSize ∧
        bytesAt (fun i => data ((prefixLength varintBytes protocol.second data dataSize).toNat + i))
          protocol.id.length = protocol.id := by
  rw [V1Protocol.canHandle_eq, canHandle, LongEnough]
  by_cases hzero : dataSize = 0
  · simp [hzero]
  · simp only [hzero, if_false, Bool.and_eq_true, decide_eq_true_eq,
      strncmpEq_iff protocol.nul_notMem_id, ne_eq, not_false_eq_true, true_and]

include hvarint in
theorem prefixLength_le (second : UInt8) (data : Memory) (dataSize : UInt64) :
    (prefixLength varintBytes second data dataSize).toNat ≤ dataSize.toNat := by
  unfold prefixLength
  split
  · have hle := hvarint (bytesAt data dataSize.toNat)
    rwa [length_bytesAt] at hle
  · exact Nat.zero_le _

include hvarint in
theorem LongEnough.two_le {data : Memory} {dataSize : UInt64}
    (hlong : LongEnough varintBytes protocol data dataSize) : 2 ≤ dataSize.toNat := by
  obtain ⟨hpos, htest⟩ := hlong
  have hfront := prefixLength_le hvarint protocol.second data dataSize
  obtain ⟨hmin, hmax⟩ := protocol.length_id_bounds
  have hpos' : dataSize.toNat ≠ 0 := fun hzero => hpos (UInt64.toNat_inj.mp hzero)
  by_contra hshort
  rw [UInt64.le_iff_toNat_le, UInt64.toNat_sub_of_le, UInt64.toNat_ofNat'] at htest
  · omega
  · rw [UInt64.le_iff_toNat_le, UInt64.toNat_ofNat']
    omega

theorem prefixLength_congr (second : UInt8) {data data' : Memory} {dataSize : UInt64}
    (htwo : 2 ≤ dataSize.toNat) (hagree : ∀ i < dataSize.toNat, data' i = data i) :
    prefixLength varintBytes second data' dataSize = prefixLength varintBytes second data dataSize := by
  unfold prefixLength
  rw [hagree 0 (by omega), hagree 1 (by omega), bytesAt_congr hagree]

/-- The memory in which `tail` follows the message. -/
def continued (data : Memory) (n k : Nat) (tail : Bytes) : Memory := fun i =>
  if i < n then data i else tail.getD (i - k) 0

theorem continued_agrees (data : Memory) (n k : Nat) (tail : Bytes) :
    ∀ i < n, continued data n k tail i = data i := fun _ hi => if_pos hi

/-- A message that passes and stops within the id, which it agrees with so far. -/
def Overruns (varintBytes : Bytes → UInt64) (protocol : V1Protocol) (data : Memory)
    (dataSize : UInt64) : Prop :=
  let k := (prefixLength varintBytes protocol.second data dataSize).toNat
  LongEnough varintBytes protocol data dataSize ∧ dataSize.toNat < k + protocol.id.length ∧
    (bytesAt data dataSize.toNat).drop k <+: protocol.id

/-- The answer is the same in all memory that starts with the message, and a true answer means that the
id is wholly inside it. -/
def ReadsMessageOnly (varintBytes : Bytes → UInt64) (protocol : V1Protocol) (data : Memory)
    (dataSize : UInt64) : Prop :=
  (∀ data', (∀ i < dataSize.toNat, data' i = data i) →
      protocol.canHandle varintBytes ⟨some data', dataSize⟩ =
        protocol.canHandle varintBytes ⟨some data, dataSize⟩) ∧
    (protocol.canHandle varintBytes ⟨some data, dataSize⟩ = true →
      protocol.id <:+: bytesAt data dataSize.toNat)

theorem longEnough_congr {data data' : Memory} {dataSize : UInt64}
    (htwo : 2 ≤ dataSize.toNat) (hagree : ∀ i < dataSize.toNat, data' i = data i) :
    LongEnough varintBytes protocol data' dataSize ↔ LongEnough varintBytes protocol data dataSize := by
  rw [LongEnough, LongEnough, prefixLength_congr protocol.second htwo hagree]

/-- In front of what completes the id the answer is true, in front of anything else false. -/
theorem canHandle_continued {data : Memory} {dataSize : UInt64}
    (htwo : 2 ≤ dataSize.toNat) (hoverruns : Overruns varintBytes protocol data dataSize)
    (tail : Bytes) (htail : tail.length = protocol.id.length)
    (hstart : (bytesAt data dataSize.toNat).drop
      (prefixLength varintBytes protocol.second data dataSize).toNat <+: tail)
    (hfront : (prefixLength varintBytes protocol.second data dataSize).toNat ≤ dataSize.toNat) :
    protocol.canHandle varintBytes ⟨some (continued data dataSize.toNat
      (prefixLength varintBytes protocol.second data dataSize).toNat tail), dataSize⟩ = true ↔
        tail = protocol.id := by
  have hagree := continued_agrees data dataSize.toNat
    (prefixLength varintBytes protocol.second data dataSize).toNat tail
  rw [canHandle_iff, longEnough_congr protocol htwo hagree,
    prefixLength_congr protocol.second htwo hagree, ← htail, and_iff_right hoverruns.1]
  generalize (prefixLength varintBytes protocol.second data dataSize).toNat = k at *
  have hbytes : bytesAt (fun i => continued data dataSize.toNat k tail (k + i)) tail.length = tail := by
    apply List.ext_getElem
    · exact length_bytesAt _ _
    · intro i hi hi'
      rw [getElem_bytesAt, continued]
      by_cases hin : k + i < dataSize.toNat
      · have hi'' : i < ((bytesAt data dataSize.toNat).drop k).length := by
          rw [List.length_drop, length_bytesAt]
          omega
        rw [if_pos hin, ← hstart.getElem hi'', List.getElem_drop, getElem_bytesAt]
      · rw [if_neg hin, Nat.add_sub_cancel_left, List.getD_eq_getElem?_getD,
          List.getElem?_eq_getElem hi', Option.getD_some]
  rw [hbytes]

include hvarint in
theorem not_readsMessageOnly_of_overruns {data : Memory} {dataSize : UInt64}
    (hoverruns : Overruns varintBytes protocol data dataSize) :
    ¬ReadsMessageOnly varintBytes protocol data dataSize := by
  rintro ⟨hsame, -⟩
  have htwo := hoverruns.1.two_le hvarint protocol
  have hfront := prefixLength_le hvarint protocol.second data dataSize
  obtain ⟨-, hends, hstart⟩ := id hoverruns
  -- the last byte of the id lies behind the message
  have hother : protocol.id.dropLast ++ [1] ≠ protocol.id := by
    cases protocol <;> decide +kernel
  have hlength : (protocol.id.dropLast ++ [1]).length = protocol.id.length := by
    have hmin := protocol.length_id_bounds.1
    rw [List.length_append, List.length_dropLast, List.length_singleton]
    omega
  have hstart' : (bytesAt data dataSize.toNat).drop
      (prefixLength varintBytes protocol.second data dataSize).toNat <+:
        protocol.id.dropLast ++ [1] := by
    rw [List.prefix_iff_eq_take] at hstart ⊢
    rw [List.length_drop, length_bytesAt] at hstart ⊢
    have hshort : dataSize.toNat - (prefixLength varintBytes protocol.second data dataSize).toNat ≤
        protocol.id.dropLast.length := by
      rw [List.length_dropLast]
      omega
    rw [List.take_append_of_le_length hshort, List.dropLast_eq_take, List.take_take,
      Nat.min_eq_left (by rw [List.length_dropLast] at hshort; exact hshort)]
    exact hstart
  have htrue := (canHandle_continued protocol htwo hoverruns protocol.id rfl hstart hfront).mpr rfl
  have hfalse := (canHandle_continued protocol htwo hoverruns _ hlength hstart' hfront).not.mpr hother
  rw [hsame _ (continued_agrees _ _ _ _)] at htrue hfalse
  exact hfalse htrue

/-- When the message does not stop within the id, the answer is found in its own bytes. -/
theorem canHandle_iff_take {data : Memory} {dataSize : UInt64} (htwo : 2 ≤ dataSize.toNat)
    (hnot : ¬Overruns varintBytes protocol data dataSize) {data' : Memory}
    (hagree : ∀ i < dataSize.toNat, data' i = data i) :
    protocol.canHandle varintBytes ⟨some data', dataSize⟩ = true ↔
      LongEnough varintBytes protocol data dataSize ∧
        ((bytesAt data dataSize.toNat).drop
          (prefixLength varintBytes protocol.second data dataSize).toNat).take
            protocol.id.length = protocol.id := by
  rw [canHandle_iff, longEnough_congr protocol htwo hagree,
    prefixLength_congr protocol.second htwo hagree]
  refine and_congr_right fun hlong => ?_
  have hmiss : dataSize.toNat < (prefixLength varintBytes protocol.second data dataSize).toNat +
      protocol.id.length → ¬(bytesAt data dataSize.toNat).drop
        (prefixLength varintBytes protocol.second data dataSize).toNat <+: protocol.id :=
    fun hends hstart => hnot ⟨hlong, hends, hstart⟩
  rw [← bytesAt_congr hagree] at hmiss ⊢
  rw [drop_bytesAt] at hmiss ⊢
  generalize (prefixLength varintBytes protocol.second data dataSize).toNat = k at *
  by_cases hends : dataSize.toNat < k + protocol.id.length
  · have hmiss := hmiss hends
    constructor
    · intro hid
      refine absurd ?_ hmiss
      rw [← hid, ← take_bytesAt _ (show dataSize.toNat - k ≤ protocol.id.length by omega)]
      exact List.take_prefix _ _
    · intro hid
      rw [List.take_of_length_le (by rw [length_bytesAt]; omega)] at hid
      exact absurd (hid ▸ List.prefix_rfl) hmiss
  · rw [take_bytesAt _ (by omega)]

include hvarint in
/-- **The bytes a predicate judges by.** A `CanHandle` predicate decides by the bytes of the message
alone, and finds the id wholly inside it, exactly when the message is not one that passes the length
test, stops within the id and agrees with it so far. -/
theorem readsMessageOnly_iff (data : Memory) (dataSize : UInt64) :
    ReadsMessageOnly varintBytes protocol data dataSize ↔
      ¬Overruns varintBytes protocol data dataSize := by
  constructor
  · intro hreads hoverruns
    exact not_readsMessageOnly_of_overruns hvarint protocol hoverruns hreads
  · intro hnot
    by_cases htwo : 2 ≤ dataSize.toNat
    · have hown := canHandle_iff_take protocol htwo hnot fun _ _ => rfl
      refine ⟨fun data' hagree => ?_, fun htrue => ?_⟩
      · rw [Bool.eq_iff_iff, canHandle_iff_take protocol htwo hnot hagree, hown]
      · obtain ⟨-, hid⟩ := hown.mp htrue
        rw [← hid]
        exact (List.take_prefix _ _).isInfix.trans (List.drop_suffix _ _).isInfix
    · have hfalse : ∀ data', protocol.canHandle varintBytes ⟨some data', dataSize⟩ = false := by
        intro data'
        rw [Bool.eq_false_iff]
        intro htrue
        exact htwo (((canHandle_iff protocol).mp htrue).1.two_le hvarint protocol)
      refine ⟨fun data' _ => by rw [hfalse, hfalse], fun htrue => ?_⟩
      rw [hfalse] at htrue
      cases htrue

end Message

/-- The length of a varint: its last byte is the first one below 128. -/
def leb128Length (bytes : Bytes) : UInt64 :=
  match bytes.findIdx? (· < 128) with
  | some i => UInt64.ofNat (i + 1)
  | none => 0

theorem leb128Length_le (bytes : Bytes) : (leb128Length bytes).toNat ≤ bytes.length := by
  unfold leb128Length
  split
  · rename_i i hfound
    obtain ⟨hi, -⟩ := List.findIdx?_eq_some_iff_getElem.mp hfound
    rw [UInt64.toNat_ofNat']
    exact (Nat.mod_le _ _).trans hi
  · exact Nat.zero_le _

/-- The id of yamux behind its length, as it is sent. -/
theorem readsMessageOnly_iff_yamux :
    ReadsMessageOnly leb128Length .yamux (fun i => (13 :: yamuxId).getD i 0) 14 := by
  refine (readsMessageOnly_iff leb128Length_le .yamux _ 14).mpr ?_
  rintro ⟨-, hends, -⟩
  exact absurd hends (by decide +kernel)

/-- Without its last byte the message is judged by the byte behind it. -/
theorem readsMessageOnly_fails :
    ¬∀ protocol data dataSize, ReadsMessageOnly leb128Length protocol data dataSize := by
  intro hall
  obtain ⟨hsame, -⟩ := hall .yamux (fun i => (13 :: yamuxId).getD i 0) 13
  have hother := hsame (fun i => (13 :: yamuxId.dropLast).getD i 0) (by decide +kernel)
  exact absurd hother (by decide +kernel)

end CLibp2p.CanHandle
