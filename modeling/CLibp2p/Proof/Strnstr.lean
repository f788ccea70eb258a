import CLibp2p.Proof.CanHandle
import CLibp2p.Routing.DhtProtocol

/-!
# What `strnstr` finds

The search goes on behind a NUL, and a needle that is longer than the haystack is cut to its length. The
bound of the loop is an `int`.
-/

namespace CLibp2p.Os

open Duplex CanHandle

/-! ### The first occurrence -/

/-- Where the needle occurs first. -/
def position (needle text : Bytes) : Option Nat := text.tails.findIdx? needle.isPrefixOf

theorem position_nil {needle : Bytes} (hne : needle ≠ []) : position needle [] = none := by
  cases needle with
  | nil => exact absurd rfl hne
  | cons c needle => rfl

theorem position_of_isPrefix {needle text : Bytes} (hfront : needle <+: text) :
    position needle text = some 0 := by
  have hhead := List.isPrefixOf_iff_prefix.mpr hfront
  cases text with
  | nil => rw [position, List.tails, List.findIdx?_cons, if_pos hhead]
  | cons c text => rw [position, List.tails_cons, List.findIdx?_cons, if_pos hhead]

theorem position_cons_of_not_isPrefix {needle : Bytes} {c : UInt8} {text : Bytes}
    (hother : ¬needle <+: c :: text) :
    position needle (c :: text) = (position needle text).map (· + 1) := by
  rw [position, List.tails_cons, List.findIdx?_cons,
    if_neg (fun hhead => hother (List.isPrefixOf_iff_prefix.mp hhead)), position]

theorem position_eq_zero_iff {needle text : Bytes} : position needle text = some 0 ↔ needle <+: text := by
  refine ⟨fun hzero => ?_, position_of_isPrefix⟩
  by_contra hother
  cases text with
  | nil =>
      have hne : needle ≠ [] := fun hnil => hother (hnil ▸ List.nil_prefix)
      rw [position_nil hne] at hzero
      cases hzero
  | cons c text =>
      rw [position_cons_of_not_isPrefix hother] at hzero
      obtain ⟨i, -, hi⟩ := Option.map_eq_some_iff.mp hzero
      exact absurd hi (Nat.succ_ne_zero i)

theorem filter_map_succ (found : Option Nat) {p q : Nat → Bool} (hsame : ∀ i, p (i + 1) = q i) :
    (found.map (· + 1)).filter p = (found.filter q).map (· + 1) := by
  cases found with
  | none => rfl
  | some i =>
      rw [Option.map_some, Option.filter_some, Option.filter_some, hsame]
      split <;> rfl

theorem prefix_cString_iff {needle : Bytes} (hnul : 0 ∉ needle) (text : Bytes) :
    needle <+: cString text ↔ needle <+: text := by
  constructor
  · exact fun hfront => hfront.trans (List.takeWhile_prefix _)
  · rintro ⟨rest, rfl⟩
    have hall : ∀ c ∈ needle, decide (c ≠ 0) = true := by
      intro c hc
      rw [decide_eq_true_eq]
      rintro rfl
      exact hnul hc
    rw [cString, List.takeWhile_append_of_pos hall]
    exact List.prefix_append _ _

/-- A needle without NULs is found before the first NUL or behind it. -/
theorem position_cString {needle : Bytes} (hne : needle ≠ []) (hnul : 0 ∉ needle) (text : Bytes) :
    position needle (cString text) =
      (position needle text).filter fun p => decide (p + needle.length ≤ (cString text).length) := by
  have hpos : 0 < needle.length := List.length_pos_of_ne_nil hne
  induction text with
  | nil =>
      rw [cString, List.takeWhile_nil, position_nil hne]
      rfl
  | cons c text ih =>
      by_cases hc : c = 0
      · have hcut : cString (c :: text) = [] := by
          rw [cString, List.takeWhile_cons_of_neg (by simp [hc])]
        rw [hcut, position_nil hne, eq_comm, Option.filter_eq_none_iff]
        intro p _ hfits
        rw [decide_eq_true_eq, List.length_nil] at hfits
        omega
      · have hcut : cString (c :: text) = c :: cString text := by
          rw [cString, List.takeWhile_cons_of_pos (by simpa using hc), ← cString]
        by_cases hfront : needle <+: c :: text
        · have hinside := (prefix_cString_iff hnul (c :: text)).mpr hfront
          have hfits : 0 + needle.length ≤ (cString (c :: text)).length := by
            rw [Nat.zero_add]
            exact hinside.length_le
          rw [position_of_isPrefix hfront, position_of_isPrefix hinside, Option.filter_some,
            if_pos (decide_eq_true hfits)]
        · have hinside : ¬needle <+: c :: cString text := fun hinside =>
            hfront ((prefix_cString_iff hnul (c :: text)).mp (hcut ▸ hinside))
          rw [hcut, position_cons_of_not_isPrefix hinside, position_cons_of_not_isPrefix hfront, ih]
          refine (filter_map_succ _ fun p => ?_).symm
          rw [List.length_cons, decide_eq_decide]
          omega

/-! ### The loop -/

/-- The loop finds the first occurrence if that is not behind its bound. -/
theorem strnstrLoop_eq {needle : Bytes} (hne : needle ≠ []) (hnul : 0 ∉ needle) {rounds len : Nat}
    (hrounds : rounds + needle.length ≤ len + 1) (i : Nat) (haystack : Memory) :
    strnstrLoop needle rounds i haystack =
      ((position needle (bytesAt haystack len)).filter fun p => decide (p < rounds)).map (i + ·) := by
  have hpos : 0 < needle.length := List.length_pos_of_ne_nil hne
  induction rounds generalizing i len haystack with
  | zero =>
      rw [strnstrLoop, eq_comm, Option.map_eq_none_iff, Option.filter_eq_none_iff]
      intro p _ hless
      exact absurd (of_decide_eq_true hless) (Nat.not_lt_zero p)
  | succ rounds ih =>
      obtain ⟨len, rfl⟩ : ∃ rest, len = rest + 1 := ⟨len - 1, by omega⟩
      have hmatch : (haystack 0 == needle.headD 0 && strncmpEq needle haystack) = true ↔
          needle <+: bytesAt haystack (len + 1) := by
        rw [Bool.and_eq_true, strncmpEq_iff hnul, List.prefix_iff_eq_take,
          take_bytesAt haystack (by omega : needle.length ≤ len + 1), beq_iff_eq]
        refine ⟨fun h => h.2.symm, fun h => ⟨?_, h.symm⟩⟩
        obtain ⟨n, hn⟩ : ∃ n, needle.length = n + 1 := ⟨needle.length - 1, by omega⟩
        rw [h, hn, bytesAt_succ, List.headD_cons]
      rw [strnstrLoop]
      by_cases hfront : needle <+: bytesAt haystack (len + 1)
      · rw [if_pos (hmatch.mpr hfront), position_of_isPrefix hfront, Option.filter_some,
          if_pos (decide_eq_true (Nat.succ_pos rounds)), Option.map_some, Nat.add_zero]
      · rw [if_neg (hmatch.not.mpr hfront), ih (by omega : rounds + needle.length ≤ len + 1) (i + 1)]
        rw [bytesAt_succ] at hfront ⊢
        have hless : ∀ p, decide (p + 1 < rounds + 1) = decide (p < rounds) := fun p =>
          decide_eq_decide.mpr Nat.add_lt_add_iff_right
        rw [position_cons_of_not_isPrefix hfront, filter_map_succ _ hless, Option.map_map]
        congr 1
        funext p
        rw [Function.comp_apply]
        omega

/-! ### `strnstr` -/

/-- The text that is searched: it ends at a NUL or after `len` bytes. -/
def textIn (haystack : Memory) (len : UInt64) : Bytes := cString (bytesAt haystack len.toNat)

/-- The search gives the first position of the needle in the text, and NULL if there is none. -/
def Finds (haystack : Memory) (needle : CString) (len : UInt64) : Prop :=
  strnstr haystack needle len =
    match position needle.val (textIn haystack len) with
    | some p => .found p
    | none => .null

/-- A needle that is too long does not start with all that there is. Otherwise the first occurrence, if
there is one, is before the first NUL exactly if it is not behind the bound of the loop, and a loop that
goes through all of an `int` does not come to its end. -/
def SearchFits (haystack : Memory) (needle : CString) (len : UInt64) : Prop :=
  let whole := bytesAt haystack len.toNat
  let last := lastIndex len.toNat needle.val.length
  if len.toNat < needle.val.length then ¬whole <+: needle.val
  else needle.val = [] ∨
    ((∀ p, position needle.val whole = some p →
        (p + needle.val.length ≤ (textIn haystack len).length ↔ p ≤ last)) ∧
      (last = intBound - 1 → ∃ p : Nat, position needle.val whole = some p ∧ p ≤ last))

theorem length_textIn_le (haystack : Memory) (len : UInt64) : (textIn haystack len).length ≤ len.toNat := by
  have hle := (List.takeWhile_prefix (p := (· ≠ 0)) (l := bytesAt haystack len.toNat)).length_le
  rwa [length_bytesAt] at hle

theorem position_of_short {needle text : Bytes} (hshort : text.length < needle.length) :
    position needle text = none := by
  rw [position, List.findIdx?_eq_none_iff]
  intro tail htail
  rw [Bool.eq_false_iff]
  intro hfront
  have hle := (List.isPrefixOf_iff_prefix.mp hfront).length_le
  have htail := ((List.mem_tails _ _).mp htail).length_le
  omega

/-- A needle that is longer than what may be searched is cut. -/
theorem strnstr_of_short {haystack : Memory} {needle : CString} {len : UInt64}
    (hshort : len.toNat < needle.val.length) :
    strnstr haystack needle len =
      if bytesAt haystack len.toNat <+: needle.val then .found 0 else .null := by
  rw [strnstr, Nat.min_eq_right (Nat.le_of_lt hshort)]
  dsimp only
  by_cases hlen : len.toNat = 0
  · rw [if_pos hlen, hlen]
    exact (if_pos List.nil_prefix).symm
  · have hcut : (needle.val.take len.toNat).length = len.toNat :=
      List.length_take_of_le (Nat.le_of_lt hshort)
    have hne : needle.val.take len.toNat ≠ [] := by
      rw [← List.length_pos_iff_ne_nil, hcut]
      omega
    have hnul : 0 ∉ needle.val.take len.toNat := fun hzero => needle.property (List.mem_of_mem_take hzero)
    have hlast : lastIndex len.toNat len.toNat = 0 := by
      rw [lastIndex, Nat.sub_self]
      rfl
    have hwhole : needle.val.take len.toNat <+: bytesAt haystack len.toNat ↔
        bytesAt haystack len.toNat <+: needle.val := by
      rw [List.prefix_iff_eq_take, List.prefix_iff_eq_take, hcut, length_bytesAt, eq_comm,
        List.take_of_length_le (Nat.le_of_eq (length_bytesAt _ _))]
    have hrounds : (0 + 1 : Int).toNat + (needle.val.take len.toNat).length ≤ len.toNat + 1 := by
      rw [hcut, Nat.add_comm]
      rfl
    rw [if_neg hlen, hlast, strnstrLoop_eq hne hnul hrounds]
    by_cases hmatch : needle.val.take len.toNat <+: bytesAt haystack len.toNat
    · rw [position_of_isPrefix hmatch, if_pos (hwhole.mp hmatch)]
      rfl
    · have hmiss : (position (needle.val.take len.toNat) (bytesAt haystack len.toNat)).filter
          (fun p => decide (p < (0 + 1 : Int).toNat)) = none := by
        rw [Option.filter_eq_none_iff]
        intro p hp hless
        have hzero : p = 0 := Nat.lt_one_iff.mp (of_decide_eq_true hless)
        exact hmatch (position_eq_zero_iff.mp (hzero ▸ hp))
      rw [hmiss, if_neg (hwhole.not.mp hmatch)]
      rfl

theorem finds_iff_of_short {haystack : Memory} {needle : CString} {len : UInt64}
    (hshort : len.toNat < needle.val.length) :
    Finds haystack needle len ↔ ¬bytesAt haystack len.toNat <+: needle.val := by
  have hnone : position needle.val (textIn haystack len) = none :=
    position_of_short (Nat.lt_of_le_of_lt (length_textIn_le haystack len) hshort)
  rw [Finds, hnone, strnstr_of_short hshort]
  by_cases hwhole : bytesAt haystack len.toNat <+: needle.val
  · rw [if_pos hwhole]
    exact iff_of_false Search.noConfusion (not_not.mpr hwhole)
  · rw [if_neg hwhole]
    exact iff_of_true rfl hwhole

/-- The search for a needle that fits finds the first occurrence, NULs or not, up to the bound. -/
theorem strnstr_of_long {haystack : Memory} {needle : CString} {len : UInt64}
    (hlong : needle.val.length ≤ len.toNat) (hne : needle.val ≠ []) :
    strnstr haystack needle len =
      match (position needle.val (bytesAt haystack len.toNat)).filter
          fun p : Nat => decide (p ≤ lastIndex len.toNat needle.val.length) with
      | some p => .found p
      | none => if lastIndex len.toNat needle.val.length = intBound - 1 then .overflow else .null := by
  have hpos : 0 < needle.val.length := List.length_pos_of_ne_nil hne
  have hlast : lastIndex len.toNat needle.val.length ≤ (len.toNat - needle.val.length : Nat) :=
    intOfSize_le _
  rw [strnstr, Nat.min_eq_left hlong, if_neg (Nat.ne_of_gt hpos),
    List.take_of_length_le (Nat.le_refl _)]
  dsimp only
  generalize lastIndex len.toNat needle.val.length = last at *
  have hrounds : ∀ p : Nat, decide (p < (last + 1).toNat) = decide ((p : Int) ≤ last) := fun p =>
    decide_eq_decide.mpr (by omega)
  have hfits : (last + 1).toNat + needle.val.length ≤ len.toNat + 1 := by omega
  rw [strnstrLoop_eq hne needle.property hfits, funext hrounds]
  cases (position needle.val (bytesAt haystack len.toNat)).filter fun p : Nat => decide (p ≤ last) with
  | none => rfl
  | some p => simp

theorem finds_iff_of_long {haystack : Memory} {needle : CString} {len : UInt64}
    (hlong : needle.val.length ≤ len.toNat) (hne : needle.val ≠ []) :
    Finds haystack needle len ↔
      (∀ p, position needle.val (bytesAt haystack len.toNat) = some p →
        (p + needle.val.length ≤ (textIn haystack len).length ↔
          p ≤ lastIndex len.toNat needle.val.length)) ∧
      (lastIndex len.toNat needle.val.length = intBound - 1 →
        ∃ p : Nat, position needle.val (bytesAt haystack len.toNat) = some p ∧
          p ≤ lastIndex len.toNat needle.val.length) := by
  rw [Finds, strnstr_of_long hlong hne, textIn, position_cString hne needle.property, ← textIn]
  generalize lastIndex len.toNat needle.val.length = last
  cases hfirst : position needle.val (bytesAt haystack len.toNat) with
  | none =>
      by_cases hmax : last = intBound - 1
      · simp [hmax]
      · simp [hmax]
  | some p =>
      rw [Option.filter_some, Option.filter_some]
      by_cases hle : (p : Int) ≤ last
      · by_cases hinside : p + needle.val.length ≤ (textIn haystack len).length
        · simp [hle, hinside]
        · simp [hle, hinside]
      · by_cases hinside : p + needle.val.length ≤ (textIn haystack len).length
        · have hother : ¬(if last = intBound - 1 then Search.overflow else Search.null) = .found p := by
            split <;> exact Search.noConfusion
          simp [hle, hinside, hother]
        · by_cases hmax : last = intBound - 1
          · have hnot : ¬∃ q : Nat, some p = some q ∧ (q : Int) ≤ last := by
              rintro ⟨q, hq, hqle⟩
              cases hq
              exact hle hqle
            refine iff_of_false ?_ fun h => hnot (h.2 hmax)
            rw [if_neg (by simpa using hle), if_pos hmax, if_neg (by simpa using hinside)]
            exact Search.noConfusion
          · simp [hle, hinside, hmax]

theorem finds_iff (haystack : Memory) (needle : CString) (len : UInt64) :
    Finds haystack needle len ↔ SearchFits haystack needle len := by
  unfold SearchFits
  dsimp only
  by_cases hshort : len.toNat < needle.val.length
  · rw [if_pos hshort]
    exact finds_iff_of_short hshort
  · rw [if_neg hshort]
    by_cases hnil : needle.val = []
    · refine iff_of_true ?_ (Or.inl hnil)
      rw [Finds, strnstr, hnil, position_of_isPrefix List.nil_prefix]
      rfl
    · rw [or_iff_right hnil]
      exact finds_iff_of_long (Nat.not_lt.mp hshort) hnil

/-! ### Messages for the DHT -/

open Routing

/-- A message that is accepted has the whole id in it. -/
def AcceptsWholeId (msg : StreamMessage) : Prop :=
  dhtCanHandle msg = some true →
    ∃ data, msg.data = some data ∧ kadId.val <:+: bytesAt data msg.dataSize.toNat

/-- All of the message is the id without its last byte. -/
def CutId (msg : StreamMessage) : Prop :=
  msg.dataSize = 8 ∧ ∃ data, msg.data = some data ∧ bytesAt data 8 = kadId.val.take 8

theorem length_kadId : kadId.val.length = 9 := by decide +kernel

theorem dhtCanHandle_iff {data : Memory} {size : UInt64} :
    dhtCanHandle ⟨some data, size⟩ = some true ↔
      8 ≤ size.toNat ∧ strnstr data kadId size = .found 0 := by
  rw [dhtCanHandle]
  dsimp only
  have hless : size < 8 ↔ ¬8 ≤ size.toNat := by
    rw [UInt64.lt_iff_toNat_lt, Nat.not_le]
    rfl
  by_cases hlong : 8 ≤ size.toNat
  · have hpos : size ≠ 0 := by
      rintro rfl
      exact absurd hlong (by decide)
    rw [if_neg hpos, if_neg (hless.not.mpr (not_not.mpr hlong)), and_iff_right hlong]
    cases strnstr data kadId size with
    | found position => simp
    | null => simp
    | overflow => simp
  · rw [if_pos (hless.mpr hlong), ite_self]
    simp [hlong]

theorem kadId_ne_nil : kadId.val ≠ [] := by
  rw [← List.length_pos_iff_ne_nil, length_kadId]
  decide

theorem prefix_of_found {data : Memory} {size : UInt64} (hlong : 9 ≤ size.toNat)
    (hfound : strnstr data kadId size = .found 0) : kadId.val <+: bytesAt data size.toNat := by
  rw [strnstr_of_long (by rwa [length_kadId]) kadId_ne_nil] at hfound
  rw [← position_eq_zero_iff]
  split at hfound
  · rename_i p hp
    cases hfound
    exact (Option.filter_eq_some_iff.mp hp).1
  · split at hfound <;> cases hfound

theorem acceptsWholeId_iff (msg : StreamMessage) : AcceptsWholeId msg ↔ ¬CutId msg := by
  obtain ⟨data | data, size⟩ := msg
  · refine iff_of_true (fun haccepts => ?_) ?_
    · cases haccepts
    · rintro ⟨-, data, hdata, -⟩
      cases hdata
  · by_cases hnine : 9 ≤ size.toNat
    · refine iff_of_true (fun haccepts => ⟨data, rfl, ?_⟩) ?_
      · exact (prefix_of_found hnine (dhtCanHandle_iff.mp haccepts).2).isInfix
      · rintro ⟨rfl, -⟩
        exact absurd hnine (by decide)
    · have hshort : size.toNat < kadId.val.length := by
        rw [length_kadId]
        omega
      have hmissing : ¬kadId.val <:+: bytesAt data size.toNat := by
        intro hinside
        have hle := hinside.length_le
        rw [length_bytesAt] at hle
        omega
      have hcut : CutId ⟨some data, size⟩ ↔ dhtCanHandle ⟨some data, size⟩ = some true := by
        rw [dhtCanHandle_iff, strnstr_of_short hshort]
        constructor
        · rintro ⟨rfl, data, hdata, hbytes⟩
          cases hdata
          have hfront : bytesAt data 8 <+: kadId.val := hbytes ▸ List.take_prefix 8 _
          exact ⟨by decide, if_pos hfront⟩
        · rintro ⟨height, hfound⟩
          have hsize : size.toNat = 8 := by omega
          have hfront : bytesAt data size.toNat <+: kadId.val := by
            by_contra hother
            rw [if_neg hother] at hfound
            cases hfound
          rw [List.prefix_iff_eq_take, length_bytesAt, hsize] at hfront
          exact ⟨UInt64.toNat_inj.mp hsize, data, rfl, hfront⟩
      rw [hcut, AcceptsWholeId]
      constructor
      · rintro hwhole haccepts
        obtain ⟨data, hdata, hinside⟩ := hwhole haccepts
        cases hdata
        exact hmissing hinside
      · exact fun hnot haccepts => absurd haccepts hnot

/-- **Searching.** `strnstr` gives the first position of the needle in the text exactly if the needle is
not cut to the whole of what there is, and neither a NUL nor the bound of the loop is between. A message
that the DHT accepts has the whole id in it exactly if it is not the id without its last byte. -/
theorem finds_and_acceptsWholeId_iff (haystack : Memory) (needle : CString) (len : UInt64)
    (msg : StreamMessage) :
    (Finds haystack needle len ↔ SearchFits haystack needle len) ∧ (AcceptsWholeId msg ↔ ¬CutId msg) :=
  ⟨finds_iff haystack needle len, acceptsWholeId_iff msg⟩

/-- In two bytes that are its start a needle of three is found, and the message without the last byte of
the id is accepted. -/
theorem not_finds :
    ¬(∀ haystack needle len, Finds haystack needle len) ∧ ¬∀ msg, AcceptsWholeId msg := by
  constructor
  · intro hall
    have hfound := hall (fun i => [97, 98].getD i 0) ⟨[97, 98, 99], by decide⟩ 2
    exact absurd hfound (by unfold Finds; decide)
  · intro hall
    obtain ⟨data, hdata, hinside⟩ :=
      hall ⟨some fun i => (kadId.val.take 8).getD i 0, 8⟩ (by decide +kernel)
    have hle := hinside.length_le
    rw [length_bytesAt, length_kadId] at hle
    exact absurd hle (by decide)

end CLibp2p.Os
