import CLibp2p.Discovery.PrivateAddress
import CLibp2p.Ip.Text

/-!
# Addresses that are private and do not look it

For an IPv4 address in front the text is read as it should be. Of an IPv6 address only the first letters
are looked at, and only if no IPv4 address comes anywhere behind it.
-/

namespace CLibp2p.Discovery

open Duplex Net Ip

inductive Address where
  | ip4 (parts : List Nat)
  | ip6 (groups : List Nat)
deriving Repr, DecidableEq

/-- In 10/8, 172.16/12, 192.168/16 or 127/8, or in fc00::/7 or fe80::/10. -/
def Address.IsPrivate : Address → Prop
  | .ip4 parts =>
      let address := positional (2 ^ 8) parts
      InBlock 32 8 (positional (2 ^ 8) [10, 0, 0, 0]) address ∨
        InBlock 32 12 (positional (2 ^ 8) [172, 16, 0, 0]) address ∨
        InBlock 32 16 (positional (2 ^ 8) [192, 168, 0, 0]) address ∨
        InBlock 32 8 (positional (2 ^ 8) [127, 0, 0, 0]) address
  | .ip6 groups =>
      let address := positional (2 ^ 16) groups
      InBlock 128 7 (positional (2 ^ 16) [0xfc00, 0, 0, 0, 0, 0, 0, 0]) address ∨
        InBlock 128 10 (positional (2 ^ 16) [0xfe80, 0, 0, 0, 0, 0, 0, 0]) address

/-- The first component is this address, written as this text, and further components are behind it. -/
inductive LeadsWith : (multiaddr text : Bytes) → (address : Address) → Prop where
  | ip4 {text rest : Bytes} {parts : List Nat} (htext : IsIpv4 text parts)
      (hrest : rest = [] ∨ rest.head? = some slash) :
      LeadsWith (slashIp4 ++ (text ++ rest)) text (.ip4 parts)
  | ip6 {text rest : Bytes} {groups : List Nat} (htext : IsIpv6 text groups)
      (hrest : rest = [] ∨ rest.head? = some slash) :
      LeadsWith (slashIp6 ++ (text ++ rest)) text (.ip6 groups)

def StartsPrivate (text : Bytes) : Prop := fc <+: text ∨ fd <+: text ∨ fe80 <+: text

/-- What is behind a later "/ip4/" is a private IPv4 address, or no IPv4 address but text that `sscanf` takes
for one. -/
def LaterPrivate (component : Bytes) : Prop :=
  (∃ parts, IsIpv4 component parts ∧ (Address.ip4 parts).IsPrivate) ∨
    (¬∃ parts, IsIpv4 component parts) ∧ isPrivateIpv4 component = true

/-- An IPv6 address looks like what it is: if it is private it starts with fc, fd or fe80 in small letters,
and fc or fd start a number of four digits. A later IPv4 component is private exactly if it is. -/
def LooksRight (multiaddr text : Bytes) : Address → Prop
  | .ip4 _ => True
  | .ip6 groups =>
      match strstr multiaddr slashIp4 with
      | some later => LaterPrivate (copyComponent later 64) ↔ (Address.ip6 groups).IsPrivate
      | none =>
          ((Address.ip6 groups).IsPrivate → StartsPrivate text) ∧
            (fc <+: text ∨ fd <+: text → colon ∉ text.take 4)

/-! ### The first component -/

theorem strstr_append (needle rest : Bytes) : strstr (needle ++ rest) needle = some rest := by
  have hprefix : needle.isPrefixOf (needle ++ rest) = true :=
    List.isPrefixOf_iff_prefix.mpr (List.prefix_append _ _)
  have hfirst : (needle ++ rest).tails.find? (fun tail => needle.isPrefixOf tail) = some (needle ++ rest) := by
    cases htext : needle ++ rest with
    | nil => exact List.find?_cons_of_pos (htext ▸ hprefix)
    | cons first tail => exact List.find?_cons_of_pos (htext ▸ hprefix)
  rw [strstr, hfirst, Option.map_some, List.drop_left]

theorem copyComponent_append {front : Bytes} {size : Nat} (hslash : slash ∉ front)
    (hsize : front.length < size) (rest : Bytes) :
    copyComponent (front ++ rest) size =
      front ++ (rest.takeWhile (· ≠ slash)).take (size - 1 - front.length) := by
  have hfront : ∀ c ∈ front, decide (c ≠ slash) = true := by
    intro c hc
    exact decide_eq_true fun hslash' => hslash (hslash' ▸ hc)
  rw [copyComponent, List.takeWhile_append_of_pos hfront, List.take_append, List.take_of_length_le (by omega)]

theorem copyComponent_of_ends {text rest : Bytes} {size : Nat} (hslash : slash ∉ text)
    (hsize : text.length < size) (hrest : rest = [] ∨ rest.head? = some slash) :
    copyComponent (text ++ rest) size = text := by
  have hnone : rest.takeWhile (· ≠ slash) = [] := by
    rcases hrest with rfl | hhead
    · rfl
    · obtain ⟨rest, rfl⟩ := List.head?_eq_some_iff.mp hhead
      exact List.takeWhile_cons_of_neg (by simp)
  rw [copyComponent_append hslash hsize, hnone, List.take_nil, List.append_nil]

/-! ### IPv4 -/

theorem decimal_eq {digits : Bytes} (hdigits : ∀ c ∈ digits, IsDecimalDigit c) :
    decimal digits = positional 10 (digits.map digitValue) := by
  induction digits using List.reverseRecOn with
  | nil => rfl
  | append_singleton digits digit ih =>
      rw [List.forall_mem_append, List.forall_mem_singleton] at hdigits
      rw [List.map_append, List.map_singleton, positional_concat, ← ih hdigits.1, decimal, decimal,
        List.foldl_append, List.foldl_cons, List.foldl_nil, digitValue, if_pos hdigits.2.2]
      omega

theorem isDigit_iff (c : UInt8) : isDigit c = true ↔ IsDecimalDigit c := by
  rw [isDigit, Bool.and_eq_true, decide_eq_true_iff, decide_eq_true_iff, IsDecimalDigit]

theorem IsDecimalDigit.plain {c : UInt8} (hc : IsDecimalDigit c) :
    isSpace c = false ∧ c ≠ '-'.toUInt8 ∧ c ≠ '+'.toUInt8 := by
  have hall : ∀ n < 256, IsDecimalDigit (UInt8.ofNat n) →
      isSpace (UInt8.ofNat n) = false ∧ UInt8.ofNat n ≠ '-'.toUInt8 ∧ UInt8.ofNat n ≠ '+'.toUInt8 := by
    decide +kernel
  have hplain := hall c.toNat c.toNat_lt
  rw [UInt8.ofNat_toNat] at hplain
  exact hplain hc

theorem while_of_head {p : UInt8 → Bool} {text : Bytes} (hhead : ∀ c, text.head? = some c → p c = false) :
    text.takeWhile p = [] ∧ text.dropWhile p = text := by
  cases text with
  | nil => exact ⟨rfl, rfl⟩
  | cons first rest =>
      have hfirst : ¬p first = true := Bool.not_eq_true _ ▸ hhead first rfl
      exact ⟨List.takeWhile_cons_of_neg hfirst, List.dropWhile_cons_of_neg hfirst⟩

/-- A number with something behind it that is no digit. -/
theorem scanUnsigned_part {text rest : Bytes} {value : Nat} (hpart : IsPart text value)
    (hrest : ∀ c, rest.head? = some c → isDigit c = false) :
    scanUnsigned (text ++ rest) = some (UInt32.ofNat value, rest) := by
  obtain ⟨hdigits, ⟨hpos, hlength⟩, hvalue, hlt⟩ := hpart
  have hne : text ≠ [] := List.length_pos_iff.mp hpos
  have hall : ∀ c ∈ text, isDigit c = true := fun c hc => (isDigit_iff c).mpr (hdigits c hc)
  have hfirst : ∀ c, (text ++ rest).head? = some c →
      isSpace c = false ∧ c ≠ '-'.toUInt8 ∧ c ≠ '+'.toUInt8 := by
    intro c hc
    rw [List.head?_append_of_ne_nil _ hne] at hc
    exact IsDecimalDigit.plain (hdigits c (List.mem_of_mem_head? hc))
  have hspace : (text ++ rest).dropWhile isSpace = text ++ rest :=
    (while_of_head fun c hc => (hfirst c hc).1).2
  have htake : (text ++ rest).takeWhile isDigit = text := by
    rw [List.takeWhile_append_of_pos hall, (while_of_head hrest).1, List.append_nil]
  have hdrop : (text ++ rest).dropWhile isDigit = rest := by
    rw [List.dropWhile_append_of_pos hall, (while_of_head hrest).2]
  have hminus : ¬(text ++ rest).head? = some '-'.toUInt8 := fun h => (hfirst _ h).2.1 rfl
  have hplus : ¬(text ++ rest).head? = some '+'.toUInt8 := fun h => (hfirst _ h).2.2 rfl
  have hdecimal : decimal text = value := (decimal_eq hdigits).trans hvalue.symm
  have hstrtoul : strtoul false text = value := by
    rw [strtoul, hdecimal, if_neg (by omega), if_neg Bool.false_ne_true]
  rw [scanUnsigned, hspace]
  simp only [hminus, hplus, or_self, if_false, htake, hdrop, hne, decide_false, hstrtoul]

theorem scanTwo_of_isIpv4 {text : Bytes} {x y z w : Nat} (htext : IsIpv4 text [x, y, z, w]) :
    scanTwo text = some (UInt32.ofNat x, UInt32.ofNat y) := by
  cases htext with
  | @mk a b c d _ _ _ _ ha hb hc hd =>
      have hdot : ∀ (rest : Bytes) (c : UInt8), (dot :: rest).head? = some c → isDigit c = false := by
        intro rest c hhead
        cases hhead
        decide
      rw [scanTwo, scanUnsigned_part ha (hdot _)]
      have hsecond : scanUnsigned (dot :: (b ++ dot :: (c ++ dot :: d))).tail =
          some (UInt32.ofNat y, dot :: (c ++ dot :: d)) := scanUnsigned_part hb (hdot _)
      show (scanUnsigned (dot :: (b ++ dot :: (c ++ dot :: d))).tail).bind
        (fun second => some (UInt32.ofNat x, second.1)) = _
      rw [hsecond]
      rfl

theorem isPrivate_ip4_iff {x y z w : Nat} (hlt : ∀ part ∈ [x, y, z, w], part < 2 ^ 8) :
    (Address.ip4 [x, y, z, w]).IsPrivate ↔
      x = 10 ∨ x = 127 ∨ x = 192 ∧ y = 168 ∨ x = 172 ∧ 16 ≤ y ∧ y ≤ 31 := by
  rw [List.forall_mem_cons, List.forall_mem_cons, List.forall_mem_cons, List.forall_mem_singleton] at hlt
  simp only [Address.IsPrivate, InBlock, positional_cons, List.length_cons, List.length_nil]
  have hnil : positional (2 ^ 8) [] = 0 := rfl
  rw [hnil]
  omega

theorem IsPart.slash_not_mem {text : Bytes} {value : Nat} (hpart : IsPart text value) : slash ∉ text := by
  intro hslash
  exact absurd (hpart.digits slash hslash) (by decide)

theorem copyComponent_of_isIpv4 {text rest : Bytes} {parts : List Nat} (htext : IsIpv4 text parts)
    (hrest : rest = [] ∨ rest.head? = some slash) : copyComponent (text ++ rest) 64 = text := by
  apply copyComponent_of_ends _ _ hrest
  · cases htext with
    | mk ha hb hc hd =>
        have hdot : slash ≠ dot := by decide
        simp only [List.mem_append, List.mem_cons, not_or]
        exact ⟨IsPart.slash_not_mem ha, hdot, IsPart.slash_not_mem hb, hdot, IsPart.slash_not_mem hc, hdot,
          IsPart.slash_not_mem hd⟩
  · cases htext with
    | mk ha hb hc hd =>
        have hlengths := And.intro (And.intro ha.length.2 hb.length.2) (And.intro hc.length.2 hd.length.2)
        simp only [List.length_append, List.length_cons]
        omega

theorem ofNat_eq_iff {part value : Nat} (hpart : part < 2 ^ 8) (hvalue : value < 2 ^ 8) :
    UInt32.ofNat part = UInt32.ofNat value ↔ part = value := by
  rw [← UInt32.toNat_inj, UInt32.toNat_ofNat', UInt32.toNat_ofNat']
  omega

theorem isPrivateIpv4_iff {text : Bytes} {parts : List Nat} (htext : IsIpv4 text parts) :
    isPrivateIpv4 text = true ↔ (Address.ip4 parts).IsPrivate := by
  have hlt := htext.parts_lt
  obtain ⟨x, y, z, w, rfl⟩ : ∃ x y z w, parts = [x, y, z, w] := by
    cases htext with
    | mk _ _ _ _ => exact ⟨_, _, _, _, rfl⟩
  rw [isPrivate_ip4_iff hlt, isPrivateIpv4, scanTwo_of_isIpv4 htext]
  rw [List.forall_mem_cons, List.forall_mem_cons] at hlt
  have hx := hlt.1
  have hy := hlt.2.1
  have hge : 16 ≤ UInt32.ofNat y ∧ UInt32.ofNat y ≤ 31 ↔ 16 ≤ y ∧ y ≤ 31 := by
    simp only [UInt32.le_iff_toNat_le, UInt32.toNat_ofNat', UInt32.reduceToNat]
    omega
  have h10 : UInt32.ofNat x = 10 ↔ x = 10 := ofNat_eq_iff hx (by decide)
  have h127 : UInt32.ofNat x = 127 ↔ x = 127 := ofNat_eq_iff hx (by decide)
  have h192 : UInt32.ofNat x = 192 ↔ x = 192 := ofNat_eq_iff hx (by decide)
  have h168 : UInt32.ofNat y = 168 ↔ y = 168 := ofNat_eq_iff hy (by decide)
  have h172 : UInt32.ofNat x = 172 ↔ x = 172 := ofNat_eq_iff hx (by decide)
  simp only [h10, h127, h192, h168, h172, hge]
  split
  · exact iff_of_true rfl (by omega)
  · split
    · exact iff_of_true rfl (by omega)
    · split
      · exact iff_of_true rfl (by omega)
      · exact iff_of_false Bool.false_ne_true (by omega)

theorem isPrivateIpv4_iff_later (component : Bytes) : isPrivateIpv4 component = true ↔ LaterPrivate component := by
  constructor
  · intro hprivate
    by_cases haddress : ∃ parts, IsIpv4 component parts
    · obtain ⟨parts, htext⟩ := haddress
      exact .inl ⟨parts, htext, (isPrivateIpv4_iff htext).mp hprivate⟩
    · exact .inr ⟨haddress, hprivate⟩
  · rintro (⟨parts, htext, hprivate⟩ | ⟨-, hprivate⟩)
    · exact (isPrivateIpv4_iff htext).mpr hprivate
    · exact hprivate

/-! ### IPv6 -/

theorem isPrivate_ip6_iff {groups : List Nat} {first : Nat} (hlength : groups.length = 8)
    (hlt : ∀ group ∈ groups, group < 2 ^ 16) (hfirst : groups.head? = some first) :
    (Address.ip6 groups).IsPrivate ↔ first / 2 ^ 9 = 126 ∨ first / 2 ^ 6 = 1018 := by
  obtain ⟨rest, rfl⟩ := List.head?_eq_some_iff.mp hfirst
  have hrest : rest.length = 7 := Nat.succ.inj hlength
  have hzeros : ∀ number ∈ [0, 0, 0, 0, 0, 0, 0], number < 2 ^ 16 := by decide
  have hsame : [0, 0, 0, 0, 0, 0, 0].length = rest.length := hrest.symm
  have hsize : 16 * (rest.length + 1) = 128 := by rw [hrest]
  have hlt' := (List.forall_mem_cons.mp hlt).2
  have hunique : InBlock (16 * (rest.length + 1)) 7 (positional (2 ^ 16) [0xfc00, 0, 0, 0, 0, 0, 0, 0])
      (positional (2 ^ 16) (first :: rest)) ↔ first / 2 ^ (16 - 7) = 0xfc00 / 2 ^ (16 - 7) :=
    inBlock_iff_first (by decide) (by decide) hsame hlt' hzeros
  have hlocal : InBlock (16 * (rest.length + 1)) 10 (positional (2 ^ 16) [0xfe80, 0, 0, 0, 0, 0, 0, 0])
      (positional (2 ^ 16) (first :: rest)) ↔ first / 2 ^ (16 - 10) = 0xfe80 / 2 ^ (16 - 10) :=
    inBlock_iff_first (by decide) (by decide) hsame hlt' hzeros
  rw [hsize] at hunique hlocal
  exact or_congr hunique hlocal

/-- A text without colons starts the first number where it starts the address. -/
theorem isPrefix_append_colon_iff {start first : Bytes} (hcolon : colon ∉ start) (rest : Bytes) :
    start <+: first ++ colon :: rest ↔ start <+: first := by
  constructor
  · intro hstart
    rcases List.prefix_or_prefix_of_prefix hstart (List.prefix_append first _) with hshort | hlong
    · exact hshort
    · obtain ⟨more, rfl⟩ := hlong
      rw [List.prefix_append_right_inj] at hstart
      cases more with
      | nil => rw [List.append_nil]
      | cons c more =>
          obtain ⟨behind, hbehind⟩ := hstart
          rw [List.cons_append, List.cons.injEq] at hbehind
          rw [hbehind.1, List.mem_append, not_or] at hcolon
          exact absurd List.mem_cons_self hcolon.2
  · intro hstart
    exact hstart.trans (List.prefix_append _ _)

theorem isPrivateIpv6_iff (ip : Bytes) : isPrivateIpv6 ip = true ↔ StartsPrivate ip := by
  rw [isPrivateIpv6, Bool.or_eq_true, Bool.or_eq_true, List.isPrefixOf_iff_prefix, List.isPrefixOf_iff_prefix,
    List.isPrefixOf_iff_prefix, or_assoc, StartsPrivate]

theorem startsPrivate_append_colon_iff (first rest : Bytes) :
    StartsPrivate (first ++ colon :: rest) ↔ StartsPrivate first := by
  rw [StartsPrivate, isPrefix_append_colon_iff (by decide +kernel),
    isPrefix_append_colon_iff (by decide +kernel), isPrefix_append_colon_iff (by decide +kernel), StartsPrivate]

theorem startsPrivate_copyComponent {text rest : Bytes} {groups : List Nat} (htext : IsIpv6 text groups) :
    StartsPrivate (copyComponent (text ++ rest) 128) ↔ StartsPrivate text := by
  have hstart : ∃ first more, text = first ++ colon :: more ∧ slash ∉ first ∧ first.length ≤ 4 := by
    rcases htext.starts with ⟨first, more, value, rfl, hgroup, -⟩ | ⟨hcolon, -⟩
    · refine ⟨first, more, rfl, fun hslash => ?_, hgroup.length.2⟩
      exact absurd (hgroup.digits slash hslash) (by decide)
    · obtain ⟨more, rfl⟩ := List.head?_eq_some_iff.mp hcolon
      exact ⟨[], more, rfl, List.not_mem_nil, Nat.zero_le _⟩
  obtain ⟨first, more, rfl, hslash, hlength⟩ := hstart
  have hfront : slash ∉ first ++ [colon] := by
    rw [List.mem_append, not_or]
    exact ⟨hslash, by decide⟩
  have hsize : (first ++ [colon]).length < 128 := by
    rw [List.length_append, List.length_singleton]
    omega
  have hsplit : first ++ colon :: more ++ rest = first ++ [colon] ++ (more ++ rest) := by
    simp only [List.append_assoc, List.cons_append, List.nil_append]
  rw [hsplit, copyComponent_append hfront hsize, List.append_assoc, List.singleton_append,
    startsPrivate_append_colon_iff, startsPrivate_append_colon_iff]

theorem fc_eq : fc = [102, 99] := by decide +kernel

theorem fd_eq : fd = [102, 100] := by decide +kernel

theorem fe80_eq : fe80 = [102, 101, 56, 48] := by decide +kernel

/-- A first number that starts with fc or fd is in one of the blocks if it has four digits. -/
theorem value_of_starts {first : Bytes} {value : Nat} (hgroup : IsGroup first value)
    (hstart : fc <+: first ∨ fd <+: first) :
    (value / 2 ^ 9 = 126 ∨ value / 2 ^ 6 = 1018) ↔ first.length = 4 := by
  have hsecond : ∃ second more,
      first = 102 :: second :: more ∧ (digitValue second = 12 ∨ digitValue second = 13) := by
    rcases hstart with ⟨more, rfl⟩ | ⟨more, rfl⟩
    · exact ⟨99, more, by rw [fc_eq]; rfl, .inl rfl⟩
    · exact ⟨100, more, by rw [fd_eq]; rfl, .inr rfl⟩
  obtain ⟨second, more, rfl, hvalue⟩ := hsecond
  have hlength := hgroup.length.2
  have hdigits : ∀ c ∈ more, digitValue c < 16 := by
    intro c hc
    exact digitValue_lt (hgroup.digits c (List.mem_cons_of_mem _ (List.mem_cons_of_mem _ hc)))
  have h102 : digitValue 102 = 15 := rfl
  have hnil : positional 16 [] = 0 := rfl
  rw [hgroup.value_eq]
  match more, hlength, hdigits with
  | [], _, _ =>
      simp only [List.map_cons, List.map_nil, positional_cons, List.length_cons, List.length_nil, hnil, h102]
      omega
  | [third], _, hdigits =>
      have hthird := hdigits third List.mem_cons_self
      simp only [List.map_cons, List.map_nil, positional_cons, List.length_cons, List.length_nil, hnil, h102]
      omega
  | [third, fourth], _, hdigits =>
      have hthird := hdigits third List.mem_cons_self
      have hfourth := hdigits fourth (List.mem_cons_of_mem _ List.mem_cons_self)
      refine iff_of_true (.inl ?_) rfl
      simp only [List.map_cons, List.map_nil, positional_cons, List.length_cons, List.length_nil, hnil, h102]
      omega
  | _ :: _ :: _ :: _, hlength, _ =>
      simp only [List.length_cons] at hlength
      omega

theorem value_of_fe80 {first : Bytes} {value : Nat} (hgroup : IsGroup first value) (hstart : fe80 <+: first) :
    value / 2 ^ 6 = 1018 := by
  have hfirst : fe80 = first := by
    apply hstart.eq_of_length_le
    rw [fe80_eq]
    exact hgroup.length.2
  rw [hgroup.value_eq, ← hfirst, fe80_eq]
  decide

theorem length_eq_four_iff {first : Bytes} {value : Nat} (hgroup : IsGroup first value) (rest : Bytes) :
    first.length = 4 ↔ colon ∉ (first ++ colon :: rest).take 4 := by
  have hlength := hgroup.length.2
  constructor
  · intro hfour hcolon
    rw [← hfour, List.take_left] at hcolon
    exact absurd (hgroup.digits colon hcolon) (by decide)
  · intro hcolon
    by_contra hshort
    apply hcolon
    rw [List.take_append, List.mem_append]
    right
    obtain ⟨left, hleft⟩ : ∃ left, 4 - first.length = left + 1 := ⟨3 - first.length, by omega⟩
    rw [hleft, List.take_succ_cons]
    exact List.mem_cons_self

/-- An IPv6 address without a later IPv4 address is taken for what it is if it looks right. -/
theorem startsPrivate_iff_isPrivate {text : Bytes} {groups : List Nat} (htext : IsIpv6 text groups) :
    (StartsPrivate text ↔ (Address.ip6 groups).IsPrivate) ↔
      ((Address.ip6 groups).IsPrivate → StartsPrivate text) ∧
        (fc <+: text ∨ fd <+: text → colon ∉ text.take 4) := by
  rcases htext.starts with ⟨first, rest, value, rfl, hgroup, hvalue⟩ | ⟨hcolon, hzero⟩
  · rw [isPrivate_ip6_iff htext.length_groups htext.groups_lt hvalue, startsPrivate_append_colon_iff,
      isPrefix_append_colon_iff (by decide +kernel), isPrefix_append_colon_iff (by decide +kernel),
      ← length_eq_four_iff hgroup]
    constructor
    · intro hsame
      refine ⟨hsame.mpr, fun hstart => ?_⟩
      rw [← value_of_starts hgroup hstart]
      apply hsame.mp
      rcases hstart with hstart | hstart
      · exact .inl hstart
      · exact .inr (.inl hstart)
    · rintro ⟨hprivate, hfour⟩
      refine ⟨fun hstart => ?_, hprivate⟩
      rcases hstart with hstart | hstart | hstart
      · exact (value_of_starts hgroup (.inl hstart)).mpr (hfour (.inl hstart))
      · exact (value_of_starts hgroup (.inr hstart)).mpr (hfour (.inr hstart))
      · exact .inr (value_of_fe80 hgroup hstart)
  · obtain ⟨rest, rfl⟩ := List.head?_eq_some_iff.mp hcolon
    have hprivate : ¬(Address.ip6 groups).IsPrivate := by
      rw [isPrivate_ip6_iff htext.length_groups htext.groups_lt hzero]
      decide
    have hstart : ∀ start : Bytes, start ≠ [] → colon ∉ start → ¬start <+: colon :: rest := by
      intro start hne hcolon hstart
      exact hne (List.prefix_nil.mp ((@isPrefix_append_colon_iff start [] hcolon rest).mp hstart))
    have hfc := hstart fc (by decide +kernel) (by decide +kernel)
    have hfd := hstart fd (by decide +kernel) (by decide +kernel)
    have hfe80 := hstart fe80 (by decide +kernel) (by decide +kernel)
    have hstarts : ¬StartsPrivate (colon :: rest) := not_or.mpr ⟨hfc, not_or.mpr ⟨hfd, hfe80⟩⟩
    refine iff_of_true (iff_of_false hstarts hprivate) ⟨fun h => absurd h hprivate, fun h => ?_⟩
    exact absurd h (not_or.mpr ⟨hfc, hfd⟩)

/-- **Private addresses.** The answer for a multiaddress is right if and only if its first address looks
like what it is. -/
theorem isPrivateAddress_iff {multiaddr : CString} {text : Bytes} {address : Address}
    (hleads : LeadsWith multiaddr text address) :
    (isPrivateAddress (some multiaddr) = true ↔ address.IsPrivate) ↔ LooksRight multiaddr text address := by
  rw [isPrivateAddress]
  generalize multiaddr.val = str at hleads ⊢
  cases hleads with
  | ip4 htext hrest =>
      rw [strstr_append]
      dsimp only
      rw [copyComponent_of_isIpv4 htext hrest, isPrivateIpv4_iff htext]
      exact iff_of_true Iff.rfl trivial
  | @ip6 _ rest groups htext hrest =>
      rw [LooksRight]
      cases strstr (slashIp6 ++ (text ++ rest)) slashIp4 with
      | some later =>
          dsimp only
          rw [isPrivateIpv4_iff_later]
      | none =>
          rw [strstr_append]
          dsimp only
          rw [isPrivateIpv6_iff, startsPrivate_copyComponent htext, startsPrivate_iff_isPrivate htext]

theorem isIpv6_first {first : Bytes} {value : Nat} (hgroup : IsGroup first value) :
    IsIpv6 (first ++ colon :: colon :: [49]) [value, 0, 0, 0, 0, 0, 0, 1] := by
  have hone : IsGroup [49] 1 := ⟨by decide +kernel, by decide, by decide⟩
  exact .compressed (.inr (.single hgroup)) (.inr (.single hone)) (Nat.succ_pos 5) rfl

def startingWith (first rest : Bytes) : Bytes := slashIp6 ++ (first ++ colon :: colon :: [49] ++ rest)

theorem leadsWith_startingWith {first rest : Bytes} {value : Nat} (hgroup : IsGroup first value)
    (hrest : rest.head? = some slash) :
    LeadsWith (startingWith first rest) (first ++ colon :: colon :: [49])
      (.ip6 [value, 0, 0, 0, 0, 0, 0, 1]) :=
  .ip6 (isIpv6_first hgroup) (.inr hrest)

def tcp4001 : Bytes := "/tcp/4001".toUTF8.toList

def lowerCase : CString := ⟨startingWith [102, 100, 48, 48] tcp4001, by decide +kernel⟩

theorem leadsWith_lowerCase : LeadsWith lowerCase.val ([102, 100, 48, 48] ++ colon :: colon :: [49])
    (.ip6 [0xfd00, 0, 0, 0, 0, 0, 0, 1]) :=
  leadsWith_startingWith ⟨by decide +kernel, by decide, by decide⟩ (by decide +kernel)

theorem isPrivateAddress_iff_lowerCase :
    (isPrivateAddress (some lowerCase) = true ↔ (Address.ip6 [0xfd00, 0, 0, 0, 0, 0, 0, 1]).IsPrivate) := by
  refine (isPrivateAddress_iff leadsWith_lowerCase).mpr ?_
  have hnone : strstr lowerCase.val slashIp4 = none := by decide +kernel
  rw [LooksRight, hnone]
  refine ⟨fun _ => .inr (.inl ?_), fun _ => by decide +kernel⟩
  rw [← List.isPrefixOf_iff_prefix]
  decide +kernel

def upperCase : CString := ⟨startingWith [70, 68, 48, 48] tcp4001, by decide +kernel⟩

def relayed : CString :=
  ⟨startingWith [50, 48, 48, 49] "/p2p-circuit/ip4/10.0.0.1/tcp/4001".toUTF8.toList, by decide +kernel⟩

/-- **FD00::1 is private and 2001::1 is not**, but the one is not taken for private, and the other is where
it relays to a private IPv4 address. -/
theorem not_isPrivateAddress_upperCase :
    (LeadsWith upperCase.val ([70, 68, 48, 48] ++ colon :: colon :: [49])
        (.ip6 [0xfd00, 0, 0, 0, 0, 0, 0, 1]) ∧
      (Address.ip6 [0xfd00, 0, 0, 0, 0, 0, 0, 1]).IsPrivate ∧ isPrivateAddress (some upperCase) = false) ∧
      LeadsWith relayed.val ([50, 48, 48, 49] ++ colon :: colon :: [49])
        (.ip6 [0x2001, 0, 0, 0, 0, 0, 0, 1]) ∧
      ¬(Address.ip6 [0x2001, 0, 0, 0, 0, 0, 0, 1]).IsPrivate ∧ isPrivateAddress (some relayed) = true := by
  refine ⟨⟨?_, ?_, by decide +kernel⟩, ?_, ?_, by decide +kernel⟩
  · exact leadsWith_startingWith ⟨by decide +kernel, by decide, by decide⟩ (by decide +kernel)
  · rw [isPrivate_ip6_iff rfl (by decide) rfl]
    decide
  · exact leadsWith_startingWith ⟨by decide +kernel, by decide, by decide⟩ (by decide +kernel)
  · rw [isPrivate_ip6_iff rfl (by decide) rfl]
    decide

end CLibp2p.Discovery
