import CLibp2p.Stream.Bytes
import Mathlib.Data.Nat.Digits.Defs

/-!
# IP addresses and their text

An address is a list of numbers, most significant first: four of 8 bits or eight of 16. Its text may be
any that stands for these numbers, and a block of addresses is what they have their first bits in common
with.
-/

namespace Ip

open Duplex

/-! ### Numbers by their digits -/

/-- The number with these digits, the most significant first. -/
def positional (base : Nat) (digits : List Nat) : Nat := Nat.ofDigits base digits.reverse

theorem positional_cons (base digit : Nat) (digits : List Nat) :
    positional base (digit :: digits) = positional base digits + base ^ digits.length * digit := by
  rw [positional, List.reverse_cons, Nat.ofDigits_append, Nat.ofDigits_singleton, List.length_reverse,
    positional]

theorem positional_concat (base digit : Nat) (digits : List Nat) :
    positional base (digits ++ [digit]) = digit + base * positional base digits := by
  rw [positional, List.reverse_append, List.reverse_singleton, List.singleton_append, Nat.ofDigits_cons,
    positional]

theorem positional_lt {base : Nat} {digits : List Nat} (hbase : 1 < base)
    (hdigits : ∀ digit ∈ digits, digit < base) : positional base digits < base ^ digits.length := by
  rw [positional, ← List.length_reverse]
  apply Nat.ofDigits_lt_base_pow_length hbase
  intro digit hdigit
  exact hdigits digit (List.mem_reverse.mp hdigit)

/-! ### Blocks -/

/-- An address of `width` bits in a block that gives the first `length` of them. -/
def InBlock (width length block address : Nat) : Prop :=
  address / 2 ^ (width - length) = block / 2 ^ (width - length)

/-- The first number decides where the block gives no more bits than it has. -/
theorem inBlock_iff_first {bits length first first' : Nat} {rest rest' : List Nat} (hbits : 0 < bits)
    (hlength : length ≤ bits) (hsame : rest'.length = rest.length)
    (hrest : ∀ number ∈ rest, number < 2 ^ bits) (hrest' : ∀ number ∈ rest', number < 2 ^ bits) :
    InBlock (bits * (rest.length + 1)) length (positional (2 ^ bits) (first' :: rest'))
        (positional (2 ^ bits) (first :: rest)) ↔
      first / 2 ^ (bits - length) = first' / 2 ^ (bits - length) := by
  have hbase : 1 < 2 ^ bits := Nat.one_lt_two_pow (Nat.ne_of_gt hbits)
  have hwidth : bits * (rest.length + 1) - length = bits * rest.length + (bits - length) := by
    rw [Nat.mul_add, Nat.mul_one, Nat.add_sub_assoc hlength]
  have hpos : 0 < (2 ^ bits) ^ rest.length := Nat.pow_pos (Nat.two_pow_pos bits)
  have hdiv : ∀ {low number : Nat}, low < (2 ^ bits) ^ rest.length →
      (low + (2 ^ bits) ^ rest.length * number) / (2 ^ bits) ^ rest.length = number := by
    intro low number hlow
    rw [Nat.add_mul_div_left _ _ hpos, Nat.div_eq_of_lt hlow, Nat.zero_add]
  rw [InBlock, hwidth, Nat.pow_add, Nat.pow_mul, ← Nat.div_div_eq_div_mul, ← Nat.div_div_eq_div_mul,
    positional_cons, positional_cons, hdiv (positional_lt hbase hrest), hsame, hdiv]
  rw [← hsame]
  exact positional_lt hbase hrest'

/-! ### Text -/

def dot : UInt8 := '.'.toUInt8

def colon : UInt8 := ':'.toUInt8

def IsDecimalDigit (c : UInt8) : Prop := 48 ≤ c ∧ c ≤ 57

/-- In either case. -/
def IsHexDigit (c : UInt8) : Prop := IsDecimalDigit c ∨ 65 ≤ c ∧ c ≤ 70 ∨ 97 ≤ c ∧ c ≤ 102

instance (c : UInt8) : Decidable (IsDecimalDigit c) := inferInstanceAs (Decidable (_ ∧ _))

instance (c : UInt8) : Decidable (IsHexDigit c) := inferInstanceAs (Decidable (_ ∨ _))

def digitValue (c : UInt8) : Nat :=
  if c ≤ 57 then c.toNat - 48 else if c ≤ 70 then c.toNat - 55 else c.toNat - 87

/-- One of the four numbers of an IPv4 address. -/
structure IsPart (text : Bytes) (value : Nat) : Prop where
  digits : ∀ c ∈ text, IsDecimalDigit c
  length : 0 < text.length ∧ text.length ≤ 3
  value_eq : value = positional 10 (text.map digitValue)
  value_lt : value < 2 ^ 8

inductive IsIpv4 : (text : Bytes) → (parts : List Nat) → Prop where
  | mk {a b c d : Bytes} {x y z w : Nat} (ha : IsPart a x) (hb : IsPart b y) (hc : IsPart c z)
      (hd : IsPart d w) : IsIpv4 (a ++ dot :: (b ++ dot :: (c ++ dot :: d))) [x, y, z, w]

/-- One of the eight numbers of an IPv6 address. -/
structure IsGroup (text : Bytes) (value : Nat) : Prop where
  digits : ∀ c ∈ text, IsHexDigit c
  length : 0 < text.length ∧ text.length ≤ 4
  value_eq : value = positional 16 (text.map digitValue)

/-- Some of the numbers, with an IPv4 address for the last two where that is allowed. -/
inductive IsGroups (dotted : Bool) : (text : Bytes) → (groups : List Nat) → Prop where
  | single {text : Bytes} {value : Nat} (hgroup : IsGroup text value) : IsGroups dotted text [value]
  | dots {text : Bytes} {x y z w : Nat} (hdotted : dotted = true) (htext : IsIpv4 text [x, y, z, w]) :
      IsGroups dotted text [2 ^ 8 * x + y, 2 ^ 8 * z + w]
  | cons {text rest : Bytes} {value : Nat} {groups : List Nat} (hgroup : IsGroup text value)
      (hrest : IsGroups dotted rest groups) : IsGroups dotted (text ++ colon :: rest) (value :: groups)

/-- Some of the numbers, or none. -/
def IsGroupsOrNone (dotted : Bool) (text : Bytes) (groups : List Nat) : Prop :=
  text = [] ∧ groups = [] ∨ IsGroups dotted text groups

/-- An IPv6 address in full, or with two colons for zeros, at least one. -/
inductive IsIpv6 : (text : Bytes) → (groups : List Nat) → Prop where
  | full {text : Bytes} {groups : List Nat} (hgroups : IsGroups true text groups)
      (hlength : groups.length = 8) : IsIpv6 text groups
  | compressed {front back : Bytes} {fore aft : List Nat} {zeros : Nat}
      (hfront : IsGroupsOrNone false front fore) (hback : IsGroupsOrNone true back aft) (hzeros : 0 < zeros)
      (hlength : fore.length + zeros + aft.length = 8) :
      IsIpv6 (front ++ colon :: colon :: back) (fore ++ List.replicate zeros 0 ++ aft)

theorem digitValue_lt {c : UInt8} (hc : IsHexDigit c) : digitValue c < 16 := by
  simp only [IsHexDigit, IsDecimalDigit, UInt8.le_iff_toNat_le, UInt8.reduceToNat] at hc
  simp only [digitValue, UInt8.le_iff_toNat_le, UInt8.reduceToNat]
  split
  · omega
  · split <;> omega

theorem IsGroup.value_lt {text : Bytes} {value : Nat} (hgroup : IsGroup text value) : value < 2 ^ 16 := by
  rw [hgroup.value_eq]
  have hsame : (text.map digitValue).length = text.length := List.length_map digitValue
  have hlt : positional 16 (text.map digitValue) < 16 ^ text.length := by
    rw [← hsame]
    apply positional_lt (by decide)
    intro digit hdigit
    obtain ⟨c, hc, rfl⟩ := List.mem_map.mp hdigit
    exact digitValue_lt (hgroup.digits c hc)
  calc positional 16 (text.map digitValue) < 16 ^ text.length := hlt
    _ ≤ 16 ^ 4 := Nat.pow_le_pow_right (by decide) hgroup.length.2
    _ = 2 ^ 16 := by decide

theorem IsIpv4.parts_lt {text : Bytes} {parts : List Nat} (htext : IsIpv4 text parts) :
    ∀ part ∈ parts, part < 2 ^ 8 := by
  cases htext with
  | mk ha hb hc hd =>
      intro part hpart
      simp only [List.mem_cons, List.not_mem_nil, or_false] at hpart
      rcases hpart with rfl | rfl | rfl | rfl
      · exact ha.value_lt
      · exact hb.value_lt
      · exact hc.value_lt
      · exact hd.value_lt

theorem IsGroups.groups_lt {dotted : Bool} {text : Bytes} {groups : List Nat}
    (htext : IsGroups dotted text groups) : ∀ group ∈ groups, group < 2 ^ 16 := by
  induction htext with
  | single hgroup =>
      intro group hmem
      rw [List.mem_singleton] at hmem
      exact hmem ▸ hgroup.value_lt
  | @dots text x y z w _ htext =>
      have hlt := htext.parts_lt
      rw [List.forall_mem_cons, List.forall_mem_cons, List.forall_mem_cons, List.forall_mem_singleton] at hlt
      rw [List.forall_mem_cons, List.forall_mem_singleton]
      omega
  | cons hgroup _ ih => exact List.forall_mem_cons.mpr ⟨hgroup.value_lt, ih⟩

theorem IsGroupsOrNone.groups_lt {dotted : Bool} {text : Bytes} {groups : List Nat}
    (htext : IsGroupsOrNone dotted text groups) : ∀ group ∈ groups, group < 2 ^ 16 := by
  rcases htext with ⟨-, rfl⟩ | htext
  · intro group hgroup
    cases hgroup
  · exact htext.groups_lt

theorem IsIpv6.groups_lt {text : Bytes} {groups : List Nat} (htext : IsIpv6 text groups) :
    ∀ group ∈ groups, group < 2 ^ 16 := by
  cases htext with
  | full hgroups _ => exact hgroups.groups_lt
  | compressed hfront hback _ _ =>
      intro group hgroup
      rw [List.mem_append, List.mem_append] at hgroup
      rcases hgroup with (hgroup | hgroup) | hgroup
      · exact hfront.groups_lt group hgroup
      · rw [List.eq_of_mem_replicate hgroup]
        decide
      · exact hback.groups_lt group hgroup

theorem IsIpv6.length_groups {text : Bytes} {groups : List Nat} (htext : IsIpv6 text groups) :
    groups.length = 8 := by
  cases htext with
  | full _ hlength => exact hlength
  | compressed _ _ _ hlength =>
      rw [List.length_append, List.length_append, List.length_replicate]
      exact hlength

/-- An IPv6 address starts with its first number, or with two colons where that is zero. -/
theorem IsIpv6.starts {text : Bytes} {groups : List Nat} (htext : IsIpv6 text groups) :
    (∃ first rest value,
        text = first ++ colon :: rest ∧ IsGroup first value ∧ groups.head? = some value) ∨
      text.head? = some colon ∧ groups.head? = some 0 := by
  cases htext with
  | full hgroups hlength =>
      cases hgroups with
      | single hgroup => cases hlength
      | dots _ htext => cases hlength
      | @cons first rest value _ hgroup hrest => exact .inl ⟨first, rest, value, rfl, hgroup, rfl⟩
  | @compressed front back fore aft zeros hfront hback hzeros hlength =>
      rcases hfront with ⟨rfl, rfl⟩ | hfront
      · obtain ⟨zeros, rfl⟩ := Nat.exists_eq_succ_of_ne_zero (Nat.ne_of_gt hzeros)
        exact .inr ⟨rfl, rfl⟩
      · cases hfront with
        | @single _ value hgroup => exact .inl ⟨front, colon :: back, value, rfl, hgroup, rfl⟩
        | dots hdotted htext => cases hdotted
        | @cons first rest value _ hgroup hrest =>
            exact .inl ⟨first, rest ++ colon :: colon :: back, value, by rw [List.append_assoc]; rfl, hgroup,
              rfl⟩

end Ip
