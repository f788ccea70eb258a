import CLibp2p.Net.Multiaddr

/-!
# Addresses that name more than one host

The parser keeps the last IP and the last port that it comes to in the first 255 bytes of the string, and
takes for a port whatever `atoi` and the cast to 16 bits make of it.
-/

namespace CLibp2p.Net

open Duplex

/-! ### What a string names -/

inductive Component where
  | ip (family : Family) (text : Bytes)
  | tcp (text : Bytes)
deriving DecidableEq

/-- What stands between the slashes. -/
def words (text : Bytes) : List Bytes := (text.splitOn slash).filter fun word => !word.isEmpty

/-- The names of an IP or a port, each with the word behind it. -/
def components : List Bytes → List Component
  | word :: value :: rest =>
      if word = nameIp4 then .ip .inet value :: components rest
      else if word = nameIp6 then .ip .inet6 value :: components rest
      else if word = nameTcp then .tcp value :: components rest
      else components (value :: rest)
  | _ => []

def ips (list : List Component) : List (Family × Bytes) :=
  list.filterMap fun
    | .ip family text => some (family, text)
    | .tcp _ => none

def tcps (list : List Component) : List Bytes :=
  list.filterMap fun
    | .ip _ _ => none
    | .tcp text => some text

/-- A decimal number from 1 to 65535. -/
def IsPort (text : Bytes) (port : UInt16) : Prop :=
  text ≠ [] ∧ (∀ digit ∈ text, isDigit digit = true) ∧ decimal text = port.toNat ∧ port ≠ 0

/-- Where a string leads: its first IP and its first port. -/
structure Names (str : Bytes) (family : Family) (ip : Bytes) (port : UInt16) : Prop where
  ip : (ips (components (words str))).head? = some (family, ip)
  port : ∃ text, (tcps (components (words str))).head? = some text ∧ IsPort text port

def nameOf : Family → Bytes
  | .inet => nameIp4
  | .inet6 => nameIp6

/-- An IP and a port, and further components behind them. -/
inductive Leads : (str : Bytes) → (family : Family) → (ip : Bytes) → (port : UInt16) → Prop where
  | mk {family : Family} {ip text rest : Bytes} {port : UInt16} (hip : ip ≠ []) (hslash : slash ∉ ip)
      (hport : IsPort text port) (hrest : rest = [] ∨ rest.head? = some slash) :
      Leads (slash :: (nameOf family ++ slash :: (ip ++ slash :: (nameTcp ++ slash :: (text ++ rest)))))
        family ip port

/-- The parser accepts a string as this. -/
def Accepts (str : CString) (family : Family) (ip : Bytes) (port : UInt16) : Prop :=
  ∃ ma, multiaddrNewFromString str = some ma ∧ ma.val = ⟨str, some ip, port, family⟩

/-- What is accepted is what the string names first, and what a string leads with is accepted. -/
def ParsesFirst (str : CString) : Prop :=
  (∀ ma, multiaddrNewFromString str = some ma →
      ∃ family ip port, ma.val = ⟨str, some ip, port, family⟩ ∧ Names str family ip port) ∧
    ∀ family ip port, Leads str family ip port → Accepts str family ip port

/-! ### When the last are the first -/

/-- The first 255 bytes have no IP, or no port but 0 as their last. -/
def NothingInCut (str : CString) : Prop :=
  ips (components (tokens str)) = [] ∨
    ∀ text, (tcps (components (tokens str))).getLast? = some text → UInt16.ofInt (atoi text) = 0

/-- There is nothing to be parsed. -/
structure NamesNothing (str : CString) : Prop where
  cut : NothingInCut str
  leads : ∀ family ip port, ¬Leads str family ip port

/-- The last IP in the first 255 bytes is the first of the string, and the last port there, as a number, is
its first. -/
def LastIsFirst (str : CString) : Prop :=
  ∃ family ip port text, Names str family ip port ∧
    (ips (components (tokens str))).getLast? = some (family, ip) ∧
    (tcps (components (tokens str))).getLast? = some text ∧ UInt16.ofInt (atoi text) = port

/-! ### The loop over the tokens -/

def MultiAddress.set (ma : MultiAddress) : Component → MultiAddress
  | .ip family text => { ma with ip := some text, family }
  | .tcp text => { ma with port := UInt16.ofInt (atoi text) }

theorem parseTokens_eq_foldl (list : List Bytes) (ma : MultiAddress) :
    parseTokens list ma = (components list).foldl MultiAddress.set ma := by
  fun_induction parseTokens list ma with
  | case1 value rest ma ih =>
      rw [ih, components, if_pos rfl, List.foldl_cons, MultiAddress.set]
  | case2 value rest ma h4 ih =>
      rw [ih, components, if_neg h4, if_pos rfl, List.foldl_cons, MultiAddress.set]
  | case3 value rest ma h4 h6 ih =>
      rw [ih, components, if_neg h4, if_neg h6, if_pos rfl, List.foldl_cons, MultiAddress.set]
  | case4 token value rest ma h4 h6 htcp ih =>
      rw [ih, components, if_neg h4, if_neg h6, if_neg htcp]
  | case5 list ma hshort =>
      rcases list with _ | ⟨token, _ | ⟨value, rest⟩⟩
      · rfl
      · rfl
      · exact absurd rfl (hshort token value rest)

theorem ips_append (first second : List Component) : ips (first ++ second) = ips first ++ ips second :=
  List.filterMap_append

theorem tcps_append (first second : List Component) :
    tcps (first ++ second) = tcps first ++ tcps second := List.filterMap_append

theorem foldl_set (list : List Component) (ma : MultiAddress) :
    list.foldl MultiAddress.set ma =
      { ma with
        ip := ((ips list).getLast?.map fun named => some named.2).getD ma.ip
        family := ((ips list).getLast?.map Prod.fst).getD ma.family
        port := ((tcps list).getLast?.map fun text => UInt16.ofInt (atoi text)).getD ma.port } := by
  induction list using List.reverseRecOn with
  | nil => rfl
  | append_singleton list component ih =>
      rw [List.foldl_append, ih, ips_append, tcps_append]
      cases component with
      | ip family text => simp [MultiAddress.set, ips, tcps]
      | tcp text => simp [MultiAddress.set, ips, tcps]

/-- What is accepted: the last IP and the last port, unless that is 0. -/
theorem accepts_iff (str : CString) (family : Family) (ip : Bytes) (port : UInt16) :
    Accepts str family ip port ↔
      str.val.head? = some slash ∧ (ips (components (tokens str))).getLast? = some (family, ip) ∧
        port ≠ 0 ∧
        ∃ text, (tcps (components (tokens str))).getLast? = some text ∧
          UInt16.ofInt (atoi text) = port := by
  rw [Accepts, multiaddrNewFromString]
  by_cases hslash : str.val.head? = some slash
  · rw [if_pos hslash, parseTokens_eq_foldl, foldl_set]
    dsimp only
    generalize (ips (components (tokens str))).getLast? = lastIp
    generalize (tcps (components (tokens str))).getLast? = lastPort
    constructor
    · rintro ⟨ma, hparse, hma⟩
      split at hparse
      · rename_i hcomplete
        cases hparse
        rw [MultiAddress.mk.injEq] at hma
        obtain ⟨-, hip, hport, hfamily⟩ := hma
        have hpos := hcomplete.2
        cases lastIp with
        | none => cases hip
        | some named =>
            cases lastPort with
            | none => exact absurd rfl hpos
            | some text =>
                rw [Option.map_some, Option.getD_some] at hip hport hfamily
                refine ⟨hslash, ?_, ?_, text, rfl, hport⟩
                · rw [← hfamily, ← Option.some.inj hip]
                · rw [← hport]
                  exact hpos
      · cases hparse
    · rintro ⟨-, rfl, hport, text, rfl, rfl⟩
      exact ⟨⟨⟨str, some ip, _, family⟩, Option.some_ne_none ip, hport⟩,
        dif_pos ⟨Option.some_ne_none ip, hport⟩, rfl⟩
  · rw [if_neg hslash]
    refine iff_of_false ?_ fun h => hslash h.1
    rintro ⟨ma, hparse, -⟩
    cases hparse

theorem accepts_of_eq_some {str : CString} {ma : ParsedAddress}
    (hparse : multiaddrNewFromString str = some ma) :
    ∃ family ip port, ma.val = ⟨str, some ip, port, family⟩ ∧ Accepts str family ip port := by
  have hraw := multiaddrNewFromString_rawString hparse
  obtain ⟨⟨rawString, ip, port, family⟩, hip, hport⟩ := ma
  cases ip with
  | none => exact absurd rfl hip
  | some ip =>
      obtain rfl : rawString = str := hraw
      exact ⟨family, ip, port, rfl, _, hparse, rfl⟩

/-! ### Strings that lead with an IP and a port -/

theorem words_append_slash (front rest : Bytes) :
    words (front ++ slash :: rest) = words front ++ words rest := by
  rw [words, List.splitOn_append_cons_self, List.filter_append, words, words]

theorem words_of_slash_not_mem {word : Bytes} (hne : word ≠ []) (hslash : slash ∉ word) :
    words word = [word] := by
  rw [words, List.splitOn_eq_singleton hslash, List.filter_singleton, List.isEmpty_eq_false_iff.mpr hne]
  rfl

theorem words_cons {word : Bytes} (hne : word ≠ []) (hslash : slash ∉ word) (rest : Bytes) :
    words (word ++ slash :: rest) = word :: words rest := by
  rw [words_append_slash, words_of_slash_not_mem hne hslash, List.singleton_append]

theorem IsPort.slash_not_mem {text : Bytes} {port : UInt16} (hport : IsPort text port) : slash ∉ text := by
  intro hmem
  exact absurd (hport.2.1 slash hmem) (by decide)

theorem Leads.names {str ip : Bytes} {family : Family} {port : UInt16} (hleads : Leads str family ip port) :
    Names str family ip port := by
  cases hleads with
  | @mk _ _ text rest _ hip hslash hport hrest =>
      have hname : nameOf family ≠ [] ∧ slash ∉ nameOf family := by
        cases family <;> decide +kernel
      have htcp : nameTcp ≠ [] ∧ slash ∉ nameTcp := by decide +kernel
      have hwords : ∃ more, words (text ++ rest) = text :: more := by
        rcases hrest with rfl | hhead
        · exact ⟨[], by rw [List.append_nil, words_of_slash_not_mem hport.1 hport.slash_not_mem]⟩
        · obtain ⟨rest, rfl⟩ := List.head?_eq_some_iff.mp hhead
          exact ⟨words rest, words_cons hport.1 hport.slash_not_mem rest⟩
      obtain ⟨more, hmore⟩ := hwords
      have hall : words
          (slash :: (nameOf family ++ slash :: (ip ++ slash :: (nameTcp ++ slash :: (text ++ rest))))) =
          nameOf family :: ip :: nameTcp :: text :: more := by
        rw [← hmore, ← words_cons htcp.1 htcp.2, ← words_cons hip hslash, ← words_cons hname.1 hname.2]
        exact words_append_slash [] _
      have hcomponents : components (nameOf family :: ip :: nameTcp :: text :: more) =
          .ip family ip :: .tcp text :: components more := by
        have hnames : nameIp6 ≠ nameIp4 ∧ nameTcp ≠ nameIp4 ∧ nameTcp ≠ nameIp6 := by decide +kernel
        have hport : components (nameTcp :: text :: more) = .tcp text :: components more := by
          rw [components, if_neg hnames.2.1, if_neg hnames.2.2, if_pos rfl]
        cases family with
        | inet => rw [nameOf, components, if_pos rfl, hport]
        | inet6 => rw [nameOf, components, if_neg hnames.1, if_pos rfl, hport]
      refine ⟨?_, text, ?_, hport⟩
      · rw [hall, hcomponents]
        rfl
      · rw [hall, hcomponents]
        rfl

theorem Leads.head?_eq {str ip : Bytes} {family : Family} {port : UInt16}
    (hleads : Leads str family ip port) : str.head? = some slash := by
  cases hleads with
  | mk hip hslash hport hrest => rfl

theorem Leads.port_ne_zero {str ip : Bytes} {family : Family} {port : UInt16}
    (hleads : Leads str family ip port) : port ≠ 0 := by
  cases hleads with
  | mk hip hslash hport hrest => exact hport.2.2.2

theorem Names.unique {str ip ip' : Bytes} {family family' : Family} {port port' : UInt16}
    (hnames : Names str family ip port) (hnames' : Names str family' ip' port') :
    family = family' ∧ ip = ip' ∧ port = port' := by
  have hip := hnames.ip.symm.trans hnames'.ip
  obtain ⟨text, htext, hport⟩ := hnames.port
  obtain ⟨text', htext', hport'⟩ := hnames'.port
  obtain rfl := Option.some.inj (htext.symm.trans htext')
  rw [Option.some.injEq, Prod.mk.injEq] at hip
  refine ⟨hip.1, hip.2, UInt16.toNat_inj.mp ?_⟩
  rw [← hport.2.2.1, ← hport'.2.2.1]

/-! ### The parser -/

theorem NothingInCut.not_accepts {str : CString} (hcut : NothingInCut str) {family : Family} {ip : Bytes}
    {port : UInt16} : ¬Accepts str family ip port := by
  rw [accepts_iff]
  rintro ⟨-, hip, hport, text, htext, rfl⟩
  rcases hcut with hnone | hzero
  · rw [hnone] at hip
    cases hip
  · exact hport (hzero text htext)

theorem LastIsFirst.parsesFirst {str : CString} (hlast : LastIsFirst str) : ParsesFirst str := by
  obtain ⟨family, ip, port, text, hnames, hip, htext, hport⟩ := hlast
  constructor
  · intro ma hparse
    obtain ⟨family', ip', port', hma, haccepts⟩ := accepts_of_eq_some hparse
    obtain ⟨-, hip', -, text', htext', hport'⟩ := (accepts_iff str family' ip' port').mp haccepts
    obtain ⟨rfl, rfl⟩ := Prod.mk.inj (Option.some.inj (hip.symm.trans hip'))
    obtain rfl := Option.some.inj (htext.symm.trans htext')
    obtain rfl := hport.symm.trans hport'
    exact ⟨family, ip, port, hma, hnames⟩
  · intro family' ip' port' hleads
    obtain ⟨rfl, rfl, rfl⟩ := hnames.unique hleads.names
    exact (accepts_iff str family ip port).mpr
      ⟨hleads.head?_eq, hip, hleads.port_ne_zero, text, htext, hport⟩

/-- **Addresses are parsed as they are written** exactly if their last components in the first 255 bytes are
their first, or nothing is there to be parsed. -/
theorem parsesFirst_iff (str : CString) :
    ParsesFirst str ↔ str.val.head? ≠ some slash ∨ NamesNothing str ∨ LastIsFirst str := by
  constructor
  · rintro ⟨hfirst, hleads⟩
    by_cases hslash : str.val.head? = some slash
    · right
      by_cases hcut : NothingInCut str
      · left
        exact ⟨hcut, fun family ip port hleading => hcut.not_accepts (hleads family ip port hleading)⟩
      · right
        rw [NothingInCut, not_or] at hcut
        obtain ⟨hips, hports⟩ := hcut
        push Not at hports
        obtain ⟨text, htext, hport⟩ := hports
        obtain ⟨⟨family, ip⟩, hip⟩ :=
          Option.ne_none_iff_exists'.mp (mt List.getLast?_eq_none_iff.mp hips)
        have haccepts := (accepts_iff str family ip _).mpr ⟨hslash, hip, hport, text, htext, rfl⟩
        obtain ⟨ma, hparse, hma⟩ := haccepts
        obtain ⟨family', ip', port', hma', hnames⟩ := hfirst ma hparse
        rw [hma, MultiAddress.mk.injEq, Option.some.injEq] at hma'
        obtain ⟨-, rfl, rfl, rfl⟩ := hma'
        exact ⟨family, ip, _, text, hnames, hip, htext, rfl⟩
    · exact .inl hslash
  · rintro (hslash | hnothing | hlast)
    · constructor
      · intro ma hparse
        obtain ⟨family, ip, port, -, haccepts⟩ := accepts_of_eq_some hparse
        exact absurd ((accepts_iff str family ip port).mp haccepts).1 hslash
      · intro family ip port hleads
        exact absurd hleads.head?_eq hslash
    · constructor
      · intro ma hparse
        obtain ⟨family, ip, port, -, haccepts⟩ := accepts_of_eq_some hparse
        exact absurd haccepts hnothing.cut.not_accepts
      · intro family ip port hleads
        exact absurd hleads (hnothing.leads family ip port)
    · exact hlast.parsesFirst

def relayed : CString :=
  ⟨"/ip4/1.2.3.4/tcp/4001/p2p-circuit/ip4/5.6.7.8/tcp/1".toUTF8.toList, by decide +kernel⟩

/-- **An address through a relay is parsed as the address behind the relay.** -/
theorem not_parsesFirst_relayed : ¬ParsesFirst relayed := by
  intro hparses
  have haccepts : Accepts relayed .inet "5.6.7.8".toUTF8.toList 1 := by
    rw [accepts_iff]
    refine ⟨by decide +kernel, by decide +kernel, by decide, "1".toUTF8.toList, by decide +kernel,
      by decide +kernel⟩
  obtain ⟨ma, hparse, hma⟩ := haccepts
  obtain ⟨family, ip, port, hma', hnames⟩ := hparses.1 ma hparse
  rw [hma, MultiAddress.mk.injEq, Option.some.injEq] at hma'
  have hip := hnames.ip
  rw [← hma'.2.1] at hip
  have hfirst : (ips (components (words relayed))).head? = some (.inet, "1.2.3.4".toUTF8.toList) := by
    decide +kernel
  rw [hfirst, Option.some.injEq, Prod.mk.injEq] at hip
  exact absurd hip.2 (by decide +kernel)

end CLibp2p.Net
