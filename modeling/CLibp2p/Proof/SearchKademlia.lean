import CLibp2p.Proof.Kademlia
import CLibp2p.Routing.SearchKademlia

/-!
# What a search returns

The result is made from the first entry of the list, whatever entry belongs to the peer, and only if that
one has addresses of both families. Ports of IPv6 addresses are printed as they came from the network.
-/

namespace CLibp2p.Routing

open Duplex

/-- `ntohs`: the two bytes of a port in the memory of a little-endian host, read in network order. -/
def ntohs (port : UInt16) : UInt16 := ofBe16 (UInt8.ofNat port.toNat) (UInt8.ofNat (port.toNat / 256))

/-- The addresses of an entry, with the ports that the network announced. -/
def SearchStruct.recorded (rp : SearchStruct) : List Endpoint :=
  rp.ipv4.map (fun ipv4 => .ip4 ipv4.ip ipv4.port) ++ rp.ipv6.map fun ipv6 => .ip6 ipv6.ip (ntohs ipv6.port)

/-- The library takes the text of the address. -/
def AddressLibrary.accepts (lib : AddressLibrary) (endpoint : Endpoint) : Bool :=
  (lib.addressOf endpoint).isSome

/-- A multiaddress that is made from the text of one of these addresses is the multiaddress of it. -/
def AddressLibrary.Denotes (lib : AddressLibrary) (endpoints : List Endpoint) : Prop :=
  ∀ endpoint ∈ endpoints, ∀ ma, lib.addressOf endpoint = some ma → lib.endpoint ma = endpoint

/-- A call that stops waiting gives the multiaddresses of the addresses recorded for the peer id, and NULL
only if there are none. -/
def ReturnsRecorded (lib : AddressLibrary) (call : SearchCall) : Prop :=
  ∀ searchResult, call.waited lib = .stopped searchResult →
    ∀ rp ∈ entryOf searchResult (call.id lib), ∃ result, searchKademlia lib call = .returned result ∧
      (result = none → rp.recorded = []) ∧
      ∀ list, result = some list → list.map lib.endpoint = rp.recorded

/-- The first entry serves for that of the peer id. If it lacks a family, or there is no memory, the latter
has no addresses. Otherwise, where it is that entry, the library takes all its addresses and the ports of the
IPv6 ones have two equal bytes; where it is another, what the library takes of its addresses, as they are
printed, are those of the entry of the peer id, as they were announced. -/
def HeadServes (lib : AddressLibrary) (call : SearchCall) : Prop :=
  ∀ searchResult, call.waited lib = .stopped searchResult →
    ∀ rp ∈ entryOf searchResult (call.id lib), ∀ head ∈ searchResult.head?,
      if head.ipv4 = [] ∨ head.ipv6 = [] ∨ call.granted = false then rp.ipv4 = [] ∧ rp.ipv6 = []
      else if head = rp then
        (∀ endpoint ∈ rp.printed, lib.accepts endpoint = true) ∧
          ∀ ipv6 ∈ rp.ipv6, ipv6.port.toNat / 256 = ipv6.port.toNat % 256
      else head.printed.filter lib.accepts = rp.recorded

/-- What was announced is what `ntohs` makes of a port that the callback stored. -/
theorem ntohs_port (call : CallbackCall) :
    ntohs call.ipv6.port = ofBe16 (call.data 16) (call.data 17) := by
  have hlow := (call.data 16).toNat_lt
  have hhigh := (call.data 17).toNat_lt
  have hport : call.ipv6.port.toNat = (call.data 17).toNat * 256 + (call.data 16).toNat := by
    rw [CallbackCall.ipv6, ofBe16, UInt16.toNat_ofNat']
    exact Nat.mod_eq_of_lt (by omega)
  rw [ntohs, hport]
  congr 1
  · apply UInt8.toNat_inj.mp
    rw [UInt8.toNat_ofNat']
    omega
  · apply UInt8.toNat_inj.mp
    rw [UInt8.toNat_ofNat']
    omega

theorem recorded_eq_nil_iff (rp : SearchStruct) : rp.recorded = [] ↔ rp.ipv4 = [] ∧ rp.ipv6 = [] := by
  rw [SearchStruct.recorded, List.append_eq_nil_iff, List.map_eq_nil_iff, List.map_eq_nil_iff]

theorem ntohs_eq_self_iff (port : UInt16) : ntohs port = port ↔ port.toNat / 256 = port.toNat % 256 := by
  have hlt := port.toNat_lt
  have hlow : port.toNat % 256 < 256 := Nat.mod_lt _ (by decide)
  have hhigh : port.toNat / 256 < 256 := by omega
  have hswapped : (ntohs port).toNat = port.toNat % 256 * 256 + port.toNat / 256 := by
    rw [ntohs, ofBe16, UInt16.toNat_ofNat', UInt8.toNat_ofNat', UInt8.toNat_ofNat',
      Nat.mod_eq_of_lt hhigh]
    exact Nat.mod_eq_of_lt (by omega)
  rw [← UInt16.toNat_inj, hswapped]
  omega

/-- The addresses of one entry as printed are those announced if none is refused and no port changes. -/
theorem filter_printed_eq_recorded_iff (lib : AddressLibrary) (rp : SearchStruct) :
    rp.printed.filter lib.accepts = rp.recorded ↔
      (∀ endpoint ∈ rp.printed, lib.accepts endpoint = true) ∧
        ∀ ipv6 ∈ rp.ipv6, ipv6.port.toNat / 256 = ipv6.port.toNat % 256 := by
  have hports : rp.printed = rp.recorded ↔ ∀ ipv6 ∈ rp.ipv6, ipv6.port.toNat / 256 = ipv6.port.toNat % 256 := by
    rw [SearchStruct.printed, SearchStruct.recorded, List.append_cancel_left_eq, List.map_inj_left]
    refine forall₂_congr fun ipv6 _ => ?_
    rw [Endpoint.ip6.injEq, ← ntohs_eq_self_iff, eq_comm (a := ipv6.port)]
    exact and_iff_right rfl
  rw [← hports]
  constructor
  · intro hsame
    have hlength : rp.recorded.length = rp.printed.length := by
      simp only [SearchStruct.printed, SearchStruct.recorded, List.length_append, List.length_map]
    have hall : ∀ endpoint ∈ rp.printed, lib.accepts endpoint = true :=
      List.length_filter_eq_length_iff.mp ((congrArg List.length hsame).trans hlength)
    exact ⟨hall, (List.filter_eq_self.mpr hall).symm.trans hsame⟩
  · rintro ⟨hall, hsame⟩
    exact (List.filter_eq_self.mpr hall).trans hsame

theorem map_filterMap_addressOf {lib : AddressLibrary} {endpoints : List Endpoint}
    (hdenotes : lib.Denotes endpoints) :
    (endpoints.filterMap lib.addressOf).map lib.endpoint = endpoints.filter lib.accepts := by
  induction endpoints with
  | nil => rfl
  | cons endpoint endpoints ih =>
      obtain ⟨hfirst, hrest⟩ := List.forall_mem_cons.mp hdenotes
      cases haddress : lib.addressOf endpoint with
      | none =>
          have hrefused : lib.accepts endpoint = false := by rw [AddressLibrary.accepts, haddress]; rfl
          rw [List.filterMap_cons_none haddress, ih hrest, List.filter_cons_of_neg (by simp [hrefused])]
      | some ma =>
          have htaken : lib.accepts endpoint = true := by rw [AddressLibrary.accepts, haddress]; rfl
          rw [List.filterMap_cons_some haddress, List.map_cons, ih hrest, hfirst ma haddress,
            List.filter_cons_of_pos htaken]

/-- The result for a list that is not empty. -/
theorem result_cons (lib : AddressLibrary) (granted : Bool) (head : SearchStruct)
    (tail : List SearchStruct) :
    lib.result granted (head :: tail) =
      if head.ipv4 = [] ∨ head.ipv6 = [] ∨ granted = false then none
      else some (head.printed.filterMap lib.addressOf) := by
  rw [AddressLibrary.result]
  by_cases hipv4 : head.ipv4 = []
  · simp [hipv4]
  · by_cases hipv6 : head.ipv6 = []
    · simp [hipv6]
    · cases granted <;> simp [hipv4, hipv6]

/-- **Searches.** A call returns what is recorded for its peer id if and only if the first entry serves for
that of the peer id. -/
theorem returnsRecorded_iff_headServes {lib : AddressLibrary} {call : SearchCall}
    (hdenotes : ∀ searchResult, call.waited lib = .stopped searchResult →
      ∀ head ∈ searchResult.head?, lib.Denotes head.printed) :
    ReturnsRecorded lib call ↔ HeadServes lib call := by
  refine forall₂_congr fun searchResult hwaited => forall₂_congr fun rp hentry => ?_
  have hreturned : searchKademlia lib call = .returned (lib.result call.granted searchResult) := by
    rw [searchKademlia, hwaited]
  obtain ⟨-, front, back, hsplit, -⟩ := entryOf_eq_some_iff.mp hentry
  obtain ⟨head, tail, rfl⟩ := List.exists_cons_of_ne_nil (l := searchResult) (by
    rw [hsplit]
    exact List.append_ne_nil_of_right_ne_nil _ (List.cons_ne_nil _ _))
  have hhead := map_filterMap_addressOf (hdenotes _ hwaited head rfl)
  rw [hreturned, result_cons, List.head?_cons]
  constructor
  · rintro ⟨result, hresult, hnone, hsome⟩ first hfirst
    obtain rfl := Option.some.inj hfirst
    obtain rfl := Searched.returned.inj hresult
    split
    · rename_i hlacks
      exact (recorded_eq_nil_iff rp).mp (hnone (if_pos hlacks))
    · rename_i hboth
      have hsame : head.printed.filter lib.accepts = rp.recorded := hhead ▸ hsome _ (if_neg hboth)
      split
      · rename_i heq
        subst heq
        exact (filter_printed_eq_recorded_iff lib head).mp hsame
      · exact hsame
  · intro hserves
    have hfirst := hserves head rfl
    rw [← filter_printed_eq_recorded_iff] at hfirst
    refine ⟨_, rfl, ?_⟩
    split at hfirst
    · rename_i hlacks
      rw [if_pos hlacks]
      exact ⟨fun _ => (recorded_eq_nil_iff rp).mpr hfirst, fun list hlist => nomatch hlist⟩
    · rename_i hboth
      rw [if_neg hboth]
      refine ⟨fun hnone => (nomatch hnone), fun list hlist => ?_⟩
      obtain rfl := Option.some.inj hlist
      rw [hhead]
      split at hfirst
      · rename_i heq
        rw [← heq] at hfirst ⊢
        exact hfirst
      · exact hfirst

/-- The answers for the peer id `a` and for the texts of two addresses. -/
def AddressLibrary.onePeer : AddressLibrary where
  MultiAddress := Endpoint
  sha256 _ := #v[202, 151, 129, 18, 202, 27, 189, 202, 250, 194, 49, 179, 154, 35, 220, 77, 167, 134, 239,
    248, 20, 124, 78, 114, 185, 128, 119, 133, 175, 238, 72, 187]
  ntop4 ip := if ip = #v[1, 2, 3, 4] then some "1.2.3.4".toUTF8.toList else none
  ntop6 ip := if ip = #v[0, 1, 0, 2, 0, 3, 0, 4, 0, 5, 0, 6, 0, 7, 0, 8] then
      some "1:2:3:4:5:6:7:8".toUTF8.toList else none
  newFromString str :=
    if str = "/ip4/1.2.3.4/tcp/4001".toUTF8.toList then some (.ip4 #v[1, 2, 3, 4] 4001)
    else if str = "/ip6/1:2:3:4:5:6:7:8/tcp/3855".toUTF8.toList then
      some (.ip6 #v[0, 1, 0, 2, 0, 3, 0, 4, 0, 5, 0, 6, 0, 7, 0, 8] 3855)
    else none
  endpoint := id

instance : DecidableEq AddressLibrary.onePeer.MultiAddress := inferInstanceAs (DecidableEq Endpoint)

/-- An entry for the peer `a`. -/
def entryOfA (ipv6 : List Ipv6Struct) : SearchStruct :=
  ⟨#v[202, 151, 129, 18, 202, 27, 189, 202, 250, 194, 49, 179, 154, 35, 220, 77, 167, 134, 239, 248],
    [⟨#v[1, 2, 3, 4], 4001, 0⟩], ipv6⟩

/-- A search for the peer `a` that finds this entry at once. -/
def searchForA (rp : SearchStruct) : SearchCall :=
  ⟨true, [97], Vector.replicate 20 0, 5000000, [⟨0, [rp]⟩], [], true⟩

def ipv6OfA : Ipv6Struct := ⟨#v[0, 1, 0, 2, 0, 3, 0, 4, 0, 5, 0, 6, 0, 7, 0, 8], 3855⟩

/-- An entry with an address of each family, the IPv6 one at a port with two equal bytes. -/
theorem returnsRecorded_iff_headServes_both :
    ReturnsRecorded .onePeer (searchForA (entryOfA [ipv6OfA])) := by
  have hwaited : (searchForA (entryOfA [ipv6OfA])).waited .onePeer = .stopped [entryOfA [ipv6OfA]] := by
    decide
  refine (returnsRecorded_iff_headServes ?_).mpr ?_
  · intro searchResult hstopped head hhead
    obtain rfl := Waited.stopped.inj (hwaited.symm.trans hstopped)
    obtain rfl := Option.some.inj hhead
    intro endpoint hmem ma haddress
    rcases List.mem_pair.mp hmem with rfl | rfl
    · have htext : AddressLibrary.onePeer.addressOf (.ip4 #v[1, 2, 3, 4] 4001) =
          some (.ip4 #v[1, 2, 3, 4] 4001) := by
        decide +kernel
      exact Option.some.inj (haddress.symm.trans htext)
    · have htext : AddressLibrary.onePeer.addressOf (.ip6 ipv6OfA.ip 3855) =
          some (.ip6 ipv6OfA.ip 3855) := by
        decide +kernel
      exact Option.some.inj (haddress.symm.trans htext)
  · intro searchResult hstopped rp hentry head hhead
    obtain rfl := Waited.stopped.inj (hwaited.symm.trans hstopped)
    obtain rfl := Option.some.inj hhead
    have hfound : entryOf [entryOfA [ipv6OfA]] ((searchForA (entryOfA [ipv6OfA])).id .onePeer) =
        some (entryOfA [ipv6OfA]) := by
      decide
    obtain rfl := Option.some.inj (hfound.symm.trans hentry)
    decide +kernel

/-- An entry with an address of one family only. -/
theorem not_returnsRecorded_ipv4 : ¬ReturnsRecorded .onePeer (searchForA (entryOfA [])) := by
  intro hreturns
  have hwaited : (searchForA (entryOfA [])).waited .onePeer = .stopped [entryOfA []] := by
    decide
  have hentry : entryOf [entryOfA []] ((searchForA (entryOfA [])).id .onePeer) = some (entryOfA []) := by
    decide
  obtain ⟨result, hresult, hnone, -⟩ := hreturns _ hwaited _ hentry
  have hnull : searchKademlia .onePeer (searchForA (entryOfA [])) = .returned none := by
    decide
  obtain rfl := Searched.returned.inj (hnull.symm.trans hresult)
  exact absurd (hnone rfl) (by decide)

end CLibp2p.Routing
