import CLibp2p.Identify.Identify
import CLibp2p.Proof.ProtobufFields
import Mathlib.Data.List.ReduceOption

/-!
# When an identify message decodes to itself

`libp2p_identify_array_add_item` counts one past the NULL of an array and puts the next item behind it,
where nobody sees it: a list is cut to its first item. A version that was not sent comes back as the own
one, and the length of the public key does not come back at all.
-/

namespace CLibp2p

open Duplex

variable {lib : FieldLibrary}

theorem stringAt_val (text : CString) : stringAt text.val = text :=
  Subtype.ext (cString_eq_self_iff.mpr text.property)

theorem encodable_string {fieldNo : Nat} (hpos : 0 < fieldNo) (hsmall : fieldNo < 16) (text : CString) :
    Encodable (fieldNo, .string text.val) :=
  ⟨hpos, hsmall, fun other hother => by cases hother; exact text.property⟩

/-! ### The lists -/

/-- An item that is added to an array is not seen. -/
theorem items_arrayAddItem (array : PointerArray) (item : CString) :
    (arrayAddItem (some array) item).items = array.items := by
  obtain ⟨pointers, hnull⟩ := array
  rw [arrayAddItem, PointerArray.items, PointerArray.items]
  dsimp only
  congr 1
  induction pointers with
  | nil => simp at hnull
  | cons pointer pointers ih =>
      cases pointer with
      | none => simp
      | some text =>
          have hrest : none ∈ pointers := by simpa using hnull
          have hmore := ih hrest
          simp only [List.findIdx_cons, Option.isNone_some, cond_false, List.take_succ_cons,
            List.cons_append, List.takeWhile_cons, Option.isSome_some, if_true] at hmore ⊢
          rw [hmore]

def addAll (array : Option PointerArray) (texts : List CString) : Option PointerArray :=
  texts.foldl (fun array text => some (arrayAddItem array text)) array

/-- Of a list of items only the first is seen. -/
theorem itemsOf_addAll (texts : List CString) : itemsOf (addAll none texts) = texts.take 1 := by
  have hmore : ∀ (texts : List CString) (array : PointerArray),
      itemsOf (addAll (some array) texts) = array.items := by
    intro texts
    induction texts with
    | nil => exact fun array => rfl
    | cons text texts ih => exact fun array => (ih _).trans (items_arrayAddItem array text)
  cases texts with
  | nil => rfl
  | cons text texts => exact hmore texts _

theorem storesAll_list (hlawful : lib.Lawful) {fieldNo : Nat} (hpos : 0 < fieldNo) (hsmall : fieldNo < 16)
    (put : Option PointerArray → Identify)
    (hfield : ∀ array input, identifyField lib fieldNo input (put array) =
      stringField lib input fun data => put (some (arrayAddItem array (stringAt data))))
    (texts : List CString) (array : Option PointerArray) :
    StoresAll lib (identifyField lib) (stringFields fieldNo texts) (put array)
      (put (addAll array texts)) := by
  induction texts generalizing array with
  | nil => exact StoresAll.nil _
  | cons text texts ih =>
      have hfirst := storesTo_text hlawful (encodable_string hpos hsmall text) (Or.inr rfl)
        (fun data => put (some (arrayAddItem array (stringAt data)))) (hfield array)
      rw [stringAt_val] at hfirst
      exact StoresAll.cons hfirst (ih _)

theorem storesAll_optional (hlawful : lib.Lawful) {fieldNo : Nat} (hpos : 0 < fieldNo)
    (hsmall : fieldNo < 16) (put : Option CString → Identify)
    (hfield : ∀ old input, identifyField lib fieldNo input (put old) =
      stringField lib input fun data => put (some (stringAt data)))
    (text old : Option CString) :
    StoresAll lib (identifyField lib) (stringFields fieldNo text.toList) (put old)
      (put (text.or old)) := by
  cases text with
  | none => exact StoresAll.nil _
  | some text =>
      have hfirst := storesTo_text hlawful (encodable_string hpos hsmall text) (Or.inr rfl)
        (fun data => put (some (stringAt data))) (hfield old)
      rw [stringAt_val] at hfirst
      exact StoresAll.cons hfirst (StoresAll.nil _)

/-! ### The message -/

/-- What the fields that were sent have become. -/
def Identify.received (identify : Identify) (uninitialized : Int32) : Identify :=
  ⟨identify.publicKey, uninitialized, addAll none (itemsOf identify.listenAddrs),
    addAll none (itemsOf identify.protocols), identify.observedAddr,
    identify.protocolVersion.or (some identifyProtocolVersion),
    identify.agentVersion.or (some identifyAgentVersion), none⟩

/-- The public key is as long as the message says. -/
def Identify.KeyLength (identify : Identify) : Prop :=
  ∀ key, identify.publicKey = some key → identify.publicKeyLength.toInt = key.length

theorem identifyStores_key (hlawful : lib.Lawful) {identify : Identify} (hkey : identify.KeyLength)
    (uninitialized : Int32) :
    StoresAll lib (identifyField lib)
      (identify.publicKey.toList.map fun key =>
        (1, .bytes (key.take (sizeOfInt identify.publicKeyLength.toInt))))
      (.new uninitialized)
      ⟨identify.publicKey, uninitialized, none, none, none, some identifyProtocolVersion,
        some identifyAgentVersion, none⟩ := by
  obtain ⟨publicKey, keyLength, addrs, protocols, observed, version, agent, unrecognized⟩ := identify
  cases publicKey with
  | none => exact StoresAll.nil _
  | some key =>
      have hlength : key.take (sizeOfInt keyLength.toInt) = key := by
        have hbound := keyLength.toInt_lt
        have hcount : keyLength.toInt = key.length := hkey key rfl
        rw [hcount, sizeOfInt, Int.emod_eq_of_lt (Int.natCast_nonneg _) (by omega), Int.toNat_natCast,
          List.take_length]
      have hstores : StoresTo lib (identifyField lib) (1, .bytes key) (.new uninitialized)
          ⟨some key, uninitialized, none, none, none, some identifyProtocolVersion,
            some identifyAgentVersion, none⟩ :=
        storesTo_text hlawful (encodable_bytes (by decide) (by decide) key) (Or.inl rfl)
          (fun data => (⟨some data, uninitialized, none, none, none, some identifyProtocolVersion,
            some identifyAgentVersion, none⟩ : Identify)) fun _ => rfl
      rw [Option.toList_some, List.map_singleton, hlength]
      exact StoresAll.cons hstores (StoresAll.nil _)

theorem identifyStores (hlawful : lib.Lawful) {identify : Identify} (hkey : identify.KeyLength)
    (uninitialized : Int32) :
    StoresAll lib (identifyField lib) identify.fields (.new uninitialized)
      (identify.received uninitialized) := by
  have hpublicKey := identifyStores_key hlawful hkey uninitialized
  obtain ⟨key, keyLength, addrs, protocols, observed, version, agent, unrecognized⟩ := identify
  have haddrs : StoresAll lib (identifyField lib) (stringFields 2 (itemsOf addrs))
      ⟨key, uninitialized, none, none, none, some identifyProtocolVersion, some identifyAgentVersion,
        none⟩
      ⟨key, uninitialized, addAll none (itemsOf addrs), none, none, some identifyProtocolVersion,
        some identifyAgentVersion, none⟩ :=
    storesAll_list hlawful (by decide) (by decide)
      (fun array => (⟨key, uninitialized, array, none, none, some identifyProtocolVersion,
        some identifyAgentVersion, none⟩ : Identify)) (fun _ _ => rfl) (itemsOf addrs) none
  have hprotocols : StoresAll lib (identifyField lib) (stringFields 3 (itemsOf protocols))
      ⟨key, uninitialized, addAll none (itemsOf addrs), none, none, some identifyProtocolVersion,
        some identifyAgentVersion, none⟩
      ⟨key, uninitialized, addAll none (itemsOf addrs), addAll none (itemsOf protocols), none,
        some identifyProtocolVersion, some identifyAgentVersion, none⟩ :=
    storesAll_list hlawful (by decide) (by decide)
      (fun array => (⟨key, uninitialized, addAll none (itemsOf addrs), array, none,
        some identifyProtocolVersion, some identifyAgentVersion, none⟩ : Identify))
      (fun _ _ => rfl) (itemsOf protocols) none
  have hobserved : StoresAll lib (identifyField lib) (stringFields 4 observed.toList)
      ⟨key, uninitialized, addAll none (itemsOf addrs), addAll none (itemsOf protocols), none,
        some identifyProtocolVersion, some identifyAgentVersion, none⟩
      ⟨key, uninitialized, addAll none (itemsOf addrs), addAll none (itemsOf protocols),
        observed.or none, some identifyProtocolVersion, some identifyAgentVersion, none⟩ :=
    storesAll_optional hlawful (by decide) (by decide)
      (fun text => (⟨key, uninitialized, addAll none (itemsOf addrs),
        addAll none (itemsOf protocols), text, some identifyProtocolVersion,
        some identifyAgentVersion, none⟩ : Identify)) (fun _ _ => rfl) observed none
  have hversion : StoresAll lib (identifyField lib) (stringFields 5 version.toList)
      ⟨key, uninitialized, addAll none (itemsOf addrs), addAll none (itemsOf protocols), observed,
        some identifyProtocolVersion, some identifyAgentVersion, none⟩
      ⟨key, uninitialized, addAll none (itemsOf addrs), addAll none (itemsOf protocols), observed,
        version.or (some identifyProtocolVersion), some identifyAgentVersion, none⟩ :=
    storesAll_optional hlawful (by decide) (by decide)
      (fun text => (⟨key, uninitialized, addAll none (itemsOf addrs),
        addAll none (itemsOf protocols), observed, text, some identifyAgentVersion, none⟩ : Identify))
      (fun _ _ => rfl) version (some identifyProtocolVersion)
  have hagent : StoresAll lib (identifyField lib) (stringFields 6 agent.toList)
      ⟨key, uninitialized, addAll none (itemsOf addrs), addAll none (itemsOf protocols), observed,
        version.or (some identifyProtocolVersion), some identifyAgentVersion, none⟩
      ⟨key, uninitialized, addAll none (itemsOf addrs), addAll none (itemsOf protocols), observed,
        version.or (some identifyProtocolVersion), agent.or (some identifyAgentVersion), none⟩ :=
    storesAll_optional hlawful (by decide) (by decide)
      (fun text => (⟨key, uninitialized, addAll none (itemsOf addrs),
        addAll none (itemsOf protocols), observed, version.or (some identifyProtocolVersion), text,
        none⟩ : Identify)) (fun _ _ => rfl) agent (some identifyAgentVersion)
  rw [Option.or_none] at hobserved
  exact ((((hpublicKey.append haddrs).append hprotocols).append hobserved).append hversion).append hagent

structure Identify.Same (identify other : Identify) : Prop where
  publicKey : other.publicKey = identify.publicKey
  publicKeyLength : identify.publicKey.isSome → other.publicKeyLength = identify.publicKeyLength
  listenAddrs : itemsOf other.listenAddrs = itemsOf identify.listenAddrs
  protocols : itemsOf other.protocols = itemsOf identify.protocols
  observedAddr : other.observedAddr = identify.observedAddr
  protocolVersion : other.protocolVersion = identify.protocolVersion
  agentVersion : other.agentVersion = identify.agentVersion

/-- What `libp2p_identify_protobuf_decode` can give back: lists of one item, no public key, and both
versions. -/
structure Identify.Short (identify : Identify) : Prop where
  publicKey : identify.publicKey = none
  listenAddrs : (itemsOf identify.listenAddrs).length ≤ 1
  protocols : (itemsOf identify.protocols).length ≤ 1
  protocolVersion : identify.protocolVersion.isSome
  agentVersion : identify.agentVersion.isSome

theorem take_one_eq_self_iff {α : Type} {items : List α} : items.take 1 = items ↔ items.length ≤ 1 := by
  rw [List.take_eq_self_iff]

theorem or_some_eq_self_iff {α : Type} {text : Option α} {other : α} :
    text.or (some other) = text ↔ text.isSome := by
  cases text <;> simp

/-- What is received says the same, whatever `malloc` gave for the length of the public key, only for
such a message. -/
theorem same_received_iff (identify : Identify) :
    (∀ uninitialized, identify.Same (identify.received uninitialized)) ↔ identify.Short := by
  constructor
  · intro hsame
    have hany := hsame 0
    refine ⟨?_, ?_, ?_, or_some_eq_self_iff.mp hany.protocolVersion,
      or_some_eq_self_iff.mp hany.agentVersion⟩
    · by_contra hkey
      have hlength := (hsame (identify.publicKeyLength + 1)).publicKeyLength
        (Option.isSome_iff_ne_none.mpr hkey)
      have hone : identify.publicKeyLength + 1 = identify.publicKeyLength := hlength
      exact absurd hone (by simp)
    · rw [← take_one_eq_self_iff, ← itemsOf_addAll]
      exact hany.listenAddrs
    · rw [← take_one_eq_self_iff, ← itemsOf_addAll]
      exact hany.protocols
  · intro hshort uninitialized
    refine ⟨rfl, ?_, ?_, ?_, rfl, or_some_eq_self_iff.mpr hshort.protocolVersion,
      or_some_eq_self_iff.mpr hshort.agentVersion⟩
    · rw [hshort.publicKey]
      exact fun hsome => by cases hsome
    · exact (itemsOf_addAll _).trans (take_one_eq_self_iff.mpr hshort.listenAddrs)
    · exact (itemsOf_addAll _).trans (take_one_eq_self_iff.mpr hshort.protocols)

/-- **Identify messages.** A message that is encoded decodes to one that says the same exactly if no list
has a second item, no public key is sent and both versions are. -/
theorem identifyDecode_same_iff (hlawful : lib.Lawful) (identify : Identify) (hkey : identify.KeyLength)
    {maxOut : Nat} (hspace : encodeSizes identify.fields ≤ maxOut) (hmax : maxOut < 2 ^ 64) :
    ∃ out, identifyEncode lib identify maxOut = some out ∧
      ((∀ uninitialized behind, ∃ decoded,
          identifyDecode lib uninitialized out behind = some decoded ∧ identify.Same decoded) ↔
        identify.Short) := by
  have hstores := identifyStores hlawful hkey
  obtain ⟨out, hout⟩ := exists_encode hlawful (hstores 0).encodable hmax hspace
  have hdecode : ∀ uninitialized behind, identifyDecode lib uninitialized out behind =
      some (identify.received uninitialized) :=
    fun uninitialized => ((hstores uninitialized).fieldSteps hlawful hout).decodeBuffer
  refine ⟨out, hout, ?_⟩
  rw [← same_received_iff]
  constructor
  · intro hsame uninitialized
    obtain ⟨decoded, hdecoded, hsame⟩ := hsame uninitialized []
    obtain rfl := Option.some.inj ((hdecode uninitialized []).symm.trans hdecoded)
    exact hsame
  · exact fun hsame uninitialized behind =>
      ⟨_, hdecode uninitialized behind, hsame uninitialized⟩

def twoAddrs : Identify :=
  ⟨some [8, 0], 2, some ⟨[some ⟨[65], by decide⟩, some ⟨[66], by decide⟩, none], by decide⟩,
    some ⟨[some ⟨[67], by decide⟩, none], by decide⟩, some ⟨[68], by decide⟩, none,
    some identifyAgentVersion, none⟩

theorem identifyDecode_same_iff_twoAddrs :
    ∃ out, identifyEncode .varints twoAddrs 200 = some out ∧
      ((∀ uninitialized behind, ∃ decoded,
          identifyDecode .varints uninitialized out behind = some decoded ∧ twoAddrs.Same decoded) ↔
        twoAddrs.Short) := by
  have hkey : twoAddrs.KeyLength := by
    intro key hsome
    cases hsome
    rfl
  have hspace : encodeSizes twoAddrs.fields ≤ 200 := by decide +kernel
  exact identifyDecode_same_iff fieldLibrary_varints_lawful twoAddrs hkey hspace (by decide)

/-- Two protocols and nothing that the decoder does not keep. -/
def twoProtocols : Identify :=
  ⟨none, 0, none, some ⟨[some ⟨[65], by decide⟩, some ⟨[66], by decide⟩, none], by decide⟩, none,
    some identifyProtocolVersion, some identifyAgentVersion, none⟩

/-- The second protocol does not come back. -/
theorem identifyDecode_same_fails :
    ∃ out decoded, identifyEncode .varints twoProtocols 200 = some out ∧
      identifyDecode .varints 0 out [] = some decoded ∧ (itemsOf decoded.protocols).length = 1 ∧
      (itemsOf twoProtocols.protocols).length = 2 ∧ ¬ twoProtocols.Same decoded := by
  have hkey : twoProtocols.KeyLength := fun key hsome => by cases hsome
  have hspace : encodeSizes twoProtocols.fields ≤ 200 := by decide +kernel
  have hstores := identifyStores fieldLibrary_varints_lawful hkey 0
  obtain ⟨out, hout⟩ := exists_encode fieldLibrary_varints_lawful hstores.encodable (by decide) hspace
  have hdecode := (hstores.fieldSteps fieldLibrary_varints_lawful hout).decodeBuffer []
  have hone : (itemsOf (twoProtocols.received 0).protocols).length = 1 := by decide
  refine ⟨out, _, hout, hdecode, hone, rfl, fun hsame => ?_⟩
  have htwo : (itemsOf (twoProtocols.received 0).protocols).length = 2 := by
    rw [hsame.protocols]
    rfl
  exact absurd (hone.symm.trans htwo) (by decide)

end CLibp2p
