import CLibp2p.Machine.Runs
import CLibp2p.Peer.PeerEntries

/-!
# What the peerstore holds

Every way to put a peer in looks for its id first and appends where it is not found, so the ids stay
distinct, the local peer stays first and nobody gets lost. A new id must fit the buffer that the log
messages print it from, and must not come by itself: then it is freed before it is looked up again.
-/

namespace CLibp2p.Peer

open Duplex Machine

variable {lib : MultiaddrLibrary}

/-! ### Lookup -/

theorem getPeer_some {nodes : Peerstore} {id : Bytes} {i : Nat} (hfound : getPeer nodes id = some i) :
    id ≠ [] ∧ ∃ hlt : i < nodes.length, nodes[i].id = id := by
  rw [getPeer] at hfound
  split at hfound
  · cases hfound
  · rename_i hlength
    obtain ⟨hlt, hid, -⟩ := List.findIdx?_eq_some_iff_getElem.mp hfound
    exact ⟨fun hempty => hlength (by rw [hempty]; rfl), hlt, by simpa using hid⟩

theorem getPeer_eq_none {nodes : Peerstore} {id : Bytes} :
    getPeer nodes id = none ↔ id = [] ∨ id ∉ nodes.map Libp2pPeer.id := by
  rw [getPeer]
  split
  · rename_i hlength
    exact iff_of_true rfl (.inl (List.length_eq_zero_iff.mp hlength))
  · rename_i hlength
    have hid : id ≠ [] := fun hempty => hlength (by rw [hempty]; rfl)
    rw [List.findIdx?_eq_none_iff, or_iff_right hid]
    simp

theorem getPeer_of_mem {nodes : Peerstore} {id : Bytes} (hid : id ≠ [])
    (hmem : id ∈ nodes.map Libp2pPeer.id) :
    ∃ i peer, getPeer nodes id = some i ∧ nodes[i]? = some peer ∧ peer.id = id := by
  cases hfound : getPeer nodes id with
  | none => exact absurd hmem ((getPeer_eq_none.mp hfound).resolve_left hid)
  | some i =>
      obtain ⟨-, hlt, hat⟩ := getPeer_some hfound
      exact ⟨i, nodes[i], rfl, List.getElem?_eq_getElem hlt, hat⟩

/-! ### Addresses -/

/-- The addresses are the old ones and those that come in, where one that compares equal to an address in
the list stands for it. -/
structure MergedInto (lib : MultiaddrLibrary) (old incoming merged : List MultiAddress) : Prop where
  old_mem : ∀ address ∈ old, address ∈ merged
  incoming_mem : ∀ address ∈ incoming, ∃ known ∈ merged, known = address ∨ lib.compare address known = 0
  mem : ∀ address ∈ merged, address ∈ old ∨ address ∈ incoming

theorem mergedInto_updateAddresses (lib : MultiaddrLibrary) (existing : Libp2pPeer)
    (incoming : List MultiAddress) :
    MergedInto lib existing.addresses incoming (updateAddresses lib existing incoming).addresses := by
  unfold updateAddresses
  dsimp only
  generalize existing.addresses = old
  induction incoming generalizing old with
  | nil => exact ⟨fun _ => id, by simp, fun _ => .inl⟩
  | cons address incoming ih =>
      rw [List.foldl_cons]
      split
      · rename_i hknown
        have hrest := ih old
        refine ⟨hrest.old_mem, ?_, fun other hother => ?_⟩
        · intro other hother
          rcases List.mem_cons.mp hother with rfl | hother
          · obtain ⟨known, hmem, hequal⟩ := List.any_eq_true.mp hknown
            exact ⟨known, hrest.old_mem known hmem, .inr (by simpa using hequal)⟩
          · exact hrest.incoming_mem other hother
        · exact (hrest.mem other hother).imp_right (List.mem_cons_of_mem _)
      · have hrest := ih (address :: old)
        refine ⟨fun other hother => hrest.old_mem other (List.mem_cons_of_mem _ hother), ?_, ?_⟩
        · intro other hother
          rcases List.mem_cons.mp hother with rfl | hother
          · exact ⟨other, hrest.old_mem other List.mem_cons_self, .inl rfl⟩
          · exact hrest.incoming_mem other hother
        · intro other hother
          rcases hrest.mem other hother with hmem | hmem
          · rcases List.mem_cons.mp hmem with rfl | hold
            · exact .inr List.mem_cons_self
            · exact .inl hold
          · exact .inr (List.mem_cons_of_mem _ hmem)

/-! ### One call -/

namespace PeerEntries

structure Sound (peerstore : PeerEntries) (localPeer : GivenPeer) : Prop where
  lastEntry : ∃ last, peerstore.lastEntry = some last ∧ last + 1 = peerstore.nodes.length
  id_ne_nil : ∀ peer ∈ peerstore.nodes, peer.id ≠ []
  id_lt : ∀ peer ∈ peerstore.nodes, peer.id.length < stringRetvalSize
  distinct : (peerstore.nodes.map Libp2pPeer.id).Nodup
  getLocalPeer : ∃ addresses,
    peerstore.getLocalPeer = some { peerCopy localPeer with addresses := addresses }

theorem Sound.nodes_ne_nil {peerstore : PeerEntries} {localPeer : GivenPeer}
    (hsound : peerstore.Sound localPeer) : peerstore.nodes ≠ [] := by
  obtain ⟨last, -, hlength⟩ := hsound.lastEntry
  exact List.ne_nil_of_length_pos (by omega)

theorem addPeerEntry_eq {peerstore : PeerEntries} {localPeer : GivenPeer}
    (hsound : peerstore.Sound localPeer) (peer : Libp2pPeer) :
    peerstore.addPeerEntry peer =
      some ⟨peerstore.nodes ++ [peer], some peerstore.nodes.length⟩ := by
  obtain ⟨last, hlast, hlength⟩ := hsound.lastEntry
  have hne := hsound.nodes_ne_nil
  rw [addPeerEntry]
  split
  · rename_i hnil
    exact absurd hnil hne
  · rw [hlast, Option.map_some, hlength, List.take_length]

theorem Sound.append {peerstore : PeerEntries} {localPeer : GivenPeer}
    (hsound : peerstore.Sound localPeer) {peer : Libp2pPeer} (hid : peer.id ≠ [])
    (hfits : peer.id.length < stringRetvalSize) (hnew : peer.id ∉ peerstore.nodes.map Libp2pPeer.id) :
    Sound ⟨peerstore.nodes ++ [peer], some peerstore.nodes.length⟩ localPeer where
  lastEntry := ⟨_, rfl, by simp⟩
  id_ne_nil := by
    intro other hother
    rcases List.mem_append.mp hother with hold | hlast
    · exact hsound.id_ne_nil other hold
    · obtain rfl := List.mem_singleton.mp hlast
      exact hid
  id_lt := by
    intro other hother
    rcases List.mem_append.mp hother with hold | hlast
    · exact hsound.id_lt other hold
    · obtain rfl := List.mem_singleton.mp hlast
      exact hfits
  distinct := by
    rw [List.map_append]
    exact List.nodup_append_comm.mp (List.nodup_cons.mpr ⟨hnew, hsound.distinct⟩)
  getLocalPeer := by
    obtain ⟨addresses, hlocal⟩ := hsound.getLocalPeer
    refine ⟨addresses, ?_⟩
    rw [PeerEntries.getLocalPeer, List.head?_append, ← PeerEntries.getLocalPeer, hlocal]
    rfl

theorem map_id_modify (nodes : Peerstore) (i : Nat) (incoming : List MultiAddress) :
    (nodes.modify i fun existing => updateAddresses lib existing incoming).map Libp2pPeer.id =
      nodes.map Libp2pPeer.id := by
  apply List.ext_getElem?
  intro j
  rw [List.getElem?_map, List.getElem?_map, List.getElem?_modify]
  cases nodes[j]? with
  | none => rfl
  | some existing => split <;> rfl

/-- What holds of the ids holds of them when addresses have changed. -/
theorem forall_id_modify {nodes : Peerstore} {i : Nat} {incoming : List MultiAddress} {P : Bytes → Prop}
    (hold : ∀ peer ∈ nodes, P peer.id) :
    ∀ peer ∈ nodes.modify i fun existing => updateAddresses lib existing incoming, P peer.id := by
  intro peer hpeer
  have hid : peer.id ∈ (nodes.modify i fun existing =>
      updateAddresses lib existing incoming).map Libp2pPeer.id := List.mem_map_of_mem hpeer
  rw [map_id_modify] at hid
  obtain ⟨old, hmem, hsame⟩ := List.mem_map.mp hid
  exact hsame ▸ hold old hmem

theorem Sound.modify {peerstore : PeerEntries} {localPeer : GivenPeer}
    (hsound : peerstore.Sound localPeer) (i : Nat) (incoming : List MultiAddress) :
    Sound { peerstore with
      nodes := peerstore.nodes.modify i fun existing => updateAddresses lib existing incoming }
      localPeer where
  lastEntry := by simpa using hsound.lastEntry
  id_ne_nil := forall_id_modify (P := fun id => id ≠ []) hsound.id_ne_nil
  id_lt := forall_id_modify (P := fun id => id.length < stringRetvalSize) hsound.id_lt
  distinct := by
    rw [map_id_modify]
    exact hsound.distinct
  getLocalPeer := by
    obtain ⟨addresses, hlocal⟩ := hsound.getLocalPeer
    rw [PeerEntries.getLocalPeer, List.head?_eq_getElem?] at hlocal
    rw [PeerEntries.getLocalPeer, List.head?_eq_getElem?, List.getElem?_modify, hlocal]
    split
    · exact ⟨_, rfl⟩
    · exact ⟨addresses, rfl⟩

theorem addPeer_of_known {peerstore : PeerEntries} {peer : GivenPeer} {i : Nat}
    (hfound : getPeer peerstore.nodes peer.id = some i) :
    peerstore.addPeer lib peer = some ({ peerstore with
      nodes := peerstore.nodes.modify i fun existing =>
        updateAddresses lib existing peer.addrItems.reduceOption }, true) := by
  rw [addPeer, hfound]

theorem addPeer_of_nil {peerstore : PeerEntries} {peer : GivenPeer} (hid : peer.id = []) :
    peerstore.addPeer lib peer = some (peerstore, false) := by
  rw [addPeer, getPeer_eq_none.mpr (.inl hid), hid]
  rfl

theorem addPeer_of_new {peerstore : PeerEntries} {peer : GivenPeer} (hid : peer.id ≠ [])
    (hnew : getPeer peerstore.nodes peer.id = none) :
    peerstore.addPeer lib peer =
      if peer.id.length < stringRetvalSize then
        (peerstore.addPeerEntry (peerCopy peer)).map fun peerstore => (peerstore, true)
      else none := by
  rw [addPeer, hnew]
  dsimp only
  rw [if_pos (List.length_pos_iff.mpr hid), peerIdToString]
  split
  · cases peerstore.addPeerEntry (peerCopy peer) <;> rfl
  · rfl

end PeerEntries

namespace PeerstoreCall

/-- A new id comes with a peer and fits the buffer it is printed from. -/
def Fits (peerstore : Option PeerEntries) (call : PeerstoreCall) : Prop :=
  ∀ entries, peerstore = some entries → call.id ≠ [] → getPeer entries.nodes call.id = none →
    call.id.length < stringRetvalSize ∧ ∀ peerId, call ≠ .getOrAddPeerById peerId

/-- Adding a peer whose id is known merges its addresses into those of the entry. -/
def Merges (lib : MultiaddrLibrary) (peerstore : Option PeerEntries) (call : PeerstoreCall) : Prop :=
  ∀ entries peer i, peerstore = some entries → call = .addPeer peer →
    getPeer entries.nodes peer.id = some i →
    ∃ entries' old merged, call.apply lib peerstore = some entries' ∧
      entries.nodes[i]? = some old ∧ entries'.nodes[i]? = some { old with addresses := merged } ∧
      MergedInto lib old.addresses peer.addrItems.reduceOption merged

theorem merges (lib : MultiaddrLibrary) (peerstore : Option PeerEntries) (call : PeerstoreCall) :
    call.Merges lib peerstore := by
  rintro entries peer i rfl rfl hfound
  obtain ⟨-, hlt, -⟩ := getPeer_some hfound
  have happly : apply lib (some entries) (.addPeer peer) = some { entries with
      nodes := entries.nodes.modify i fun existing =>
        updateAddresses lib existing peer.addrItems.reduceOption } := by
    rw [apply, PeerEntries.addPeer_of_known hfound]
    rfl
  refine ⟨_, entries.nodes[i],
    (updateAddresses lib entries.nodes[i] peer.addrItems.reduceOption).addresses, happly,
    List.getElem?_eq_getElem hlt, ?_, mergedInto_updateAddresses lib _ _⟩
  dsimp only
  rw [List.getElem?_modify, List.getElem?_eq_getElem hlt, Option.map_eq_map, Option.map_some, if_pos rfl]
  rfl

/-- The ids that are there stay, and the id of the call is one of them. -/
structure Grows (before after : PeerEntries) (id : Bytes) : Prop where
  keeps : ∀ known ∈ before.nodes.map Libp2pPeer.id, known ∈ after.nodes.map Libp2pPeer.id
  holds : id ≠ [] → id ∈ after.nodes.map Libp2pPeer.id

theorem grows_self {entries : PeerEntries} {id : Bytes}
    (hknown : id ≠ [] → getPeer entries.nodes id ≠ none) : Grows entries entries id where
  keeps _ := fun hmem => hmem
  holds hid := by
    have hfound := hknown hid
    rw [Ne, getPeer_eq_none, not_or, not_not] at hfound
    exact hfound.2

theorem apply_of_known {entries : PeerEntries} {localPeer : GivenPeer}
    (hsound : entries.Sound localPeer) {call : PeerstoreCall}
    (hknown : call.id ≠ [] → getPeer entries.nodes call.id ≠ none) :
    ∃ entries', call.apply lib (some entries) = some entries' ∧ entries'.Sound localPeer ∧
      Grows entries entries' call.id := by
  cases hfound : getPeer entries.nodes call.id with
  | none =>
      -- the id is empty, and nothing is done
      have hid : call.id = [] := by
        by_contra hid
        exact hknown hid hfound
      refine ⟨entries, ?_, hsound, grows_self hknown⟩
      cases call with
      | addPeer peer => rw [apply, PeerEntries.addPeer_of_nil hid]; rfl
      | getOrAddPeer peer =>
          have hnone : getPeer entries.nodes peer.id = none := hfound
          rw [apply, PeerEntries.getOrAddPeer, hnone]
          dsimp only
          rw [PeerEntries.addPeer_of_nil hid]
          rfl
      | getOrAddPeerById peerId =>
          obtain rfl : peerId = [] := hid
          rfl
  | some i =>
      cases call with
      | addPeer peer =>
          refine ⟨_, by rw [apply, PeerEntries.addPeer_of_known hfound]; rfl, hsound.modify i _, ?_⟩
          have hself := grows_self hknown
          exact ⟨by rw [PeerEntries.map_id_modify]; exact hself.keeps,
            by rw [PeerEntries.map_id_modify]; exact hself.holds⟩
      | getOrAddPeer peer =>
          have hfound' : getPeer entries.nodes peer.id = some i := hfound
          refine ⟨entries, ?_, hsound, grows_self hknown⟩
          rw [apply, PeerEntries.getOrAddPeer, hfound']
          rfl
      | getOrAddPeerById peerId =>
          have hfound' : getPeer entries.nodes peerId = some i := hfound
          have hid : peerId ≠ [] := (getPeer_some hfound').1
          refine ⟨entries, ?_, hsound, grows_self hknown⟩
          rw [apply, PeerEntries.getOrAddPeerById,
            if_neg fun hlength => hid (List.length_eq_zero_iff.mp hlength), hfound']
          rfl

theorem apply_of_new {entries : PeerEntries} {localPeer : GivenPeer}
    (hsound : entries.Sound localPeer) {call : PeerstoreCall} (hid : call.id ≠ [])
    (hnew : getPeer entries.nodes call.id = none) (hfits : call.id.length < stringRetvalSize)
    (hpeer : ∀ peerId, call ≠ .getOrAddPeerById peerId) :
    ∃ entries', call.apply lib (some entries) = some entries' ∧ entries'.Sound localPeer ∧
      Grows entries entries' call.id := by
  have hadd : ∀ peer : GivenPeer, peer.id = call.id → entries.addPeer lib peer =
      some (⟨entries.nodes ++ [peerCopy peer], some entries.nodes.length⟩, true) := by
    intro peer hsame
    rw [← hsame] at hid hnew hfits
    rw [PeerEntries.addPeer_of_new hid hnew, if_pos hfits, PeerEntries.addPeerEntry_eq hsound]
    rfl
  have hafter : ∀ peer : GivenPeer, peer.id = call.id →
      PeerEntries.Sound ⟨entries.nodes ++ [peerCopy peer], some entries.nodes.length⟩ localPeer ∧
        Grows entries ⟨entries.nodes ++ [peerCopy peer], some entries.nodes.length⟩ call.id := by
    intro peer hsame
    have hcopy : (peerCopy peer).id = call.id := hsame
    rw [← hcopy] at hid hnew hfits ⊢
    refine ⟨hsound.append hid hfits ?_, ⟨fun known hknown => ?_, fun _ => ?_⟩⟩
    · exact (getPeer_eq_none.mp hnew).resolve_left hid
    · rw [List.map_append]
      exact List.mem_append_left _ hknown
    · rw [List.map_append]
      exact List.mem_append_right _ (List.mem_singleton.mpr rfl)
  cases call with
  | addPeer peer =>
      refine ⟨_, ?_, hafter peer rfl⟩
      rw [apply, hadd peer rfl]
      rfl
  | getOrAddPeer peer =>
      have hnone : getPeer entries.nodes peer.id = none := hnew
      refine ⟨_, ?_, hafter peer rfl⟩
      rw [apply, PeerEntries.getOrAddPeer, hnone]
      dsimp only
      rw [hadd peer rfl]
      rfl
  | getOrAddPeerById peerId => exact absurd rfl (hpeer peerId)

variable (lib) in
theorem apply_of_fits {entries : PeerEntries} {localPeer : GivenPeer}
    (hsound : entries.Sound localPeer) {call : PeerstoreCall} (hfits : call.Fits (some entries)) :
    ∃ entries', call.apply lib (some entries) = some entries' ∧ entries'.Sound localPeer ∧
      Grows entries entries' call.id := by
  by_cases hknown : call.id ≠ [] → getPeer entries.nodes call.id ≠ none
  · exact apply_of_known hsound hknown
  · rw [Classical.not_imp, not_not] at hknown
    obtain ⟨hlength, hpeer⟩ := hfits entries rfl hknown.1 hknown.2
    exact apply_of_new hsound hknown.1 hknown.2 hlength hpeer

theorem apply_of_not_fits {peerstore : Option PeerEntries} {call : PeerstoreCall}
    (hfits : ¬call.Fits peerstore) : call.apply lib peerstore = none := by
  unfold Fits at hfits
  push Not at hfits
  obtain ⟨entries, rfl, hid, hnew, hcase⟩ := hfits
  cases call with
  | addPeer peer =>
      have hlong : ¬peer.id.length < stringRetvalSize := by
        intro hlength
        obtain ⟨peerId, hsame⟩ := hcase hlength
        cases hsame
      rw [apply, PeerEntries.addPeer_of_new hid hnew, if_neg hlong]
      rfl
  | getOrAddPeer peer =>
      have hlong : ¬peer.id.length < stringRetvalSize := by
        intro hlength
        obtain ⟨peerId, hsame⟩ := hcase hlength
        cases hsame
      have hnone : getPeer entries.nodes peer.id = none := hnew
      rw [apply, PeerEntries.getOrAddPeer, hnone]
      dsimp only
      rw [PeerEntries.addPeer_of_new hid hnew, if_neg hlong]
      rfl
  | getOrAddPeerById peerId =>
      have hnone : getPeer entries.nodes peerId = none := hnew
      have hlength : peerId.length ≠ 0 := fun hzero => hid (List.length_eq_zero_iff.mp hzero)
      rw [apply, PeerEntries.getOrAddPeerById, if_neg hlength, hnone]
      dsimp only
      cases PeerEntries.addPeer lib entries (.ofId peerId) <;> rfl

end PeerstoreCall

/-! ### A run -/

open PeerstoreCall

/-- Every state that the calls lead to is sound and finds every id that was added, and every call that
adds a known id merges the addresses. -/
def PeerstoreKept (lib : MultiaddrLibrary) (localPeer : GivenPeer) (calls : List PeerstoreCall) : Prop :=
  (∀ reached, reached <+: calls → ∃ entries,
    run (apply lib) (PeerEntries.new lib localPeer) reached = some entries ∧ entries.Sound localPeer ∧
    ∀ id ∈ localPeer.id :: reached.map PeerstoreCall.id, id ≠ [] →
      ∃ i peer, getPeer entries.nodes id = some i ∧ entries.nodes[i]? = some peer ∧ peer.id = id) ∧
  Along (apply lib) (fun peerstore call => call.Merges lib peerstore) (PeerEntries.new lib localPeer)
    calls

theorem run_of_fits {localPeer : GivenPeer} {entries : PeerEntries} (hsound : entries.Sound localPeer)
    {calls : List PeerstoreCall}
    (hfits : Along (apply lib) (fun peerstore call => call.Fits peerstore) (some entries) calls) :
    ∃ entries', run (apply lib) (some entries) calls = some entries' ∧ entries'.Sound localPeer ∧
      (∀ id ∈ entries.nodes.map Libp2pPeer.id, id ∈ entries'.nodes.map Libp2pPeer.id) ∧
      ∀ call ∈ calls, call.id ≠ [] → call.id ∈ entries'.nodes.map Libp2pPeer.id := by
  induction calls generalizing entries with
  | nil => exact ⟨entries, rfl, hsound, fun _ => id, by simp⟩
  | cons call calls ih =>
      obtain ⟨hcall, hrest⟩ := hfits
      obtain ⟨next, hnext, hnextSound, hgrows⟩ := apply_of_fits lib hsound hcall
      rw [hnext] at hrest
      obtain ⟨last, hlast, hlastSound, hkeeps, hholds⟩ := ih hnextSound hrest
      refine ⟨last, ?_, hlastSound, fun id hid => hkeeps id (hgrows.keeps id hid), ?_⟩
      · rw [run_cons, hnext, hlast]
      · intro other hother hid
        rcases List.mem_cons.mp hother with rfl | hother
        · exact hkeeps _ (hgrows.holds hid)
        · exact hholds other hother hid

theorem PeerEntries.new_eq {localPeer : GivenPeer} (hid : localPeer.id ≠ []) :
    PeerEntries.new lib localPeer =
      if localPeer.id.length < stringRetvalSize then some ⟨[peerCopy localPeer], some 0⟩ else none := by
  have hnone : getPeer [] localPeer.id = none := getPeer_eq_none.mpr (.inr (by simp))
  rw [PeerEntries.new, PeerEntries.addPeer_of_new hid hnone]
  split <;> rfl

theorem PeerEntries.sound_new {localPeer : GivenPeer} (hid : localPeer.id ≠ [])
    (hlength : localPeer.id.length < stringRetvalSize) :
    PeerEntries.Sound ⟨[peerCopy localPeer], some 0⟩ localPeer where
  lastEntry := ⟨0, rfl, rfl⟩
  id_ne_nil := by
    intro peer hpeer
    obtain rfl := List.mem_singleton.mp hpeer
    exact hid
  id_lt := by
    intro peer hpeer
    obtain rfl := List.mem_singleton.mp hpeer
    exact hlength
  distinct := List.nodup_singleton _
  getLocalPeer := ⟨(peerCopy localPeer).addresses, rfl⟩

/-- There still is a peerstore, and it is sound. -/
def StillSound (localPeer : GivenPeer) (peerstore : Option PeerEntries) : Prop :=
  ∃ entries, peerstore = some entries ∧ entries.Sound localPeer

theorem peerstoreKept_iff (lib : MultiaddrLibrary) {localPeer : GivenPeer} (hid : localPeer.id ≠ [])
    (calls : List PeerstoreCall) :
    PeerstoreKept lib localPeer calls ↔
      localPeer.id.length < stringRetvalSize ∧
        Along (apply lib) (fun peerstore call => call.Fits peerstore) (PeerEntries.new lib localPeer)
          calls := by
  by_cases hlength : localPeer.id.length < stringRetvalSize
  · rw [and_iff_right hlength, PeerstoreKept, PeerEntries.new_eq hid, if_pos hlength]
    have hstart := PeerEntries.sound_new hid hlength
    constructor
    · rintro ⟨hreached, -⟩
      have hinit : StillSound localPeer (some ⟨[peerCopy localPeer], some 0⟩) := ⟨_, rfl, hstart⟩
      refine (along_iff_good (apply lib) (fun _ hgood => hgood) ?_ ?_ hinit).mp fun reached hfront => ?_
      · rintro _ call ⟨entries, rfl, hsound⟩ hfits
        obtain ⟨entries', happly, hsound', -⟩ := apply_of_fits lib hsound hfits
        exact ⟨entries', happly, hsound'⟩
      · rintro _ call - hfits ⟨entries, happly, -⟩
        rw [apply_of_not_fits hfits] at happly
        cases happly
      · obtain ⟨entries, hrun, hsound, -⟩ := hreached reached hfront
        exact ⟨entries, hrun, hsound⟩
    · intro hfits
      refine ⟨?_, hfits.mono fun peerstore call _ => merges lib peerstore call⟩
      rintro reached ⟨rest, rfl⟩
      obtain ⟨entries, hrun, hsound, hkeeps, hholds⟩ := run_of_fits hstart (along_append.mp hfits).1
      refine ⟨entries, hrun, hsound, fun id hadded hne => getPeer_of_mem hne ?_⟩
      rcases List.mem_cons.mp hadded with rfl | hadded
      · exact hkeeps _ (List.mem_singleton.mpr rfl)
      · obtain ⟨call, hcall, rfl⟩ := List.mem_map.mp hadded
        exact hholds call hcall hne
  · refine iff_of_false ?_ fun h => hlength h.1
    rintro ⟨hreached, -⟩
    obtain ⟨entries, hrun, -⟩ := hreached [] List.nil_prefix
    rw [PeerEntries.new_eq hid, if_neg hlength] at hrun
    cases hrun

/-- A multiaddress library with the comparison only. -/
def plainAddresses : MultiaddrLibrary where
  newFromString := some
  compare := fun address known => if address = known then 0 else 1

theorem peerstoreKept_iff_known :
    PeerstoreKept plainAddresses (.ofId [65])
      [.addPeer { GivenPeer.ofId [66] with addrItems := [some [1], none] },
        .addPeer { GivenPeer.ofId [66] with addrItems := [some [1], some [2]] },
        .getOrAddPeer (.ofId [67]), .getOrAddPeerById [66]] := by
  refine (peerstoreKept_iff plainAddresses (by decide) _).mpr ⟨by decide, ?_⟩
  refine ⟨?_, ?_, ?_, ?_, trivial⟩
  · exact fun _ _ _ _ => ⟨by decide, nofun⟩
  · exact fun _ _ _ _ => ⟨by decide, nofun⟩
  · exact fun _ _ _ _ => ⟨by decide, nofun⟩
  · intro entries hentries _ hnew
    cases hentries
    exact absurd hnew (by decide)

/-- A new id by itself, and a new id of a hundred bytes. -/
theorem not_peerstoreKept_newId :
    ¬PeerstoreKept plainAddresses (.ofId [65]) [.getOrAddPeerById [66]] ∧
      ¬PeerstoreKept plainAddresses (.ofId [65]) [.addPeer (.ofId (List.replicate 100 66))] := by
  constructor
  · rintro ⟨hreached, -⟩
    obtain ⟨entries, hrun, -⟩ := hreached _ (List.prefix_refl _)
    have hnone : run (apply plainAddresses) (PeerEntries.new plainAddresses (.ofId [65]))
        [.getOrAddPeerById [66]] = none := by decide
    rw [hnone] at hrun
    cases hrun
  · rintro ⟨hreached, -⟩
    obtain ⟨entries, hrun, -⟩ := hreached _ (List.prefix_refl _)
    have hnone : run (apply plainAddresses) (PeerEntries.new plainAddresses (.ofId [65]))
        [.addPeer (.ofId (List.replicate 100 66))] = none := by decide
    rw [hnone] at hrun
    cases hrun

end CLibp2p.Peer
