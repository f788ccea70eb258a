import CLibp2p.Proof.PeerEntries
import CLibp2p.Proof.Vector
import CLibp2p.Routing.DhtProtocol

/-!
# What the DHT answers

The provider store is the list of the announcements so far, and each of their peers is in the peerstore,
so the first announcement of a key is what a later request for its providers finds. What can go wrong is
around it: a copy of a peer takes the session along, and freeing the message frees the session if the
peer was among the closer ones.
-/

namespace CLibp2p.Routing

open Duplex Machine Peer Record Utils Crypto

variable {δ : Type} {lib : DhtLibrary δ}

/-! ### Sessions -/

/-- The sessions of the peers are different ones, and none has been freed. -/
def SessionsLive (freed : List Nat) (peers : List GivenPeer) : Prop :=
  (peers.filterMap GivenPeer.sessionContext).Nodup ∧
    ∀ session ∈ peers.filterMap GivenPeer.sessionContext, session ∉ freed

theorem freeSessions_isSome {freed sessions : List Nat} :
    (freeSessions freed sessions).isSome ↔
      sessions.Nodup ∧ ∀ session ∈ sessions, session ∉ freed := by
  induction sessions generalizing freed with
  | nil => simp [freeSessions]
  | cons session sessions ih =>
      rw [freeSessions, List.nodup_cons, List.forall_mem_cons]
      split
      · rename_i hfreed
        exact iff_of_false Bool.false_ne_true fun h => h.2.1 hfreed
      · rename_i hlive
        rw [ih]
        constructor
        · rintro ⟨hnodup, hrest⟩
          have hnotMem : session ∉ sessions := fun hmem => hrest session hmem List.mem_cons_self
          exact ⟨⟨hnotMem, hnodup⟩, hlive, fun other hother hfreed =>
            hrest other hother (List.mem_cons_of_mem _ hfreed)⟩
        · rintro ⟨⟨hnotMem, hnodup⟩, -, hrest⟩
          refine ⟨hnodup, fun other hother hmem => ?_⟩
          rcases List.mem_cons.mp hmem with rfl | hfreed
          · exact hnotMem hother
          · exact hrest other hother hfreed

/-! ### When a request is handled -/

def Encodable (lib : DhtLibrary δ) (message : DhtMessage) : Prop := (protobufMessage lib message).isSome

theorem protobufMessage_message {message : DhtMessage} {reply : Reply}
    (hreply : protobufMessage lib message = some reply) : reply.message = message := by
  obtain ⟨bytes, -, rfl⟩ := Option.map_eq_some_iff.mp hreply
  rfl

/-- The announcement of a key that the provider store finds. -/
def announcementOf (context : DhtContext δ) (key : Bytes) : Option ProviderEntry :=
  context.providers.contents.reduceOption.find? fun entry => entry.hash == key

/-- Who is to be named for a key: the local peer if the datastore holds it, and otherwise the peer of the
first announcement as the peerstore knows it. -/
def knownProviders (lib : DhtLibrary δ) (context : DhtContext δ) (key : Bytes) : List Libp2pPeer :=
  if lib.datastoreGet context.datastore key then context.peerStore.getLocalPeer.toList
  else
    match announcementOf context key with
    | some entry => (context.peerStore.nodes.find? fun peer => peer.id == entry.peerId).toList
    | none => []

def answerMessage (lib : DhtLibrary δ) (context : DhtContext δ) (message : DhtMessage) : DhtMessage :=
  fillPeers lib context message ((knownProviders lib context message.keyBytes).map copyOut)

/-- The closer peers that are freed with the message. -/
def closersFreed (lib : DhtLibrary δ) (context : DhtContext δ) (message : DhtMessage) : List GivenPeer :=
  match message.messageType with
  | .getProviders => (answerMessage lib context message).closerPeers
  | .findNode => (findNodeMessage lib context message).closerPeers
  | _ => message.closerPeers

/-- An announcement whose peer has an IP address and an id. -/
def Announces (lib : DhtLibrary δ) (message : DhtMessage) (peer : GivenPeer) : Prop :=
  message.providerPeers.head? = some peer ∧ (peer.addrItems.find? lib.isIp).join.isSome ∧ peer.id ≠ []

/-- The handler of the request stays within its memory. -/
def HandlerSafe (lib : DhtLibrary δ) (context : DhtContext δ) (message : DhtMessage) : Prop :=
  match message.messageType with
  | .putValue => True
  | .getValue =>
      match lib.nodeGet message.keyBytes with
      | none => base58Strays message.keyBytes 100 = false
      | some data => Encodable lib (fillRecord message data)
  | .addProvider =>
      (lib.watching → ∃ peer, message.providerPeers.head? = some peer ∧
        peer.id.length < stringRetvalSize) ∧
      ∀ peer, Announces lib message peer →
        (getPeer context.peerStore.nodes peer.id = none → peer.id.length < stringRetvalSize) ∧
        (context.providers.total < context.providers.capacity ∨
          context.providers.capacity * 2 < intBound) ∧
        Encodable lib message
  | .getProviders =>
      (lib.datastoreGet context.datastore message.keyBytes = false →
        announcementOf context message.keyBytes = none → base58Strays message.keyBytes 100 = false) ∧
      Encodable lib (answerMessage lib context message)
  | .findNode => Encodable lib (findNodeMessage lib context message)
  | .ping => Encodable lib message

/-- The handler is safe, and no session is freed twice. Sizes of the provider store are `int` in the source, so a
store that would double to `intBound` places or more is not covered. -/
def RequestSafe (lib : DhtLibrary δ) (context : DhtContext δ) (message : DhtMessage) : Prop :=
  HandlerSafe lib context message ∧ SessionsLive context.freed (closersFreed lib context message)

/-! ### The invariant -/

/-- The provider store is the list of the announcements, and the peerstore has their peers. -/
structure DhtContext.Sound (context : DhtContext δ) (announced : List ProviderEntry) : Prop where
  peerStore : ∃ localPeer, context.peerStore.Sound localPeer
  wellFormed : context.providers.WellFormed
  contents : context.providers.contents = announced.map some
  known : ∀ entry ∈ announced, entry.peerId ∈ context.peerStore.nodes.map Libp2pPeer.id

variable {context : DhtContext δ} {announced : List ProviderEntry}

theorem DhtContext.Sound.announcementOf_eq (hsound : context.Sound announced) (key : Bytes) :
    announcementOf context key = announced.find? fun entry => entry.hash == key := by
  have hreduce : context.providers.contents.reduceOption = announced := by
    rw [hsound.contents]
    calc (announced.map some).reduceOption = announced.filterMap some := List.filterMap_map
      _ = announced := List.filterMap_some
  rw [announcementOf, hreduce]

theorem find?_of_getPeer {nodes : Peerstore} {id : Bytes} {i : Nat} (hfound : getPeer nodes id = some i) :
    nodes.find? (fun peer => peer.id == id) = nodes[i]? := by
  rw [getPeer] at hfound
  split at hfound
  · cases hfound
  · obtain ⟨hlt, hid, hbefore⟩ := List.findIdx?_eq_some_iff_getElem.mp hfound
    rw [List.getElem?_eq_getElem hlt, List.find?_eq_some_iff_getElem]
    exact ⟨hid, i, hlt, rfl, fun j hj => by simpa using hbefore j hj⟩

/-- The handler names the known providers, or has nobody to name. -/
theorem providersFor_eq (hsound : context.Sound announced) (key : Bytes) :
    providersFor lib context key =
      if lib.datastoreGet context.datastore key = false ∧ announcementOf context key = none ∧
          base58Strays key 100 = true then none
      else some ((knownProviders lib context key).map copyOut) := by
  obtain ⟨localPeer, hstore⟩ := hsound.peerStore
  rw [providersFor, knownProviders]
  by_cases hholds : lib.datastoreGet context.datastore key = true
  · obtain ⟨addresses, hlocal⟩ := hstore.getLocalPeer
    rw [if_pos hholds, if_pos hholds, if_neg fun h => by simp [hholds] at h, hlocal]
    rfl
  · have hmissing : lib.datastoreGet context.datastore key = false := by simpa using hholds
    rw [if_neg hholds, if_neg hholds, providerstoreGet, if_neg hholds, ← announcementOf]
    cases hentry : announcementOf context key with
    | none =>
        dsimp only [Option.map_none]
        by_cases hstrays : base58Strays key 100 = true
        · rw [if_pos hstrays, if_pos ⟨hmissing, rfl, hstrays⟩]
        · rw [if_neg hstrays, if_neg fun h => hstrays h.2.2]
          rfl
    | some entry =>
        rw [hsound.announcementOf_eq] at hentry
        have hmem := hsound.known entry (List.mem_of_find?_eq_some hentry)
        obtain ⟨first, hfirst, hid⟩ := List.mem_map.mp hmem
        have hne : entry.peerId ≠ [] := hid ▸ hstore.id_ne_nil first hfirst
        obtain ⟨i, peer, hfound, hat, hpeer⟩ := getPeer_of_mem hne hmem
        have hlength := hstore.id_lt peer (List.mem_of_getElem? hat)
        have hsome : ¬(lib.datastoreGet context.datastore key = false ∧ some entry = none ∧
            base58Strays key 100 = true) := fun h => nomatch h.2.1
        rw [if_neg hsome]
        dsimp only [Option.map_some]
        rw [hfound, find?_of_getPeer hfound]
        dsimp only
        rw [hat]
        simp [peerIdToString, hlength]

/-! ### One request -/

theorem addPeer_added {peerStore after : PeerEntries} {peer : GivenPeer} {added : Bool}
    (hid : peer.id ≠ [])
    (hadd : peerStore.addPeer lib.multiaddr peer = some (after, added)) : added = true := by
  cases hfound : getPeer peerStore.nodes peer.id with
  | some i =>
      rw [PeerEntries.addPeer_of_known hfound] at hadd
      exact (Prod.mk.inj (Option.some.inj hadd)).2.symm
  | none =>
      rw [PeerEntries.addPeer_of_new hid hfound] at hadd
      split at hadd
      · obtain ⟨_, -, hpair⟩ := Option.map_eq_some_iff.mp hadd
        exact (Prod.mk.inj hpair).2.symm
      · cases hadd

theorem addPeer_of_safe {peerStore : PeerEntries} {localPeer peer : GivenPeer}
    (hsound : peerStore.Sound localPeer) (hid : peer.id ≠ [])
    (hfits : getPeer peerStore.nodes peer.id = none → peer.id.length < stringRetvalSize) :
    ∃ after, peerStore.addPeer lib.multiaddr peer = some (after, true) ∧ after.Sound localPeer ∧
      PeerstoreCall.Grows peerStore after peer.id := by
  have hcall : PeerstoreCall.Fits (some peerStore) (.addPeer peer) := by
    rintro entries hentries _ hnew
    obtain rfl := Option.some.inj hentries
    exact ⟨hfits hnew, nofun⟩
  obtain ⟨after, happly, hafter, hgrows⟩ := PeerstoreCall.apply_of_fits lib.multiaddr hsound hcall
  obtain ⟨⟨after', added⟩, hadd, rfl⟩ := Option.map_eq_some_iff.mp happly
  exact ⟨after', by rw [hadd, addPeer_added hid hadd], hafter, hgrows⟩

theorem addPeer_of_not_fits {peerStore : PeerEntries} {peer : GivenPeer} (hid : peer.id ≠ [])
    (hfits : ¬(getPeer peerStore.nodes peer.id = none → peer.id.length < stringRetvalSize)) :
    peerStore.addPeer lib.multiaddr peer = none := by
  rw [Classical.not_imp] at hfits
  rw [PeerEntries.addPeer_of_new hid hfits.1, if_neg hfits.2]

theorem logProvider_isSome (message : DhtMessage) :
    (logProvider lib message).isSome ↔ (lib.watching → ∃ peer,
      message.providerPeers.head? = some peer ∧ peer.id.length < stringRetvalSize) := by
  unfold logProvider
  cases hwatching : lib.watching with
  | false => simp
  | true =>
      cases message.providerPeers with
      | nil => simp
      | cons peer peers =>
          by_cases hlength : peer.id.length < stringRetvalSize <;> simp [peerIdToString, hlength]

/-- What an announcement that is handled does. -/
theorem handleAddProvider_of_safe (hsound : context.Sound announced) {message : DhtMessage}
    (hlog : (logProvider lib message).isSome)
    (hsafe : ∀ peer, Announces lib message peer →
      (getPeer context.peerStore.nodes peer.id = none → peer.id.length < stringRetvalSize) ∧
      (context.providers.total < context.providers.capacity ∨
        context.providers.capacity * 2 < intBound) ∧
      Encodable lib message) :
    (∃ context', handleAddProvider lib context message = some (context', none) ∧
        context'.freed = context.freed ∧ context'.Sound announced) ∨
      ∃ context' reply peer peers, handleAddProvider lib context message = some (context', some reply) ∧
        reply.message = message ∧ message.providerPeers = peer :: peers ∧
        context'.freed = context.freed ∧
        context'.Sound (announced ++ [⟨message.keyBytes, peer.id⟩]) := by
  obtain ⟨localPeer, hstore⟩ := hsound.peerStore
  obtain ⟨_, hlog⟩ := Option.isSome_iff_exists.mp hlog
  rw [handleAddProvider, hlog, Option.bind_eq_bind, Option.bind_some]
  cases hpeers : message.providerPeers with
  | nil => exact .inl ⟨context, rfl, rfl, hsound⟩
  | cons peer peers =>
      dsimp only
      cases hip : (peer.addrItems.find? lib.isIp).join with
      | none => exact .inl ⟨context, rfl, rfl, hsound⟩
      | some address =>
          dsimp only
          by_cases hid : peer.id = []
          · refine .inl ⟨context, ?_, rfl, hsound⟩
            rw [PeerEntries.addPeer_of_nil hid]
            rfl
          · have hannounces : Announces lib message peer := by
              refine ⟨by rw [hpeers, List.head?_cons], by rw [hip, Option.isSome_some], hid⟩
            obtain ⟨hfits, hroom, hencodable⟩ := hsafe peer hannounces
            obtain ⟨after, hadd, hafter, hgrows⟩ := @addPeer_of_safe δ lib _ _ _ hstore hid hfits
            obtain ⟨reply, hreply⟩ := Option.isSome_iff_exists.mp hencodable
            have hgrow : context.providers.total < context.providers.capacity ∨
                true = true ∧ context.providers.capacity * 2 < intBound :=
              hroom.imp_right fun hgrow => ⟨rfl, hgrow⟩
            obtain ⟨hwellFormed, hcontents⟩ :=
              hsound.wellFormed.add hgrow (some ⟨message.keyBytes, peer.id⟩)
            refine .inr ⟨{ context with
              peerStore := after
              providers := context.providers.add (some ⟨message.keyBytes, peer.id⟩) true },
              reply, peer, peers, ?_, protobufMessage_message hreply, rfl, rfl, ?_⟩
            · rw [hadd]
              simp [providerstoreAdd, hroom, hreply]
            · refine ⟨⟨localPeer, hafter⟩, hwellFormed, ?_, fun entry hentry => ?_⟩
              · rw [hcontents, hsound.contents, List.map_append]
                rfl
              · rcases List.mem_append.mp hentry with hold | hnew
                · exact hgrows.keeps _ (hsound.known entry hold)
                · obtain rfl := List.mem_singleton.mp hnew
                  exact hgrows.holds hid

theorem handleAddProvider_of_not_safe {message : DhtMessage}
    (hnotSafe : ¬((logProvider lib message).isSome ∧ ∀ peer, Announces lib message peer →
      (getPeer context.peerStore.nodes peer.id = none → peer.id.length < stringRetvalSize) ∧
      (context.providers.total < context.providers.capacity ∨
        context.providers.capacity * 2 < intBound) ∧
      Encodable lib message)) :
    handleAddProvider lib context message = none := by
  rw [handleAddProvider, Option.bind_eq_bind]
  cases hlog : logProvider lib message with
  | none => rfl
  | some _ =>
      rw [hlog, Option.isSome_some, and_iff_right rfl] at hnotSafe
      push Not at hnotSafe
      obtain ⟨peer, ⟨hhead, hip, hid⟩, hcase⟩ := hnotSafe
      obtain ⟨peers, hpeers⟩ := List.head?_eq_some_iff.mp hhead
      obtain ⟨address, hip⟩ := Option.isSome_iff_exists.mp hip
      rw [Option.bind_some, hpeers]
      dsimp only
      rw [hip]
      dsimp only
      by_cases hfits : getPeer context.peerStore.nodes peer.id = none → peer.id.length < stringRetvalSize
      · cases hadd : context.peerStore.addPeer lib.multiaddr peer with
        | none => rfl
        | some result =>
            obtain ⟨after, added⟩ := result
            obtain rfl : added = true := addPeer_added hid hadd
            by_cases hroom : context.providers.total < context.providers.capacity ∨
                context.providers.capacity * 2 < intBound
            · have hnone : protobufMessage lib message = none := by
                simpa [Encodable] using hcase hfits hroom
              simp [providerstoreAdd, hroom, hnone]
            · simp [providerstoreAdd, hroom]
      · rw [addPeer_of_not_fits hid hfits]
        rfl

/-- What a request announces, given its reply. -/
def announcement (message : DhtMessage) (reply : Option Reply) : List ProviderEntry :=
  match message.messageType, message.providerPeers, reply with
  | .addProvider, peer :: _, some _ => [⟨message.keyBytes, peer.id⟩]
  | _, _, _ => []

theorem announcement_of_ne {message : DhtMessage} (htype : message.messageType ≠ .addProvider)
    (reply : Option Reply) : announcement message reply = [] := by
  unfold announcement
  split
  · rename_i hadd _
    exact absurd hadd htype
  · rfl

theorem announcement_none (message : DhtMessage) : announcement message none = [] := by
  unfold announcement
  split
  · rename_i hreply
    cases hreply
  · rfl

/-- A handler that stays within its memory leaves a sound state, a message whose closer peers are known
and, if it was asked for providers, the answer. -/
structure Handled (lib : DhtLibrary δ) (announced : List ProviderEntry) (context : DhtContext δ)
    (message : DhtMessage) (context' : DhtContext δ) (reply : Option Reply) : Prop where
  handle : handleRequest lib context message = some (context', reply)
  freed : context'.freed = context.freed
  closers : ((reply.map Reply.message).getD message).closerPeers = closersFreed lib context message
  sound : context'.Sound (announced ++ announcement message reply)
  answer : message.messageType = .getProviders → ∃ answer, reply = some answer ∧
    protobufMessage lib (answerMessage lib context message) = some answer

/-- A handler that answers with the message, filled in. -/
theorem Handled.of_filled (hsound : context.Sound announced) {message filled : DhtMessage}
    (htype : message.messageType ≠ .addProvider)
    (hhandle : handleRequest lib context message =
      (protobufMessage lib filled).map fun reply => (context, some reply))
    (hencodable : Encodable lib filled) (hclosers : filled.closerPeers = closersFreed lib context message)
    (hanswer : message.messageType = .getProviders → filled = answerMessage lib context message) :
    ∃ context' reply, Handled lib announced context message context' reply := by
  obtain ⟨reply, hreply⟩ := Option.isSome_iff_exists.mp hencodable
  refine ⟨context, some reply, ?_, rfl, ?_, ?_, fun hget => ⟨reply, rfl, ?_⟩⟩
  · rw [hhandle, hreply, Option.map_some]
  · rw [Option.map_some, Option.getD_some, protobufMessage_message hreply, hclosers]
  · rwa [announcement_of_ne htype, List.append_nil]
  · rw [← hanswer hget, hreply]

/-- A handler that does not answer. -/
theorem Handled.of_silent {context' : DhtContext δ} (hsound : context'.Sound announced)
    {message : DhtMessage} (htype : message.messageType ≠ .getProviders)
    (hhandle : handleRequest lib context message = some (context', none))
    (hfreed : context'.freed = context.freed)
    (hclosers : message.closerPeers = closersFreed lib context message) :
    ∃ context' reply, Handled lib announced context message context' reply := by
  refine ⟨context', none, hhandle, hfreed, hclosers, ?_, fun hget => absurd hget htype⟩
  rwa [announcement_none, List.append_nil]

theorem handleRequest_of_safe (hsound : context.Sound announced) {message : DhtMessage}
    (hsafe : HandlerSafe lib context message) :
    ∃ context' reply, Handled lib announced context message context' reply := by
  cases htype : message.messageType with
  | putValue =>
      have hsound' : (handlePutValue lib context message).Sound announced := by
        unfold handlePutValue
        split
        · exact hsound
        · exact ⟨hsound.peerStore, hsound.wellFormed, hsound.contents, hsound.known⟩
      refine Handled.of_silent hsound' (by simp [htype]) (by rw [handleRequest, htype]) ?_ ?_
      · unfold handlePutValue
        split <;> rfl
      · simp [closersFreed, htype]
  | getValue =>
      simp only [HandlerSafe, htype] at hsafe
      cases hdata : lib.nodeGet message.keyBytes with
      | none =>
          rw [hdata] at hsafe
          dsimp only at hsafe
          refine Handled.of_silent hsound (by simp [htype]) ?_ rfl ?_
          · simp [handleRequest, htype, handleGetValue, hdata, hsafe]
          · simp [closersFreed, htype]
      | some data =>
          rw [hdata] at hsafe
          refine Handled.of_filled hsound (by simp [htype]) ?_ hsafe ?_ fun hget => by simp [htype] at hget
          · simp only [handleRequest, htype, handleGetValue, hdata]
            rw [Option.map_map]
            rfl
          · simp [closersFreed, htype, fillRecord]
  | addProvider =>
      simp only [HandlerSafe, htype] at hsafe
      rcases handleAddProvider_of_safe hsound ((logProvider_isSome message).mpr hsafe.1) hsafe.2 with
        ⟨context', hhandle, hfreed, hsound'⟩ |
        ⟨context', reply, peer, peers, hhandle, hmessage, hpeers, hfreed, hsound'⟩
      · refine Handled.of_silent hsound' (by simp [htype]) ?_ hfreed ?_
        · simp [handleRequest, htype, hhandle]
        · simp [closersFreed, htype]
      · refine ⟨context', some reply, ?_, hfreed, ?_, ?_, fun hget => by simp [htype] at hget⟩
        · simp [handleRequest, htype, hhandle]
        · simp [closersFreed, htype, hmessage]
        · simpa [announcement, htype, hpeers] using hsound'
  | getProviders =>
      simp only [HandlerSafe, htype] at hsafe
      obtain ⟨hstrays, hencodable⟩ := hsafe
      have hproviders : providersFor lib context message.keyBytes = _ :=
        providersFor_eq hsound message.keyBytes
      rw [if_neg fun h => by rw [hstrays h.1 h.2.1] at h; exact Bool.false_ne_true h.2.2] at hproviders
      refine Handled.of_filled hsound (by simp [htype]) ?_ hencodable ?_ fun _ => rfl
      · simp only [handleRequest, htype]
        rw [handleGetProviders, hproviders, Option.bind_eq_bind, Option.bind_some]
        rfl
      · simp [closersFreed, htype]
  | findNode =>
      simp only [HandlerSafe, htype] at hsafe
      refine Handled.of_filled hsound (by simp [htype]) ?_ hsafe ?_ fun hget => by simp [htype] at hget
      · simp only [handleRequest, htype, handleFindNode]
      · simp [closersFreed, htype]
  | ping =>
      simp only [HandlerSafe, htype] at hsafe
      refine Handled.of_filled hsound (by simp [htype]) ?_ hsafe ?_ fun hget => by simp [htype] at hget
      · simp only [handleRequest, htype]
      · simp [closersFreed, htype]

theorem handleRequest_of_not_safe (hsound : context.Sound announced) {message : DhtMessage}
    (hnotSafe : ¬HandlerSafe lib context message) : handleRequest lib context message = none := by
  cases htype : message.messageType with
  | putValue => exact absurd (by simp [HandlerSafe, htype]) hnotSafe
  | getValue =>
      simp only [HandlerSafe, htype] at hnotSafe
      simp only [handleRequest, htype, handleGetValue]
      cases hdata : lib.nodeGet message.keyBytes with
      | none =>
          rw [hdata] at hnotSafe
          simpa using hnotSafe
      | some data =>
          rw [hdata] at hnotSafe
          simpa [Encodable] using hnotSafe
  | addProvider =>
      simp only [HandlerSafe, htype] at hnotSafe
      rw [← logProvider_isSome] at hnotSafe
      simp only [handleRequest, htype]
      exact handleAddProvider_of_not_safe hnotSafe
  | getProviders =>
      simp only [HandlerSafe, htype] at hnotSafe
      simp only [handleRequest, htype, Option.map_eq_none_iff]
      rw [handleGetProviders, providersFor_eq hsound]
      split
      · rfl
      · rename_i hstrays
        rw [Option.bind_eq_bind, Option.bind_some, ← answerMessage]
        have hencodable : ¬Encodable lib (answerMessage lib context message) := by
          intro hencodable
          refine hnotSafe ⟨fun hmissing hnone => ?_, hencodable⟩
          by_contra hstray
          exact hstrays ⟨hmissing, hnone, by simpa using hstray⟩
        simpa [Encodable] using hencodable
  | findNode =>
      simp only [HandlerSafe, htype] at hnotSafe
      simpa [handleRequest, htype, handleFindNode, Encodable] using hnotSafe
  | ping =>
      simp only [HandlerSafe, htype] at hnotSafe
      simpa [handleRequest, htype, Encodable] using hnotSafe

theorem handleMessage_eq {message : DhtMessage} {context' : DhtContext δ} {reply : Option Reply}
    (hhandled : Handled lib announced context message context' reply) :
    handleMessage lib context message =
      (freeSessions context.freed
        ((closersFreed lib context message).filterMap GivenPeer.sessionContext)).map
        fun freed => ({ context' with freed }, reply) := by
  rw [handleMessage, hhandled.handle]
  simp only [Option.bind_eq_bind, Option.bind_some]
  rw [hhandled.closers, hhandled.freed]
  cases freeSessions context.freed
    ((closersFreed lib context message).filterMap GivenPeer.sessionContext) <;> rfl

theorem handleMessage_of_safe (hsound : context.Sound announced) {message : DhtMessage}
    (hsafe : RequestSafe lib context message) :
    ∃ context' reply, handleMessage lib context message = some (context', reply) ∧
      context'.Sound (announced ++ announcement message reply) ∧
      (message.messageType = .getProviders → ∃ answer, reply = some answer ∧
        protobufMessage lib (answerMessage lib context message) = some answer) := by
  obtain ⟨context', reply, hhandled⟩ := handleRequest_of_safe hsound hsafe.1
  obtain ⟨freed, hfreed⟩ := Option.isSome_iff_exists.mp (freeSessions_isSome.mpr hsafe.2)
  have hsound' := hhandled.sound
  refine ⟨{ context' with freed }, reply, ?_, ?_, hhandled.answer⟩
  · rw [handleMessage_eq hhandled, hfreed, Option.map_some]
  · exact ⟨hsound'.peerStore, hsound'.wellFormed, hsound'.contents, hsound'.known⟩

theorem handleMessage_of_not_safe (hsound : context.Sound announced) {message : DhtMessage}
    (hnotSafe : ¬RequestSafe lib context message) : handleMessage lib context message = none := by
  by_cases hsafe : HandlerSafe lib context message
  · obtain ⟨context', reply, hhandled⟩ := handleRequest_of_safe hsound hsafe
    have hnone : freeSessions context.freed
        ((closersFreed lib context message).filterMap GivenPeer.sessionContext) = none := by
      rw [← Option.not_isSome_iff_eq_none, freeSessions_isSome]
      exact fun hlive => hnotSafe ⟨hsafe, hlive⟩
    rw [handleMessage_eq hhandled, hnone, Option.map_none]
  · rw [handleMessage, handleRequest_of_not_safe hsound hsafe]
    rfl

/-! ### A run -/

/-- The request is safe in the state there is. -/
def SafeIn (lib : DhtLibrary δ) (state : Option (DhtContext δ)) (request : DhtMessage) : Prop :=
  ∀ context, state = some context → RequestSafe lib context request

/-- The state after a request, if there still is one. -/
def afterRequest (lib : DhtLibrary δ) : Option (DhtContext δ) → DhtMessage → Option (DhtContext δ)
  | none, _ => none
  | some context, message => (handleMessage lib context message).map Prod.fst

/-- The announcements of a run: the `ADD_PROVIDER` requests that succeed. -/
def announces (lib : DhtLibrary δ) : Option (DhtContext δ) → DhtMessage → List ProviderEntry
  | none, _ => []
  | some context, message =>
      match handleMessage lib context message with
      | some (_, reply) => announcement message reply
      | none => []

/-- The answer names the local peer if the datastore holds the key, and otherwise this peer with the
addresses that the peerstore has for it. -/
structure Answers (lib : DhtLibrary δ) (context : DhtContext δ) (key peerId : Bytes) (reply : Reply) :
    Prop where
  encoded : protobufMessage lib reply.message = some reply
  held : lib.datastoreGet context.datastore key = true → ∃ localPeer,
    context.peerStore.getLocalPeer = some localPeer ∧ reply.message.providerPeers = [copyOut localPeer]
  provided : lib.datastoreGet context.datastore key = false → ∃ i peer,
    getPeer context.peerStore.nodes peerId = some i ∧ context.peerStore.nodes[i]? = some peer ∧
    peer.id = peerId ∧ reply.message.providerPeers = [copyOut peer]

theorem answers_of_announced (hsound : context.Sound announced) {message : DhtMessage}
    {first : ProviderEntry}
    (hfirst : announced.find? (fun entry => entry.hash == message.keyBytes) = some first) {reply : Reply}
    (hreply : protobufMessage lib (answerMessage lib context message) = some reply) :
    Answers lib context message.keyBytes first.peerId reply := by
  have hmessage := protobufMessage_message hreply
  have hproviders : reply.message.providerPeers =
      (knownProviders lib context message.keyBytes).map copyOut := by
    rw [hmessage]
    rfl
  obtain ⟨localPeer, hstore⟩ := hsound.peerStore
  refine ⟨by rw [hmessage, hreply], fun hholds => ?_, fun hmissing => ?_⟩
  · obtain ⟨addresses, hlocal⟩ := hstore.getLocalPeer
    refine ⟨_, hlocal, ?_⟩
    rw [hproviders, knownProviders, if_pos hholds, hlocal]
    rfl
  · have hmem := hsound.known first (List.mem_of_find?_eq_some hfirst)
    obtain ⟨other, hother, hid⟩ := List.mem_map.mp hmem
    have hne : first.peerId ≠ [] := hid ▸ hstore.id_ne_nil other hother
    obtain ⟨i, peer, hfound, hat, hpeer⟩ := getPeer_of_mem hne hmem
    refine ⟨i, peer, hfound, hat, hpeer, ?_⟩
    rw [hproviders, knownProviders, if_neg (by simp [hmissing]), hsound.announcementOf_eq, hfirst]
    dsimp only
    rw [find?_of_getPeer hfound, hat]
    rfl

/-- No request of the run leaves the memory it may use, and every `GET_PROVIDERS` for a key that was
announced before gets its answer, which names the peer of the first announcement. -/
def ProvidersAnswered (lib : DhtLibrary δ) (context : DhtContext δ) (requests : List DhtMessage) : Prop :=
  (∀ reached, reached <+: requests →
    ∃ context', run (afterRequest lib) (some context) reached = some context') ∧
  ∀ reached request, reached ++ [request] <+: requests → request.messageType = .getProviders →
    ∀ first, (outputs (afterRequest lib) (announces lib) (some context) reached).find?
        (fun entry => entry.hash == request.keyBytes) = some first →
      ∃ context' context'' reply, run (afterRequest lib) (some context) reached = some context' ∧
        handleMessage lib context' request = some (context'', some reply) ∧
        Answers lib context' request.keyBytes first.peerId reply

theorem run_of_safe (hsound : context.Sound announced) {requests : List DhtMessage}
    (hsafe : Along (afterRequest lib) (SafeIn lib) (some context) requests) :
    ∃ context', run (afterRequest lib) (some context) requests = some context' ∧
      context'.Sound (announced ++
        outputs (afterRequest lib) (announces lib) (some context) requests) := by
  induction requests generalizing context announced with
  | nil => exact ⟨context, rfl, by simpa [outputs] using hsound⟩
  | cons request requests ih =>
      obtain ⟨hrequest, hrest⟩ := hsafe
      obtain ⟨next, reply, hhandle, hnext, -⟩ := handleMessage_of_safe hsound (hrequest context rfl)
      have hafter : afterRequest lib (some context) request = some next := by
        rw [afterRequest, hhandle, Option.map_some]
      have hannounces : announces lib (some context) request = announcement request reply := by
        rw [announces, hhandle]
      rw [hafter] at hrest
      obtain ⟨last, hlast, hlastSound⟩ := ih hnext hrest
      refine ⟨last, by rw [run_cons, hafter, hlast], ?_⟩
      rwa [outputs, hannounces, hafter, ← List.append_assoc]

def SoundState (state : Option (DhtContext δ)) : Prop :=
  ∃ context announced, state = some context ∧ context.Sound announced

theorem providersAnswered_iff (lib : DhtLibrary δ) {context : DhtContext δ} {localPeer : GivenPeer}
    (hstore : context.peerStore.Sound localPeer) (hnew : context.providers = .new ProviderEntry 4)
    (requests : List DhtMessage) :
    ProvidersAnswered lib context requests ↔
      Along (afterRequest lib) (SafeIn lib) (some context) requests := by
  have hsound : context.Sound [] := by
    refine ⟨⟨localPeer, hstore⟩, ?_, ?_, by simp⟩
    · rw [hnew]
      exact Libp2pVector.new_wellFormed (by decide)
    · rw [hnew]
      rfl
  constructor
  · rintro ⟨hdefined, -⟩
    have hgood : ∀ state : Option (DhtContext δ), SoundState state → ∃ context', state = some context' := by
      rintro _ ⟨context', announced, rfl, -⟩
      exact ⟨context', rfl⟩
    refine (along_iff_good (afterRequest lib) hgood ?_ ?_ ⟨context, [], rfl, hsound⟩).mp hdefined
    · rintro _ request ⟨context', announced, rfl, hsound'⟩ hsafe
      obtain ⟨next, reply, hhandle, hnext, -⟩ := handleMessage_of_safe hsound' (hsafe context' rfl)
      exact ⟨next, _, by rw [afterRequest, hhandle, Option.map_some], hnext⟩
    · rintro _ request ⟨context', announced, rfl, hsound'⟩ hnotSafe ⟨next, hnext⟩
      refine hnotSafe fun _ hsame => ?_
      obtain rfl := Option.some.inj hsame
      by_contra hrequest
      rw [afterRequest, handleMessage_of_not_safe hsound' hrequest] at hnext
      cases hnext
  · intro hsafe
    constructor
    · rintro reached ⟨rest, rfl⟩
      obtain ⟨context', hrun, -⟩ := run_of_safe hsound (along_append.mp hsafe).1
      exact ⟨context', hrun⟩
    · rintro reached request ⟨rest, rfl⟩ hget first hfirst
      have hfront := along_append.mp (along_append.mp hsafe).1
      obtain ⟨context', hrun, hsound'⟩ := run_of_safe hsound hfront.1
      obtain ⟨context'', reply, hhandle, -, hanswer⟩ :=
        handleMessage_of_safe hsound' (hfront.2.1 context' hrun)
      obtain ⟨answer, rfl, hreply⟩ := hanswer hget
      exact ⟨context', context'', answer, hrun, hhandle, answers_of_announced hsound' hfirst hreply⟩

/-! ### Two runs -/

/-- A library that takes every address for one of IP, over a datastore that holds nothing. -/
def emptyDatastore : DhtLibrary Unit where
  multiaddr := Peer.plainAddresses
  isIp := Option.isSome
  sha256 := fun data => data ++ List.replicate 32 0
  fields := .varints
  bytes := ⟨id, some⟩
  datastoreGet := fun _ _ => false
  datastorePut := fun _ _ _ => ()
  nodeGet := fun _ => none
  watching := false

def requestFor (messageType : MessageType) (key : Bytes) (providers : List GivenPeer) : DhtMessage :=
  ⟨messageType, some key, none, [], providers, 0⟩

def provider (id : Bytes) : GivenPeer := { GivenPeer.ofId id with addrItems := [some [4, 1]] }

def localOnly : DhtContext Unit :=
  ⟨⟨[peerCopy (.ofId [65])], some 0⟩, .new ProviderEntry 4, [65], (), []⟩

def twoKeys : List DhtMessage :=
  [requestFor .addProvider [1] [provider [66]], requestFor .addProvider [2] [provider [67]],
    requestFor .getProviders [1] []]

theorem providersAnswered_iff_twoKeys :
    ProvidersAnswered emptyDatastore localOnly twoKeys ↔
      Along (afterRequest emptyDatastore) (SafeIn emptyDatastore) (some localOnly) twoKeys :=
  providersAnswered_iff emptyDatastore (PeerEntries.sound_new (by decide) (by decide)) rfl twoKeys

/-- The local peer and a provider that is connected, by the session 7. -/
def connected : DhtContext Unit :=
  ⟨⟨[peerCopy (.ofId [65]), ⟨[66], [[4, 1]], .connected, some 7, false⟩], some 1⟩,
    .new ProviderEntry 4, [65], (), []⟩

def askedTwice : List DhtMessage :=
  [requestFor .addProvider [1] [provider [66]], requestFor .getProviders [1] [],
    requestFor .getProviders [1] []]

/-- The first answer frees the session of the provider and the second one frees it again. -/
theorem not_providersAnswered_askedTwice :
    ¬ProvidersAnswered emptyDatastore connected askedTwice := by
  rintro ⟨hdefined, -⟩
  obtain ⟨last, hrun⟩ := hdefined _ (List.prefix_refl _)
  have hnone : (run (afterRequest emptyDatastore) (some connected) askedTwice).isNone = true := by
    decide
  rw [hrun] at hnone
  cases hnone

end CLibp2p.Routing
