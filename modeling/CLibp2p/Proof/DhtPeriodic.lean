import CLibp2p.Proof.DhtSearch
import CLibp2p.Proof.DhtStorage
import CLibp2p.Routing.Dht.Periodic

/-!
# Every call comes back

What holds of the tables, the searches and the store holds again after each call of a function that users
have. In particular `new_node` comes back wherever it is called.
-/

namespace CLibp2p.Routing.Dht

open Duplex Machine

namespace Globals

structure Ok (s : Globals) : Prop where
  tables : s.toTables.Ok
  lookups : s.lookups.Ok s.myid
  store : s.store.Ok

/-- Something happened that is not about the store, the secrets, the rate limit or expiry. -/
structure Moves (s s' : Globals) : Prop where
  ok : s'.Ok
  now : s'.now = s.now
  sends : Sends s.toOutbound s'.toOutbound
  store : s'.store = s.store
  secrets : s'.secrets = s.secrets
  limit : s'.rateLimit = s.rateLimit
  timer : s'.expireStuffTime = s.expireStuffTime

variable {s s' s'' : Globals} {r : Tables} {o : Outbound} {id : Hash} {sa : SockAddr} {i : Nat}

theorem Moves.refl (hok : s.Ok) : Moves s s := ⟨hok, rfl, Sends.refl _, rfl, rfl, rfl, rfl⟩

theorem Moves.trans (h : Moves s s') (h' : Moves s' s'') : Moves s s'' :=
  ⟨h'.ok, h'.now.trans h.now, h.sends.trans h'.sends, h'.store.trans h.store, h'.secrets.trans h.secrets,
    h'.limit.trans h.limit, h'.timer.trans h.timer⟩

theorem Moves.myid (h : Moves s s') : s'.myid = s.myid := h.sends.myid

theorem Ok.lookups_of_follows (hok : s.Ok) (h : s.toTables.Follows r) : s.lookups.Ok r.myid := by
  rw [h.myid]
  exact hok.lookups

theorem moves_withTables (hok : s.Ok) (h : s.toTables.Follows r) : Moves s (s.withTables r) :=
  ⟨⟨h.ok, hok.lookups_of_follows h, hok.store⟩, h.now, h.sends, rfl, rfl, rfl, h.timer⟩

theorem moves_withOutbound (hok : s.Ok) (h : Sends s.toOutbound o) : Moves s (s.withOutbound o) :=
  moves_withTables hok (Tables.follows_sends hok.tables h)

theorem moves_lookups (hok : s.Ok) {lookups : Searches} (hlookups : lookups.Ok s.myid) :
    Moves s { s with lookups := lookups } := ⟨⟨hok.tables, hlookups, hok.store⟩, rfl, Sends.refl _, rfl, rfl, rfl, rfl⟩

theorem follows_of_done {r r' : Tables} {af : Family} {node : Option Node} (h : Tables.Done r r' af id node) :
    r.Follows r' := ⟨h.ok, h.within.now, h.within.sends, h.within.timer⟩

theorem moves_newNode (hok : s.Ok) (id : Hash) (sa : SockAddr) (confirm : Nat) :
    ∃ s', s.newNode id sa confirm = some s' ∧ Moves s s' := by
  obtain ⟨r, node, hnew, hdone⟩ := Tables.newNode_done hok.tables id sa confirm
  refine ⟨s.withTables r, ?_, moves_withTables hok (follows_of_done hdone)⟩
  rw [newNode, hnew, Option.map_some]

/-! ### Replies -/

theorem moves_modifySearch (hok : s.Ok) (i : Nat) {f : Search → Search}
    (hf : ∀ sr, SearchOk s.myid sr → SearchOk s.myid (f sr) ∧ sr.Kin (f sr)) : Moves s (s.modifySearch i f) := by
  rw [modifySearch]
  split
  · exact Moves.refl hok
  · rename_i sr hget
    obtain ⟨hsr, hkin⟩ := hf sr (hok.lookups.searches sr (List.mem_of_getElem? hget))
    exact moves_lookups hok (hok.lookups.set hget hkin hsr)

theorem moves_pushRequest (hok : s.Ok) (i : Nat) : Moves s (s.pushRequest i) := by
  rw [pushRequest]
  split
  · exact Moves.refl hok
  · rename_i sr hget
    have hstep := Search.stepped_sendGetPeers (hok.lookups.searches sr (List.mem_of_getElem? hget)) hok.tables
    have htables := moves_withTables hok hstep.follows
    apply htables.trans (moves_lookups htables.ok _)
    rw [htables.myid]
    exact hok.lookups.set hget hstep.kin hstep.ok

theorem moves_addNodes (hok : s.Ok) (sr : Option Nat) (nodes : List NodeInfo) :
    ∃ s', addNodes sr nodes s = some s' ∧ Moves s s' := by
  induction nodes generalizing s with
  | nil => exact ⟨s, rfl, Moves.refl hok⟩
  | cons ni nodes ih =>
      rw [addNodes]
      split
      · exact ih hok
      · rename_i hother
        obtain ⟨s₁, hnew, hmoves⟩ := moves_newNode hok ni.id ni.ss 0
        rw [hnew]
        cases sr with
        | none =>
            obtain ⟨s₂, hadd, hmoves'⟩ := ih hmoves.ok
            exact ⟨s₂, hadd, hmoves.trans hmoves'⟩
        | some i =>
            have hid : ni.id ≠ s₁.myid := by
              rw [hmoves.myid]
              exact mt idCmp_eq_iff.mpr hother
            have hmodify : Moves s₁ (s₁.modifySearch i fun sr => sr.insertSearchNode s₁.now ni.id ni.ss false none) :=
              moves_modifySearch hmoves.ok i fun sr hsr => Search.ok_insertSearchNode hsr hid _ _ _ _
            obtain ⟨s₂, hadd, hmoves'⟩ := ih hmodify.ok
            exact ⟨s₂, hadd, (hmoves.trans hmodify).trans hmoves'⟩

theorem moves_replied (hok : s.Ok) {m : Message} (hother : m.id ≠ s.myid) (sr : Option Nat) (sender : SockAddr)
    (callback : Bool) : Moves s (s.replied sr sender m callback) := by
  unfold replied
  split
  · exact Moves.refl hok
  · split
    · exact Moves.refl hok
    · rename_i i _ sr hget
      obtain ⟨hsr, hkin⟩ := Search.ok_insertSearchNode (hok.lookups.searches sr (List.mem_of_getElem? hget)) hother
        s.now sender true (some m.token)
      have hput : Moves s (s.putSearch i (sr.insertSearchNode s.now m.id sender true (some m.token))) :=
        moves_lookups hok (hok.lookups.set hget hkin hsr)
      dsimp only
      split
      · exact ⟨⟨hput.ok.tables, hput.ok.lookups, hput.ok.store⟩, hput.now, hput.sends, hput.store, hput.secrets,
          hput.limit, hput.timer⟩
      · exact hput

theorem ok_acknowledge {myid : Hash} {sr : Search} (hsr : SearchOk myid sr) (now : Int) (id : Hash) :
    SearchOk myid (acknowledge now id sr) ∧ sr.Kin (acknowledge now id sr) := by
  rw [acknowledge]
  split
  · exact ⟨hsr, Search.Kin.refl sr⟩
  · refine ⟨Search.ok_withNodes hsr (map_modify_of_eq ?_ _ _) fun n hn => ?_, rfl, rfl⟩
    · exact fun _ => rfl
    rcases mem_modify hn with hold | ⟨old, hold, rfl⟩
    · exact hsr.nodes n hold
    · have hn' : SearchNodeOk myid sr.af old := hsr.nodes old hold
      exact ⟨hn'.other, hn'.family, hn'.token, Nat.zero_le 3⟩

theorem follows_spoil {r : Tables} (hr : r.Ok) (id : Hash) (af : Family) : r.Follows (spoil r id af) := by
  rw [spoil]
  split
  · exact Tables.Follows.refl hr
  · rename_i c i hfind
    obtain ⟨lo, hi, hat, -⟩ := Tables.findNode_some hr hfind
    have hb : BucketOk r.myid af (c.here.modifyNode i fun n => { n with pinged := 3 }) lo hi :=
      hat.here.modifyNode (f := fun n => { n with pinged := 3 }) (fun _ => rfl)
        (fun n hn => ⟨hn.other, hn.family, hn.reach⟩) i
    have hput := Tables.follows_put hr hat hb
    exact hput.trans (Tables.follows_pinged hput.ok (hat.put hb) i false)

/-- Messages went out, and in between this address was blacklisted. -/
inductive Talks : Option SockAddr → Outbound → Outbound → Prop
  | sends {o o' : Outbound} (h : Sends o o') : Talks none o o'
  | blacklists {o o₁ o' : Outbound} (sa : SockAddr) (h : Sends o o₁) (h' : Sends (o₁.blacklistAddress sa) o') :
      Talks (some sa) o o'

variable {ban : Option SockAddr}

theorem Talks.sends_trans {o o' o'' : Outbound} (h : Talks ban o o') (h' : Sends o' o'') : Talks ban o o'' := by
  cases h with
  | sends h => exact Talks.sends (h.trans h')
  | blacklists sa h₁ h₂ => exact Talks.blacklists sa h₁ (h₂.trans h')

theorem Talks.myid {o o' : Outbound} (h : Talks ban o o') : o'.myid = o.myid := by
  cases h with
  | sends h => exact h.myid
  | blacklists sa h₁ h₂ => exact h₂.myid.trans h₁.myid

variable {sha256 : Bytes → Bytes}

/-- What a reply is blacklisted for: a transaction id of another length, or nodes that are cut off. -/
def badReply (m : Message) : Bool :=
  m.tid.length ≠ 4 ||
    !tidMatch m.tid "pn" && (tidMatch m.tid "fn" || tidMatch m.tid "gp") &&
      (m.nodes.length % 26 ≠ 0 || m.nodes6.length % 38 ≠ 0)

/-- Who is blacklisted for a message. -/
def blamed (sender : SockAddr) (type : MessageType) (m : Message) : Option SockAddr :=
  if type = .reply ∧ badReply m then some sender else none

/-- What a message announces to the store, if it brings a token that was made for its sender. -/
def admitted (sha256 : Bytes → Bytes) (s : Globals) (sender : SockAddr) (type : MessageType) (m : Message) :
    Option StoreOp :=
  if type = .announcePeer ∧ m.infoHash ≠ zeroes ∧ tokenMatch sha256 s.secrets m.token sender ∧ m.port ≠ 0 then
    some (.announce s.now m.infoHash sender m.port)
  else none

/-- What a message that was read does. -/
structure Handled (sha256 : Bytes → Bytes) (sender : SockAddr) (type : MessageType) (m : Message)
    (s s' : Globals) : Prop where
  ok : s'.Ok
  now : s'.now = s.now
  talks : Talks (blamed sender type m) s.toOutbound s'.toOutbound
  store : s'.store = run Store.apply s.store (admitted sha256 s sender type m).toList
  secrets : s'.secrets = s.secrets
  limit : s'.rateLimit = s.rateLimit
  timer : s'.expireStuffTime = s.expireStuffTime

variable {sender : SockAddr} {type : MessageType} {m : Message} {callback : Bool}

theorem Moves.handled (h : Moves s s') (hblamed : blamed sender type m = none)
    (hadmitted : admitted sha256 s sender type m = none) : Handled sha256 sender type m s s' := by
  refine ⟨h.ok, h.now, ?_, ?_, h.secrets, h.limit, h.timer⟩
  · rw [hblamed]
    exact Talks.sends h.sends
  · rw [hadmitted]
    exact h.store

theorem Handled.moves (h : Handled sha256 sender type m s s') (h' : Moves s' s'') :
    Handled sha256 sender type m s s'' :=
  ⟨h'.ok, h'.now.trans h.now, h.talks.sends_trans h'.sends, h'.store.trans h.store, h'.secrets.trans h.secrets,
    h'.limit.trans h.limit, h'.timer.trans h.timer⟩

theorem blamed_reply (hgood : badReply m = false) : blamed sender .reply m = none := by
  rw [blamed, hgood, if_neg (fun h => Bool.false_ne_true h.2)]

theorem blamed_request (hrequest : type ≠ .reply) : blamed sender type m = none := if_neg fun h => hrequest h.1

theorem admitted_other (hother : type ≠ .announcePeer) : admitted sha256 s sender type m = none :=
  if_neg fun h => hother h.1

/-- A reply that nobody is blacklisted for. -/
theorem Moves.reply (h : Moves s s') (hgood : badReply m = false) : Handled sha256 sender .reply m s s' :=
  h.handled (blamed_reply hgood) (admitted_other (by decide))

theorem handled_blacklistNode (hok : s.Ok) (hbad : badReply m = true) :
    Handled sha256 sender .reply m s (s.blacklistNode m.id sender) := by
  have hspoil := follows_spoil hok.tables m.id sender.family
  have hlookups : Searches.Ok s.myid
      { s.lookups with searches := s.lookups.searches.map (Search.discard m.id 0) } :=
    hok.lookups.map fun sr hsr => Search.ok_discard hsr m.id 0
  have hblacklisted : Tables.Ok
      { spoil s.toTables m.id sender.family with
        toOutbound := (spoil s.toTables m.id sender.family).toOutbound.blacklistAddress sender } :=
    hspoil.ok.congr (fun af => Tables.table_toOutbound _ _ af) rfl
  have hadmitted : admitted sha256 s sender .reply m = none := admitted_other (by decide)
  refine ⟨⟨hblacklisted, ?_, hok.store⟩, hspoil.now, ?_, ?_, rfl, rfl, hspoil.timer⟩
  · show Searches.Ok (spoil s.toTables m.id sender.family).myid _
    rw [hspoil.myid]
    exact hlookups
  · rw [blamed, if_pos ⟨rfl, hbad⟩]
    exact Talks.blacklists sender hspoil.sends (Sends.refl _)
  · rw [hadmitted]
    rfl

theorem handled_onNodes (hok : s.Ok) (hother : m.id ≠ s.myid)
    (hbad : badReply m = (decide (m.nodes.length % 26 ≠ 0) || decide (m.nodes6.length % 38 ≠ 0))) (callback : Bool) :
    ∃ s', s.onNodes sender m callback = some s' ∧ Handled sha256 sender .reply m s s' := by
  rw [onNodes]
  dsimp only
  generalize (if tidMatch m.tid "gp" = true then s.lookups.findSearch (tidSeqno m.tid) sender.family
    else none) = sr
  split
  · rename_i hcut
    have hblack : Handled sha256 sender .reply m s (s.blacklistNode m.id sender) :=
      handled_blacklistNode hok (by rwa [hbad, Bool.or_eq_true, decide_eq_true_iff, decide_eq_true_iff])
    refine ⟨_, rfl, hblack.moves (moves_replied hblack.ok ?_ _ sender callback)⟩
    rw [hblack.talks.myid]
    exact hother
  · rename_i hwhole
    have hgood : badReply m = false := by
      rwa [hbad, ← Bool.not_eq_true, Bool.or_eq_true, decide_eq_true_iff, decide_eq_true_iff]
    split
    · obtain ⟨s', hnew, hmoves⟩ := moves_newNode hok m.id sender 1
      exact ⟨s', hnew, hmoves.reply hgood⟩
    · obtain ⟨s₁, hnew, hmoves₁⟩ := moves_newNode hok m.id sender 2
      obtain ⟨s₂, hnodes, hmoves₂⟩ := moves_addNodes hmoves₁.ok sr (nodeInfos m.nodes)
      obtain ⟨s₃, hnodes6, hmoves₃⟩ := moves_addNodes hmoves₂.ok sr (nodeInfos6 m.nodes6)
      have hmoves := (hmoves₁.trans hmoves₂).trans hmoves₃
      have hlast : ∀ s₄, Moves s₃ s₄ → Handled sha256 sender .reply m s (s₄.replied sr sender m callback) := by
        intro s₄ hpush
        have hall := hmoves.trans hpush
        exact (hall.trans (moves_replied hall.ok (by rwa [hall.myid]) sr sender callback)).reply hgood
      rw [hnew, Option.bind_eq_bind, Option.bind_some, hnodes, Option.bind_some, hnodes6]
      cases sr with
      | none => exact ⟨_, rfl, hlast s₃ (Moves.refl hmoves₃.ok)⟩
      | some i => exact ⟨_, rfl, hlast _ (moves_pushRequest hmoves₃.ok i)⟩

theorem handled_onAnnounced (hok : s.Ok) (hgood : badReply m = false) :
    ∃ s', s.onAnnounced sender m = some s' ∧ Handled sha256 sender .reply m s s' := by
  rw [onAnnounced]
  split
  · obtain ⟨s', hnew, hmoves⟩ := moves_newNode hok m.id sender 1
    exact ⟨s', hnew, hmoves.reply hgood⟩
  · rename_i i _
    obtain ⟨s₁, hnew, hmoves⟩ := moves_newNode hok m.id sender 2
    have hack : Moves s₁ (s₁.modifySearch i (acknowledge s₁.now m.id)) :=
      moves_modifySearch hmoves.ok i fun sr hsr => ok_acknowledge hsr s₁.now m.id
    refine ⟨_, ?_, ((hmoves.trans hack).trans (moves_pushRequest hack.ok i)).reply hgood⟩
    rw [hnew]
    rfl

theorem handled_onReply (hok : s.Ok) (hother : m.id ≠ s.myid) (callback : Bool) :
    ∃ s', s.onReply sender m callback = some s' ∧ Handled sha256 sender .reply m s s' := by
  rw [onReply]
  split
  · rename_i hlength
    refine ⟨_, rfl, handled_blacklistNode hok ?_⟩
    rw [badReply, decide_eq_true hlength, Bool.true_or]
  · rename_i hlength
    have hbad : badReply m = (!tidMatch m.tid "pn" && (tidMatch m.tid "fn" || tidMatch m.tid "gp") &&
        (decide (m.nodes.length % 26 ≠ 0) || decide (m.nodes6.length % 38 ≠ 0))) := by
      rw [badReply, decide_eq_false hlength, Bool.false_or]
    split
    · rename_i hping
      rw [hping, Bool.not_true, Bool.false_and, Bool.false_and] at hbad
      obtain ⟨s', hnew, hmoves⟩ := moves_newNode hok m.id sender 2
      exact ⟨s', hnew, hmoves.reply hbad⟩
    · rename_i hping
      rw [Bool.eq_false_of_not_eq_true hping, Bool.not_false, Bool.true_and] at hbad
      split
      · rename_i hnodes
        rw [hnodes, Bool.true_and] at hbad
        exact handled_onNodes hok hother hbad callback
      · rename_i hnodes
        rw [Bool.eq_false_of_not_eq_true hnodes, Bool.false_and] at hbad
        split
        · exact handled_onAnnounced hok hbad
        · exact ⟨s, rfl, (Moves.refl hok).reply hbad⟩

/-! ### Requests -/

theorem sends_sendNodesPeers (o : Outbound) (sa : SockAddr) (tid nodes nodes6 : Bytes) (af : Option Family)
    (st : Option Storage) (token : Bytes) :
    Sends o (Tables.sendNodesPeers o sa tid nodes nodes6 af st token) := by
  cases st with
  | none => exact sends_transmit o 2048 sa _
  | some st =>
      have hdraw : Sends o (if st.peers.length > 0 then o.draw else (0, o)).2 := by
        split
        · exact sends_draw o
        · exact Sends.refl o
      exact hdraw.trans (sends_transmit _ 2048 sa _)

theorem sends_sendClosestNodes (r : Tables) (sa : SockAddr) (tid : Bytes) (id : Hash) (want : Want)
    (af : Option Family) (st : Option Storage) (token : Bytes) :
    Sends r.toOutbound (r.sendClosestNodes sa tid id want af st token) :=
  sends_sendNodesPeers _ _ _ _ _ _ _ _

/-- The node that asks is noted, and gets an answer. -/
theorem moves_answer (hok : s.Ok) (id : Hash) (sa : SockAddr) :
    ∃ s₁, s.newNode id sa 1 = some s₁ ∧ Moves s s₁ ∧
      ∀ o, Sends s₁.toOutbound o → Moves s (s₁.withOutbound o) := by
  obtain ⟨s₁, hnew, hmoves⟩ := moves_newNode hok id sa 1
  exact ⟨s₁, hnew, hmoves, fun o ho => hmoves.trans (moves_withOutbound hmoves.ok ho)⟩

theorem moves_ping (hok : s.Ok) (sender : SockAddr) (m : Message) (callback : Bool) :
    ∃ s', dispatch sha256 s sender callback .ping m = some s' ∧ Moves s s' := by
  obtain ⟨s₁, hnew, -, hanswer⟩ := moves_answer hok m.id sender
  rw [dispatch, hnew, Option.map_some]
  exact ⟨_, rfl, hanswer _ (sends_transmit _ _ _ _)⟩

theorem moves_onFindNode (hok : s.Ok) (sender : SockAddr) (m : Message) :
    ∃ s', s.onFindNode sender m = some s' ∧ Moves s s' := by
  obtain ⟨s₁, hnew, -, hanswer⟩ := moves_answer hok m.id sender
  rw [onFindNode, hnew, Option.bind_eq_bind, Option.bind_some]
  exact ⟨_, rfl, hanswer _ (sends_sendClosestNodes _ _ _ _ _ _ _ _)⟩

theorem moves_onGetPeers (hok : s.Ok) (sender : SockAddr) (m : Message) :
    ∃ s', onGetPeers sha256 s sender m = some s' ∧ Moves s s' := by
  obtain ⟨s₁, hnew, -, hanswer⟩ := moves_answer hok m.id sender
  rw [onGetPeers, hnew, Option.bind_eq_bind, Option.bind_some]
  split
  · exact ⟨_, rfl, hanswer _ (sends_transmit _ _ _ _)⟩
  · dsimp only
    split
    · split
      · exact ⟨_, rfl, hanswer _ (sends_sendClosestNodes _ _ _ _ _ _ _ _)⟩
      · exact ⟨_, rfl, hanswer _ (sends_sendClosestNodes _ _ _ _ _ _ _ _)⟩
    · exact ⟨_, rfl, hanswer _ (sends_sendClosestNodes _ _ _ _ _ _ _ _)⟩

theorem handled_onAnnouncePeer (hok : s.Ok) :
    ∃ s', onAnnouncePeer sha256 s sender m = some s' ∧ Handled sha256 sender .announcePeer m s s' := by
  have hblamed : blamed sender .announcePeer m = none := blamed_request (by decide)
  obtain ⟨s₁, hnew, hmoves, hanswer⟩ := moves_answer hok m.id sender
  rw [onAnnouncePeer, hnew, Option.bind_eq_bind, Option.bind_some]
  split
  · rename_i hhash
    refine ⟨_, rfl, (hanswer _ (sends_transmit _ _ _ _)).handled hblamed (if_neg ?_)⟩
    exact fun h => h.2.1 (idCmp_eq_iff.mp hhash)
  · rename_i hhash
    split
    · rename_i htoken
      refine ⟨_, rfl, (hanswer _ (sends_transmit _ _ _ _)).handled hblamed (if_neg ?_)⟩
      rw [Bool.not_eq_true', hmoves.secrets] at htoken
      exact fun h => Bool.false_ne_true (htoken.symm.trans h.2.2.1)
    · rename_i htoken
      split
      · rename_i hport
        exact ⟨_, rfl, (hanswer _ (sends_transmit _ _ _ _)).handled hblamed (if_neg fun h => h.2.2.2 hport)⟩
      · rename_i hport
        have hadmitted : admitted sha256 s sender .announcePeer m =
            some (.announce s.now m.infoHash sender m.port) := by
          refine if_pos ⟨rfl, mt idCmp_eq_iff.mpr hhash, ?_, hport⟩
          rwa [Bool.not_eq_true, Bool.not_eq_false', hmoves.secrets] at htoken
        have hstore : Ok { s₁ with store := (s₁.store.storageStore s₁.now m.infoHash sender m.port).1 } :=
          ⟨hmoves.ok.tables, hmoves.ok.lookups,
            (Store.storageStore_spec hmoves.ok.store s₁.now m.infoHash sender m.port).ok hmoves.ok.store⟩
        have hstored : Handled sha256 sender .announcePeer m s
            { s₁ with store := (s₁.store.storageStore s₁.now m.infoHash sender m.port).1 } := by
          refine ⟨hstore, hmoves.now, hblamed ▸ Talks.sends hmoves.sends, ?_, hmoves.secrets, hmoves.limit, hmoves.timer⟩
          rw [hadmitted, hmoves.store, hmoves.now]
          rfl
        exact ⟨_, rfl, hstored.moves (moves_withOutbound hstore (sends_transmit _ _ _ _))⟩

theorem handled_dispatch (hok : s.Ok) (hother : m.id ≠ s.myid) (callback : Bool) :
    ∃ s', dispatch sha256 s sender callback type m = some s' ∧ Handled sha256 sender type m s s' := by
  have hmoves : (∃ s', dispatch sha256 s sender callback type m = some s' ∧ Moves s s') → type ≠ .reply →
      type ≠ .announcePeer → ∃ s', dispatch sha256 s sender callback type m = some s' ∧
        Handled sha256 sender type m s s' := by
    rintro ⟨s', hdispatch, hmoves⟩ hreply hannounce
    exact ⟨s', hdispatch, hmoves.handled (blamed_request hreply) (admitted_other hannounce)⟩
  cases type with
  | reply => exact handled_onReply hok hother callback
  | error => exact hmoves ⟨s, rfl, Moves.refl hok⟩ (by decide) (by decide)
  | ping => exact hmoves (moves_ping hok sender m callback) (by decide) (by decide)
  | findNode => exact hmoves (moves_onFindNode hok sender m) (by decide) (by decide)
  | getPeers => exact hmoves (moves_onGetPeers hok sender m) (by decide) (by decide)
  | announcePeer => exact handled_onAnnouncePeer hok

/-! ### What a call gets to hear -/

/-- The message of a call that `dht_periodic` does not drop: who sent it, its type and what it says. -/
def heard (s : Globals) : Call → Option (SockAddr × MessageType × Message)
  | .periodic _ (some p) _ =>
      if p.buf.length = 0 ∨ isMartian p.sender ∨ s.nodeBlacklisted p.sender ∨ p.terminated = false then none
      else (parseMessage p.unset p.buf).bind fun (type, m) =>
        if type = .error ∨ m.id = zeroes ∨ m.id = s.myid then none else some (p.sender, type, m)
  | _ => none

/-- The time that a call asks for. -/
def time : Call → Option Int
  | .periodic now _ _ => some now
  | _ => none

/-- What time it is in a call. -/
def clock (s : Globals) (c : Call) : Int := (time c).getD s.now

/-- The rate limit once it let a request in or not. -/
def limited (s : Globals) (c : Call) : RateLimit × Bool := s.rateLimit.tokenBucket (s.clock c)

/-- The message is a request. -/
def requested (s : Globals) (c : Call) : Bool := (s.heard c).any fun (_, type, _) => type ≠ .reply

/-- The message of a call that is acted upon. -/
def acted (s : Globals) (c : Call) : Option (SockAddr × MessageType × Message) :=
  (s.heard c).filter fun (_, type, _) => type = .reply || (s.limited c).2

/-- Who is blacklisted for the message of a call. -/
def banned (s : Globals) (c : Call) : Option SockAddr := (s.acted c).bind fun (sender, type, m) => blamed sender type m

/-- What the message of a call announces to the store. -/
def announced (sha256 : Bytes → Bytes) (s : Globals) (c : Call) : Option StoreOp :=
  (s.acted c).bind fun (sender, type, m) => admitted sha256 { s with now := s.clock c } sender type m

/-! ### What is due -/

theorem follows_draw (hr : r.Ok) : r.Follows r.draw.2 := (Tables.draws_draw r).follows hr

/-- What the timers do. -/
structure Ticks (s s' : Globals) : Prop where
  ok : s'.Ok
  now : s'.now = s.now
  sends : Sends s.toOutbound s'.toOutbound
  store : s'.store = s.store ∧ s'.expireStuffTime = s.expireStuffTime ∨
    s'.store = s.store.expireStorage s.now ∧ s.now < s'.expireStuffTime ∧ s'.expireStuffTime < s.now + 360
  secrets : s'.secrets = s.secrets ∨ ∃ n, s'.secrets = (s.secrets.rotate s.now n).1
  limit : s'.rateLimit = s.rateLimit

theorem Moves.ticks (h : Moves s s') : Ticks s s' :=
  ⟨h.ok, h.now, h.sends, Or.inl ⟨h.store, h.timer⟩, Or.inl h.secrets, h.limit⟩

theorem Ticks.moves (h : Ticks s s') (h' : Moves s' s'') : Ticks s s'' := by
  refine ⟨h'.ok, h'.now.trans h.now, h.sends.trans h'.sends, ?_, ?_, h'.limit.trans h.limit⟩
  · rw [h'.store, h'.timer]
    exact h.store
  · rw [h'.secrets]
    exact h.secrets

theorem ticks_rotateSecrets (hok : s.Ok) : Ticks s s.rotateSecrets ∧ s.rotateSecrets.store = s.store := by
  have hdraw := follows_draw hok.tables
  exact ⟨⟨⟨hdraw.ok, hok.lookups_of_follows hdraw, hok.store⟩, hdraw.now, hdraw.sends, Or.inl ⟨rfl, hdraw.timer⟩,
    Or.inr ⟨_, rfl⟩, rfl⟩, rfl⟩

theorem expireStuff_spec (hok : s.Ok) :
    s.expireStuff.Ok ∧ s.expireStuff.now = s.now ∧ Sends s.toOutbound s.expireStuff.toOutbound ∧
      s.expireStuff.store = s.store.expireStorage s.now ∧ s.expireStuff.secrets = s.secrets ∧
      s.expireStuff.rateLimit = s.rateLimit ∧ s.now < s.expireStuff.expireStuffTime ∧
      s.expireStuff.expireStuffTime < s.now + 360 := by
  have hexpired := (Tables.expireBuckets_spec hok.tables .inet).1
  have hexpired6 := hexpired.trans (Tables.expireBuckets_spec hexpired.ok .inet6).1
  have hearly : s.now + 120 ≤ s.expireStuff.expireStuffTime := hexpired6.early
  have hlookups : (s.lookups.expireSearches s.now).Ok s.expireStuff.myid := by
    have hmyid : s.expireStuff.myid = s.myid := hexpired6.sends.myid
    rw [hmyid]
    exact hok.lookups.expireSearches s.now
  exact ⟨⟨hexpired6.ok, hlookups, hok.store.expireStorage s.now⟩, hexpired6.now, hexpired6.sends, rfl, rfl, rfl,
    by omega, hexpired6.late⟩

theorem stepLoop_spec {myid : Hash} {searches : List Search} (hr : r.Ok) (hsearches : ∀ sr ∈ searches, SearchOk myid sr)
    (callback : Bool) :
    (∀ sr ∈ (stepLoop callback searches r).1, SearchOk myid sr) ∧
      (stepLoop callback searches r).1.map Searches.target = searches.map Searches.target ∧
      r.Follows (stepLoop callback searches r).2.1 := by
  induction searches generalizing r with
  | nil => exact ⟨hsearches, rfl, Tables.Follows.refl hr⟩
  | cons sr rest ih =>
      obtain ⟨hsr, hrest⟩ := List.forall_mem_cons.mp hsearches
      rw [stepLoop]
      split
      · have hstep := Search.stepped_searchStep hsr hr callback
        obtain ⟨hall, htargets, hfollows⟩ := ih hstep.follows.ok hrest
        refine ⟨List.forall_mem_cons.mpr ⟨hstep.ok, hall⟩, ?_, hstep.follows.trans hfollows⟩
        exact congrArg₂ List.cons (Searches.target_of_kin hstep.kin) htargets
      · obtain ⟨hall, htargets, hfollows⟩ := ih hr hrest
        exact ⟨List.forall_mem_cons.mpr ⟨hsr, hall⟩, congrArg₂ List.cons rfl htargets, hfollows⟩

theorem follows_dueLoop (hr : r.Ok) (searches : List Search) (searchTime : Int) :
    r.Follows (dueLoop searches searchTime r).2 := by
  induction searches generalizing r searchTime with
  | nil => exact Tables.Follows.refl hr
  | cons sr rest ih =>
      rw [dueLoop]
      split
      · exact ih hr _
      · have hdraw := follows_draw hr
        exact hdraw.trans (ih hdraw.ok _)

theorem moves_stepSearches (hok : s.Ok) (callback : Bool) : Moves s (s.stepSearches callback) := by
  obtain ⟨hall, htargets, hfollows⟩ := stepLoop_spec hok.tables hok.lookups.searches callback
  have hdue := hfollows.trans
    (follows_dueLoop hfollows.ok (stepLoop callback s.lookups.searches s.toTables).1 0)
  exact ⟨⟨hdue.ok, (hok.lookups_of_follows hdue).withSearches htargets (hdue.myid.symm ▸ hall), hok.store⟩,
    hdue.now, hdue.sends, rfl, rfl, rfl, hdue.timer⟩

/-- The neighbourhood of a family is looked after, if its table grew lately. -/
theorem follows_near {r : Tables} (hr : r.Ok) (growTime : Tables → Int) (af : Family) :
    r.Follows (if growTime r ≥ r.now - 150 then r.neighbourhoodMaintenance af else (r, false)).1 := by
  split
  · exact Tables.follows_neighbourhoodMaintenance hr af
  · exact Tables.Follows.refl hr

theorem moves_confirmNodes (hok : s.Ok) : Moves s s.confirmNodes := by
  have hmaintain := Tables.follows_bucketMaintenance hok.tables .inet
  have hmaintain6 := hmaintain.trans (Tables.follows_bucketMaintenance hmaintain.ok .inet6)
  have hmoves : ∀ r : Tables, s.toTables.Follows r → ∀ time, Moves s { s with toTables := r, confirmNodesTime := time } :=
    fun r h time => ⟨⟨h.ok, hok.lookups_of_follows h, hok.store⟩, h.now, h.sends, rfl, rfl, rfl, h.timer⟩
  rw [confirmNodes]
  dsimp only
  split
  · exact hmoves _ (hmaintain6.trans (follows_draw hmaintain6.ok)) _
  · have hnear := hmaintain6.trans (follows_near hmaintain6.ok Tables.mybucketGrowTime .inet)
    have hnear6 := hnear.trans (follows_near hnear.ok Tables.mybucket6GrowTime .inet6)
    exact hmoves _ (hnear6.trans (follows_draw hnear6.ok)) _

theorem ticks_expireStuff (h : Ticks s s') (hstore : s'.store = s.store) :
    Ticks s (if s'.now ≥ s'.expireStuffTime then s'.expireStuff else s') ∧
      s.now < (if s'.now ≥ s'.expireStuffTime then s'.expireStuff else s').expireStuffTime := by
  split
  · obtain ⟨hok', hnow, hsends, hstore', hsecrets, hlimit, hearly, hlate⟩ := expireStuff_spec h.ok
    rw [h.now] at hearly hlate
    refine ⟨⟨hok', hnow.trans h.now, h.sends.trans hsends, Or.inr ⟨?_, hearly, hlate⟩, ?_, hlimit.trans h.limit⟩,
      hearly⟩
    · rw [hstore', hstore, h.now]
    · rw [hsecrets]
      exact h.secrets
  · rename_i hnot
    rw [h.now] at hnot
    exact ⟨h, lt_of_not_ge hnot⟩

theorem ticks_stepSearches (h : Ticks s s') (callback : Bool) :
    Ticks s (if s'.searchTime > 0 ∧ s'.now ≥ s'.searchTime then s'.stepSearches callback else s') ∧
      (if s'.searchTime > 0 ∧ s'.now ≥ s'.searchTime then s'.stepSearches callback else s').expireStuffTime =
        s'.expireStuffTime := by
  split
  · have hmoves := moves_stepSearches h.ok callback
    exact ⟨h.moves hmoves, hmoves.timer⟩
  · exact ⟨h, rfl⟩

theorem ticks_due (hok : s.Ok) (callback : Bool) :
    Ticks s (s.due callback) ∧ s.now < (s.due callback).expireStuffTime := by
  have hrotate : Ticks s (if s.now ≥ s.secrets.rotateSecretsTime then s.rotateSecrets else s) ∧
      (if s.now ≥ s.secrets.rotateSecretsTime then s.rotateSecrets else s).store = s.store := by
    split
    · exact ticks_rotateSecrets hok
    · exact ⟨(Moves.refl hok).ticks, rfl⟩
  rw [due]
  generalize (if s.now ≥ s.secrets.rotateSecretsTime then s.rotateSecrets else s) = s₁ at hrotate ⊢
  obtain ⟨hrotate, hstore⟩ := hrotate
  obtain ⟨hexpire, hafter⟩ := ticks_expireStuff hrotate hstore
  generalize (if s₁.now ≥ s₁.expireStuffTime then s₁.expireStuff else s₁) = s₂ at hexpire hafter ⊢
  obtain ⟨hstep, htimer⟩ := ticks_stepSearches hexpire callback
  generalize (if s₂.searchTime > 0 ∧ s₂.now ≥ s₂.searchTime then s₂.stepSearches callback else s₂) = s₃ at hstep htimer ⊢
  split
  · have hmoves := moves_confirmNodes hstep.ok
    exact ⟨hstep.moves hmoves, by rwa [hmoves.timer, htimer]⟩
  · exact ⟨hstep, by rwa [htimer]⟩

/-! ### Calls -/

theorem openSearch_ok (hok : s.Ok) {af : Family} {lookups : Searches}
    (hopen : s.openSearch id af = some (lookups, i)) : lookups.Ok s.myid := by
  rw [openSearch] at hopen
  split at hopen
  · simp only [Option.some.injEq, Prod.mk.injEq] at hopen
    rw [← hopen.1]
    apply hok.lookups.withSearches (map_modify_of_eq ?_ _ _)
    · intro sr hsr
      rcases mem_modify hsr with hold | ⟨old, hold, rfl⟩
      · exact hok.lookups.searches sr hold
      · have hagain := Search.ok_again (hok.lookups.searches old hold) s.now
        exact ⟨hagain.sorted, hagain.room, hagain.nodes⟩
    · exact fun _ => rfl
  · rename_i hnone
    have hnew : (af, id) ∉ s.lookups.searches.map Searches.target := by
      intro hmem
      obtain ⟨sr, hsr, htarget⟩ := List.mem_map.mp hmem
      obtain ⟨rfl, rfl⟩ : sr.af = af ∧ sr.id = id := Prod.mk.inj htarget
      have hnot := List.findIdx?_eq_none_iff.mp hnone sr hsr
      rw [beq_self_eq_true, Bool.true_and, idCmp_eq_iff.mpr rfl] at hnot
      cases hnot
    split at hopen
    · cases hopen
    · rename_i lookups' j hslot
      simp only [Option.some.injEq, Prod.mk.injEq] at hopen
      rw [← hopen.1]
      have hempty : ∀ sr : Search, SearchOk s.myid
          { sr with af := af, tid := lookups'.searchId, stepTime := 0, id := id, done := false, nodes := [] } :=
        fun _ => ⟨List.Pairwise.nil, Nat.zero_le searchNodes, List.forall_mem_nil _⟩
      exact hok.lookups.slot (Searches.newSearch_spec hslot) hempty (fun _ => rfl) hnew _

/-- No bucket of a table has ourselves in it. -/
theorem other_of_close {af : Family} {c : Cursor Bucket} (hr : r.Ok) (hclose : c.close = r.table af) :
    ∀ n ∈ c.here.nodes, n.id ≠ r.myid := by
  obtain ⟨lo, hi, hat⟩ := Tables.at_of_close hr hclose
  exact fun n hn => (hat.here.nodes n hn).other

theorem ok_insertHere (hok : s.Ok) {af : Family} {c : Cursor Bucket} (hclose : c.close = s.table af) {sr sr' : Search}
    (h : SearchOk s.myid sr' ∧ sr.Kin sr') :
    SearchOk s.myid (sr'.insertSearchBucket s.now c.here) ∧ sr.Kin (sr'.insertSearchBucket s.now c.here) := by
  obtain ⟨hok', hkin⟩ := Search.ok_insertSearchBucket h.1 (other_of_close hok.tables hclose) s.now
  exact ⟨hok', h.2.trans hkin⟩

theorem ok_fillAround (hok : s.Ok) {af : Family} {c : Cursor Bucket} (hclose : c.close = s.table af) {sr sr' : Search}
    (h : SearchOk s.myid sr' ∧ sr.Kin sr') : SearchOk s.myid (s.fillAround c sr') ∧ sr.Kin (s.fillAround c sr') := by
  rw [fillAround]
  cases hnext : nextBucket c with
  | none =>
      cases hprevious : previousBucket c with
      | none => exact h
      | some p => exact ok_insertHere hok ((Tables.close_previousBucket hprevious).trans hclose) h
  | some next =>
      have h' := ok_insertHere hok ((Tables.close_nextBucket hnext).trans hclose) h
      cases hprevious : previousBucket c with
      | none => exact h'
      | some p => exact ok_insertHere hok ((Tables.close_previousBucket hprevious).trans hclose) h'

theorem ok_fillSearch (hok : s.Ok) {af : Family} {c : Cursor Bucket} (hclose : c.close = s.table af) {sr : Search}
    (hsr : SearchOk s.myid sr) : SearchOk s.myid (s.fillSearch c sr) ∧ sr.Kin (s.fillSearch c sr) := by
  have hhere := ok_insertHere hok hclose ⟨hsr, Search.Kin.refl sr⟩
  rw [fillSearch]
  generalize sr.insertSearchBucket s.now c.here = sr₁ at hhere ⊢
  have hnear : SearchOk s.myid (if sr₁.nodes.length < searchNodes then s.fillAround c sr₁ else sr₁) ∧
      sr.Kin (if sr₁.nodes.length < searchNodes then s.fillAround c sr₁ else sr₁) := by
    split
    · exact ok_fillAround hok hclose hhere
    · exact hhere
  generalize (if sr₁.nodes.length < searchNodes then s.fillAround c sr₁ else sr₁) = sr₂ at hnear ⊢
  split
  · split
    · exact hnear
    · rename_i own hown
      obtain ⟨lo, hi, hat, -⟩ := Tables.findBucket_some hok.tables hown
      exact ok_insertHere hok hat.close hnear
  · exact hnear

/-- What a call does. -/
structure Called (sha256 : Bytes → Bytes) (s : Globals) (c : Call) (s' : Globals) : Prop where
  ok : s'.Ok
  now : s'.now = s.clock c
  talks : Talks (s.banned c) s.toOutbound s'.toOutbound
  store : ∃ ops, (ops = [] ∧ s'.expireStuffTime = s.expireStuffTime ∨
      ops = [.expire s'.now] ∧ s'.expireStuffTime < s'.now + 360) ∧
    s'.store = run Store.apply s.store ((announced sha256 s c).toList ++ ops)
  secrets : s'.secrets = s.secrets ∨ ∃ n, s'.secrets = (s.secrets.rotate s'.now n).1
  limit : s'.rateLimit = if s.requested c then (s.limited c).1 else s.rateLimit

variable {c : Call}

theorem banned_of_heard_none (hheard : s.heard c = none) : s.banned c = none := by
  rw [banned, acted, hheard]
  rfl

theorem announced_of_heard_none (hheard : s.heard c = none) : announced sha256 s c = none := by
  rw [announced, acted, hheard]
  rfl

theorem requested_of_heard_none (hheard : s.heard c = none) : s.requested c = false := by
  rw [requested, hheard]
  rfl

theorem Moves.called (h : Moves s s') (hheard : s.heard c = none) (hclock : s.clock c = s.now) :
    Called sha256 s c s' := by
  refine ⟨h.ok, h.now.trans hclock.symm, ?_, ⟨[], Or.inl ⟨rfl, h.timer⟩, ?_⟩, Or.inl h.secrets, ?_⟩
  · rw [banned_of_heard_none hheard]
    exact Talks.sends h.sends
  · rw [announced_of_heard_none hheard]
    exact h.store
  · rw [requested_of_heard_none hheard, if_neg Bool.false_ne_true]
    exact h.limit

theorem moves_serveLocal (hok : s.Ok) (id : Hash) (callback : Bool) :
    Moves s (s.serveLocal id callback) ∧ (s.serveLocal id callback).toTables = s.toTables := by
  rw [serveLocal]
  split
  · split
    · exact ⟨Moves.refl hok, rfl⟩
    · exact ⟨⟨⟨hok.tables, hok.lookups, hok.store⟩, rfl, Sends.refl _, rfl, rfl, rfl, rfl⟩, rfl⟩
  · exact ⟨Moves.refl hok, rfl⟩

theorem moves_startSearch (hok : s.Ok) {af : Family} {c : Cursor Bucket} (hclose : c.close = s.table af)
    {lookups : Searches} (hlookups : lookups.Ok s.myid) {sr sr' : Search} (hget : lookups.searches[i]? = some sr)
    (hkin : sr.Kin sr') (hsr' : SearchOk s.myid sr') (callback : Bool) :
    Moves s (s.startSearch c lookups i sr' callback) := by
  obtain ⟨hfilled, hkin'⟩ := ok_fillSearch hok hclose hsr'
  have hstep := Search.stepped_searchStep hfilled hok.tables callback
  have hset := hlookups.set hget ((hkin.trans hkin').trans hstep.kin) hstep.ok
  exact ⟨⟨hstep.follows.ok, hstep.follows.myid.symm ▸ hset, hok.store⟩, hstep.follows.now, hstep.follows.sends,
    rfl, rfl, rfl, hstep.follows.timer⟩

theorem moves_dhtSearch (hok : s.Ok) (id : Hash) (port : Int) (af : Family) (callback : Bool) :
    Moves s (s.dhtSearch id port af callback).1 := by
  rw [dhtSearch]
  split
  · exact Moves.refl hok
  · rename_i c hfind
    obtain ⟨lo, hi, hat, -⟩ := Tables.findBucket_some hok.tables hfind
    obtain ⟨hserve, htables⟩ := moves_serveLocal hok id callback
    have hclose : c.close = (s.serveLocal id callback).table af := by rw [htables, hat.close]
    dsimp only
    split
    · exact hserve
    · rename_i lookups i hopen
      have hlookups := openSearch_ok hserve.ok hopen
      split
      · exact hserve
      · rename_i sr hget
        have hsr := hlookups.searches sr (List.mem_of_getElem? hget)
        have hport : SearchOk (s.serveLocal id callback).myid { sr with port := UInt16.ofInt port } :=
          ⟨hsr.sorted, hsr.room, hsr.nodes⟩
        have hkin : sr.Kin { sr with port := UInt16.ofInt port } := ⟨rfl, rfl⟩
        exact hserve.trans (moves_startSearch hserve.ok hclose hlookups hget hkin hport callback)

/-- The time is what the clock says. -/
def at' (s : Globals) (now : Int) : Globals := s.withTables { s.toTables with now := now }

theorem ok_at (hok : s.Ok) (now : Int) : (s.at' now).Ok :=
  ⟨hok.tables.congr (fun af => by cases af <;> rfl) rfl, hok.lookups, hok.store⟩

/-- A message is acted upon, or it is a request too many. -/
def actOn (sha256 : Bytes → Bytes) (s : Globals) (callback : Bool) (sender : SockAddr) (type : MessageType)
    (m : Message) : Option Globals :=
  if type = .reply then dispatch sha256 s sender callback type m
  else
    let s' := { s with rateLimit := (s.rateLimit.tokenBucket s.now).1 }
    if (s.rateLimit.tokenBucket s.now).2 then dispatch sha256 s' sender callback type m else some s'

theorem receive_eq (s : Globals) (sender : SockAddr) (callback : Bool) (type : MessageType) (m : Message) :
    receive sha256 s sender callback type m =
      if type = .error ∨ m.id = zeroes ∨ m.id = s.myid then some s else actOn sha256 s callback sender type m := by
  rw [receive, actOn]
  simp only [idCmp_eq_iff]
  by_cases hdropped : type = .error ∨ m.id = zeroes
  · rw [if_pos hdropped, if_pos (hdropped.imp_right Or.inl)]
  · rw [if_neg hdropped]
    by_cases hself : m.id = s.myid
    · rw [if_pos hself, if_pos (Or.inr (Or.inr hself))]
    · have hkept : ¬(type = .error ∨ m.id = zeroes ∨ m.id = s.myid) := by tauto
      rw [if_neg hself]
      exact (if_neg hkept).symm

/-- What `dht_periodic` comes down to. -/
theorem dhtPeriodic_cases (s : Globals) (now : Int) (packet : Option Packet) (callback : Bool) :
    (s.heard (.periodic now packet callback) = none ∧
      ((∃ p, packet = some p ∧ p.terminated = false) ∧ dhtPeriodic sha256 s now packet callback = some (s.at' now) ∨
        dhtPeriodic sha256 s now packet callback = some ((s.at' now).due callback))) ∨
    ∃ sender type m, s.heard (.periodic now packet callback) = some (sender, type, m) ∧ m.id ≠ s.myid ∧
      dhtPeriodic sha256 s now packet callback =
        (actOn sha256 (s.at' now) callback sender type m).map fun s => s.due callback := by
  cases packet with
  | none => exact Or.inl ⟨rfl, Or.inr rfl⟩
  | some p =>
      unfold dhtPeriodic
      dsimp only
      split
      · rename_i hempty
        exact Or.inl ⟨if_pos (Or.inl hempty), Or.inr rfl⟩
      · rename_i hlength
        split
        · rename_i hmartian
          exact Or.inl ⟨if_pos (Or.inr (Or.inl hmartian)), Or.inr rfl⟩
        · rename_i hfine
          split
          · rename_i hblack
            exact Or.inl ⟨if_pos (Or.inr (Or.inr (Or.inl hblack))), Or.inr rfl⟩
          · rename_i hwelcome
            split
            · rename_i hopen
              rw [Bool.not_eq_true'] at hopen
              exact Or.inl ⟨if_pos (Or.inr (Or.inr (Or.inr hopen))), Or.inl ⟨⟨p, rfl, hopen⟩, rfl⟩⟩
            · rename_i hclosed
              rw [Bool.not_eq_true'] at hclosed
              have hread : ¬(p.buf.length = 0 ∨ isMartian p.sender = true ∨ s.nodeBlacklisted p.sender = true ∨
                  p.terminated = false) := by
                rintro (h | h | h | h)
                · exact hlength h
                · exact hfine h
                · exact hwelcome h
                · exact hclosed h
              have hheard : s.heard (.periodic now (some p) callback) =
                  (parseMessage p.unset p.buf).bind fun (type, m) =>
                    if type = .error ∨ m.id = zeroes ∨ m.id = s.myid then none else some (p.sender, type, m) :=
                if_neg hread
              rw [hheard]
              cases hparse : parseMessage p.unset p.buf with
              | none => exact Or.inl ⟨rfl, Or.inr rfl⟩
              | some parsed =>
                  obtain ⟨type, m⟩ := parsed
                  rw [Option.bind_some]
                  dsimp only
                  by_cases hdropped : type = .error ∨ m.id = zeroes ∨ m.id = s.myid
                  · have hreceive : receive sha256 (s.at' now) p.sender callback type m = some (s.at' now) :=
                      (receive_eq _ _ _ _ _).trans (if_pos hdropped)
                    exact Or.inl ⟨if_pos hdropped, Or.inr (congrArg (Option.map fun s => s.due callback) hreceive)⟩
                  · have hreceive : receive sha256 (s.at' now) p.sender callback type m =
                        actOn sha256 (s.at' now) callback p.sender type m :=
                      (receive_eq _ _ _ _ _).trans (if_neg hdropped)
                    exact Or.inr ⟨p.sender, type, m, if_neg hdropped, fun hself => hdropped (Or.inr (Or.inr hself)),
                      congrArg (Option.map fun s => s.due callback) hreceive⟩

/-- What acting upon the message of a call does. -/
structure Acted (sha256 : Bytes → Bytes) (s : Globals) (c : Call) (s' : Globals) : Prop where
  ok : s'.Ok
  now : s'.now = s.clock c
  talks : Talks (s.banned c) s.toOutbound s'.toOutbound
  store : s'.store = run Store.apply s.store (announced sha256 s c).toList
  secrets : s'.secrets = s.secrets
  limit : s'.rateLimit = if s.requested c then (s.limited c).1 else s.rateLimit
  timer : s'.expireStuffTime = s.expireStuffTime

theorem Acted.called (h : Acted sha256 s c s') (h' : Ticks s' s'') : Called sha256 s c s'' := by
  refine ⟨h'.ok, h'.now.trans h.now, h.talks.sends_trans h'.sends, ?_, ?_, h'.limit.trans h.limit⟩
  · rcases h'.store with ⟨hsame, htimer⟩ | ⟨hexpired, -, hlate⟩
    · exact ⟨[], Or.inl ⟨rfl, htimer.trans h.timer⟩, by rw [hsame, h.store, List.append_nil]⟩
    · refine ⟨[.expire s'.now], Or.inr ?_, ?_⟩
      · rw [h'.now]
        exact ⟨rfl, hlate⟩
      rw [hexpired, h.store, run, run, List.foldl_append]
      rfl
  · rw [← h.secrets, h'.now]
    exact h'.secrets

theorem acted_idle (hok : s.Ok) (now : Int) {packet : Option Packet}
    (hheard : s.heard (.periodic now packet callback) = none) :
    Acted sha256 s (.periodic now packet callback) (s.at' now) := by
  refine ⟨ok_at hok now, rfl, ?_, ?_, rfl, ?_, rfl⟩
  · rw [banned_of_heard_none hheard]
    exact Talks.sends (Sends.refl _)
  · rw [announced_of_heard_none hheard]
    rfl
  · rw [requested_of_heard_none hheard]
    rfl

theorem Handled.acted {limit : RateLimit} {now : Int} {packet : Option Packet}
    (h : Handled sha256 sender type m { s.at' now with rateLimit := limit } s')
    (hacted : s.acted (.periodic now packet callback) = some (sender, type, m))
    (hlimit : limit = if s.requested (.periodic now packet callback) then
      (s.limited (.periodic now packet callback)).1 else s.rateLimit) :
    Acted sha256 s (.periodic now packet callback) s' := by
  refine ⟨h.ok, h.now, ?_, ?_, h.secrets, h.limit.trans hlimit, h.timer⟩
  · rw [banned, hacted]
    exact h.talks
  · rw [announced, hacted]
    exact h.store

theorem acted_actOn (hok : s.Ok) (now : Int) {packet : Option Packet}
    (hheard : s.heard (.periodic now packet callback) = some (sender, type, m)) (hother : m.id ≠ s.myid) :
    ∃ s', actOn sha256 (s.at' now) callback sender type m = some s' ∧
      Acted sha256 s (.periodic now packet callback) s' := by
  have hnow := ok_at hok now
  rw [actOn]
  split
  · rename_i hreply
    obtain ⟨s', hdispatch, h⟩ := @handled_dispatch _ sha256 sender type m hnow hother callback
    have hacted : s.acted (.periodic now packet callback) = some (sender, type, m) := by
      rw [acted, hheard]
      exact Option.filter_some_pos (by rw [hreply]; rfl)
    have hrequested : s.requested (.periodic now packet callback) = false := by
      rw [requested, hheard, hreply]
      rfl
    have hsame : Handled sha256 sender type m { s.at' now with rateLimit := s.rateLimit } s' := h
    exact ⟨s', hdispatch, hsame.acted hacted (by rw [hrequested]; rfl)⟩
  · rename_i hrequest
    have hlimit : Ok { s.at' now with rateLimit := ((s.at' now).rateLimit.tokenBucket (s.at' now).now).1 } :=
      ⟨hnow.tables, hnow.lookups, hnow.store⟩
    have hrequested : s.requested (.periodic now packet callback) = true := by
      rw [requested, hheard]
      exact decide_eq_true hrequest
    dsimp only
    split
    · rename_i hroom
      obtain ⟨s', hdispatch, h⟩ := @handled_dispatch _ sha256 sender type m hlimit hother callback
      have hacted : s.acted (.periodic now packet callback) = some (sender, type, m) := by
        rw [acted, hheard]
        exact Option.filter_some_pos (Bool.or_eq_true_iff.mpr (Or.inr hroom))
      exact ⟨s', hdispatch, h.acted hacted (by rw [hrequested]; rfl)⟩
    · rename_i hfull
      have hacted : s.acted (.periodic now packet callback) = none := by
        rw [acted, hheard]
        refine Option.filter_some_neg ?_
        exact Bool.or_eq_false_iff.mpr ⟨decide_eq_false hrequest, Bool.eq_false_of_not_eq_true hfull⟩
      refine ⟨_, rfl, hlimit, rfl, ?_, ?_, rfl, ?_, rfl⟩
      · rw [banned, hacted]
        exact Talks.sends (Sends.refl _)
      · rw [announced, hacted]
        rfl
      · rw [hrequested]
        rfl

/-- **A call of `dht_periodic` comes back**, whatever came in. -/
theorem called_dhtPeriodic (hok : s.Ok) (now : Int) (packet : Option Packet) (callback : Bool) :
    ∃ s', dhtPeriodic sha256 s now packet callback = some s' ∧
      Called sha256 s (.periodic now packet callback) s' ∧
      ((∀ p, packet = some p → p.terminated = true) → now < s'.expireStuffTime) := by
  rcases @dhtPeriodic_cases sha256 s now packet callback with
    ⟨hheard, ⟨hopen, hdone⟩ | hdone⟩ | ⟨sender, type, m, hheard, hother, hdone⟩
  · have hacted : Acted sha256 s (.periodic now packet callback) (s.at' now) := acted_idle hok now hheard
    refine ⟨_, hdone, hacted.called (Moves.refl hacted.ok).ticks, fun hclosed => ?_⟩
    obtain ⟨p, hp, hnot⟩ := hopen
    rw [hclosed p hp] at hnot
    cases hnot
  · have hacted : Acted sha256 s (.periodic now packet callback) (s.at' now) := acted_idle hok now hheard
    obtain ⟨hticks, hafter⟩ := ticks_due hacted.ok callback
    exact ⟨_, hdone, hacted.called hticks, fun _ => hafter⟩
  · obtain ⟨s₁, hact, hacted⟩ := @acted_actOn _ sha256 sender type m callback hok now packet hheard hother
    obtain ⟨hticks, hafter⟩ := ticks_due hacted.ok callback
    have hnow : s₁.now = now := hacted.now
    refine ⟨s₁.due callback, ?_, hacted.called hticks, fun _ => hnow ▸ hafter⟩
    rw [hdone, hact, Option.map_some]

theorem called_call (hok : s.Ok) (c : Call) : ∃ s', s.call sha256 c = some s' ∧ Called sha256 s c s' := by
  cases c with
  | periodic now packet callback =>
      obtain ⟨s', hdone, hcalled, -⟩ := @called_dhtPeriodic _ sha256 hok now packet callback
      exact ⟨s', hdone, hcalled⟩
  | search id port af callback => exact ⟨_, rfl, (moves_dhtSearch hok id port af callback).called rfl rfl⟩
  | insertNode id sa =>
      rw [call, dhtInsertNode]
      split
      · exact ⟨s, rfl, (Moves.refl hok).called rfl rfl⟩
      · obtain ⟨s', hnew, hmoves⟩ := moves_newNode hok id sa 0
        exact ⟨s', hnew, hmoves.called rfl rfl⟩
  | pingNode sa => exact ⟨_, rfl, (moves_withOutbound hok (sends_transmit _ _ _ _)).called rfl rfl⟩

/-! ### From the start -/

theorem ok_firstBucket (myid : Hash) (af : Family) : BucketOk myid af (firstBucket af) 0 (2 ^ 160) := by
  refine ⟨value_zeroes, ⟨0, Dyadic.Block.whole 160⟩, rfl, rfl, Nat.zero_le 8, List.nodup_nil, ?_, ?_, ?_⟩
  · exact List.forall_mem_nil _
  · exact List.forall_mem_nil _
  · rintro sa ⟨⟩

theorem ok_initTables (blacklist : Blacklist) (socket socket6 : Bool) (id : Hash) (v : Option (Vector UInt8 4)) (now : Int)
    (random : Nat → Nat) : (initTables blacklist socket socket6 id v now random).Ok := by
  have hfirst : ∀ (af : Family) (on : Bool), TableOk id af (if on then [firstBucket af] else []) := by
    intro af on
    cases on with
    | true => exact Or.inr (tiled_cons.mpr ⟨2 ^ 160, ok_firstBucket id af, rfl⟩)
    | false => exact Or.inl rfl
  intro af
  cases af with
  | inet => exact hfirst .inet socket
  | inet6 => exact hfirst .inet6 socket6

theorem ok_dhtInit {blacklist : Blacklist} {socket socket6 : Bool} {v : Option (Vector UInt8 4)} {now : Int} {random : Nat → Nat}
    {urandom : Nat → Option Secret} (hinit : dhtInit blacklist socket socket6 id v now random urandom = some s) : s.Ok := by
  have hr := ok_initTables blacklist socket socket6 id v now fun i => random (i + 3)
  have hexpired := (Tables.expireBuckets_spec hr .inet).1
  have hexpired6 := hexpired.trans (Tables.expireBuckets_spec hexpired.ok .inet6).1
  rw [dhtInit] at hinit
  dsimp only at hinit
  split at hinit
  · cases hinit
  · obtain rfl := Option.some.inj hinit
    exact ⟨hexpired6.ok, ⟨List.forall_mem_nil _, rfl, Nat.zero_le dhtMaxSearches, List.nodup_nil⟩,
      ⟨List.forall_mem_nil _, rfl, Nat.zero_le dhtMaxHashes, List.nodup_nil⟩⟩

theorem ok_of_reachable (hs : Reachable sha256 s) : s.Ok := by
  induction hs with
  | init blacklist socket socket6 id v now random urandom hinit => exact ok_dhtInit hinit
  | call hs c hcall ih =>
      obtain ⟨s', hcall', hcalled⟩ := @called_call _ sha256 ih c
      obtain rfl := Option.some.inj (hcall'.symm.trans hcall)
      exact hcalled.ok

end Globals

end CLibp2p.Routing.Dht
