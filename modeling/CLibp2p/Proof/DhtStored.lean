import CLibp2p.Proof.DhtRuns

/-!
# What is stored over a run

The store over a run of calls is the map of its announcements. An announcement stays for half an hour, and
not much longer.
-/

namespace CLibp2p.Routing.Dht

open Duplex Machine

/-! ### Runs of the map -/

namespace StoreOp

def announces : StoreOp → Bool
  | .announce .. => true
  | .expire _ => false

/-- An operation that leaves alone what was announced at this time. -/
def Spares (time : Int) : StoreOp → Prop
  | .announce now .. => time ≤ now
  | .expire now => now ≤ time + 32 * 60

end StoreOp

namespace Swarms

variable {m : Swarms} {op : StoreOp} {ops : List StoreOp} {id : Hash} {addr : Bytes × UInt16} {time bound : Int}

/-- What is in the map after an operation was there before, or was announced by it. -/
theorem apply_eq_some (h : m.apply op id addr = some time) :
    m id addr = some time ∨ ∃ sa port, op = .announce time id sa port ∧ addr = (sa.ip, port) := by
  cases op with
  | expire now => exact Or.inl (Option.filter_eq_some_iff.mp h).1
  | announce now id' sa port =>
      rw [apply, announce] at h
      split at h
      · exact Or.inl h
      · by_cases hid : id = id'
        · rw [hid, Function.update_self, Function.update_apply] at h
          split at h
          · rename_i haddr
            obtain rfl := Option.some.inj h
            exact Or.inr ⟨sa, port, by rw [hid], haddr⟩
          · rw [hid]
            exact Or.inl h
        · rw [Function.update_of_ne hid] at h
          exact Or.inl h

theorem run_eq_some (h : run apply m ops id addr = some time) :
    m id addr = some time ∨ ∃ sa port, .announce time id sa port ∈ ops ∧ addr = (sa.ip, port) := by
  induction ops generalizing m with
  | nil => exact Or.inl h
  | cons op ops ih =>
      rw [run_cons] at h
      rcases ih h with hhere | ⟨sa, port, hop, haddr⟩
      · rcases apply_eq_some hhere with hbefore | ⟨sa, port, rfl, haddr⟩
        · exact Or.inl hbefore
        · exact Or.inr ⟨sa, port, List.mem_cons_self, haddr⟩
      · exact Or.inr ⟨sa, port, List.mem_cons_of_mem _ hop, haddr⟩

/-- The address was announced for the hash, at this time or since. -/
def Since (m : Swarms) (id : Hash) (addr : Bytes × UInt16) (time : Int) : Prop := ∃ t, m id addr = some t ∧ time ≤ t

theorem Since.apply (h : m.Since id addr time) (hop : op.Spares time) : (m.apply op).Since id addr time := by
  obtain ⟨t, hfound, hle⟩ := h
  cases op with
  | expire now =>
      have hspares : now ≤ time + 32 * 60 := hop
      refine ⟨t, ?_, hle⟩
      apply Option.filter_eq_some_iff.mpr
      refine ⟨hfound, ?_⟩
      simp only [Bool.not_eq_true', decide_eq_false_iff_not]
      omega
  | announce now id' sa port =>
      have hspares : time ≤ now := hop
      rw [Swarms.apply, announce]
      split
      · exact ⟨t, hfound, hle⟩
      · by_cases hid : id = id'
        · rw [Since, hid, Function.update_self, Function.update_apply]
          split
          · exact ⟨now, rfl, hspares⟩
          · rw [← hid]
            exact ⟨t, hfound, hle⟩
        · rw [Since, Function.update_of_ne hid]
          exact ⟨t, hfound, hle⟩

theorem Since.run (h : m.Since id addr time) (hops : ∀ op ∈ ops, op.Spares time) :
    (run Swarms.apply m ops).Since id addr time := by
  induction ops generalizing m with
  | nil => exact h
  | cons op ops ih =>
      obtain ⟨hop, hrest⟩ := List.forall_mem_cons.mp hops
      exact ih (h.apply hop) hrest

theorem since_announce {now : Int} {sa : SockAddr} {port : UInt16} (hroom : ¬m.Full id (sa.ip, port)) :
    (m.apply (.announce now id sa port)).Since id (sa.ip, port) now := by
  refine ⟨now, ?_, le_refl now⟩
  rw [apply, announce, if_neg hroom, Function.update_self, Function.update_self]

end Swarms

/-! ### Runs of calls -/

namespace Globals

variable {sha256 : Bytes → Bytes} {s s' s₀ s₁ s₂ : Globals} {c : Call} {cs front rest : List Call}
  {blacklist : Blacklist} {socket socket6 : Bool} {id : Hash} {v : Option (Vector UInt8 4)} {now : Int} {random : Nat → Nat}
  {urandom : Nat → Option Secret}

theorem Started.contents (hstarted : Started blacklist now s) : s.store.contents = fun _ _ => none := by
  rw [hstarted.store]
  rfl

/-- What is announced to the store in a run, in order. -/
def announcements (sha256 : Bytes → Bytes) (s : Globals) (cs : List Call) : List StoreOp :=
  emitted (call sha256) (fun s c => (announced sha256 s c).toList) s cs

theorem announced_eq_some {op : StoreOp} (h : announced sha256 s c = some op) :
    ∃ sa m, s.acted c = some (sa, .announcePeer, m) ∧ tokenMatch sha256 s.secrets m.token sa = true ∧
      op = .announce (s.clock c) m.infoHash sa m.port := by
  obtain ⟨⟨sa, type, m⟩, hacted, hadmitted⟩ := Option.bind_eq_some_iff.mp h
  dsimp only at hadmitted
  rw [admitted] at hadmitted
  split at hadmitted
  · rename_i hlet
    obtain ⟨rfl, -, htoken, -⟩ := hlet
    exact ⟨sa, m, hacted, htoken, (Option.some.inj hadmitted).symm⟩
  · cases hadmitted

theorem contents_called (h : Called sha256 s c s') (hok : s.Ok) :
    ∃ ops, (ops = [] ∧ s'.expireStuffTime = s.expireStuffTime ∨
        ops = [.expire s'.now] ∧ s'.expireStuffTime < s'.now + 360) ∧
      s'.store.contents = run Swarms.apply s.store.contents ((announced sha256 s c).toList ++ ops) := by
  obtain ⟨ops, hops, hstore⟩ := h.store
  refine ⟨ops, hops, ?_⟩
  rw [hstore]
  exact (hok.store.run _).2

theorem spares_called {time : Int} {ops : List StoreOp} (hnow : s'.now = s.clock c)
    (hops : ops = [] ∧ s'.expireStuffTime = s.expireStuffTime ∨
      ops = [.expire s'.now] ∧ s'.expireStuffTime < s'.now + 360) (hpast : time ≤ s'.now)
    (hrecent : s'.now ≤ time + 32 * 60) :
    (∀ op ∈ (announced sha256 s c).toList, op.Spares time) ∧ ∀ op ∈ ops, op.Spares time := by
  constructor
  · intro op hop
    obtain ⟨sa, m, -, -, rfl⟩ := announced_eq_some (Option.mem_toList.mp hop)
    rw [hnow] at hpast
    exact hpast
  · rcases hops with ⟨rfl, -⟩ | ⟨rfl, -⟩
    · exact List.forall_mem_nil _
    · exact List.forall_mem_singleton.mpr hrecent

/-- What a call announces is there after it. -/
theorem since_announced (h : Called sha256 s c s') (hok : s.Ok) {time : Int} {hash : Hash} {sa : SockAddr}
    {port : UInt16} (hannounced : announced sha256 s c = some (.announce time hash sa port))
    (hroom : ¬s.store.contents.Full hash (sa.ip, port)) :
    time = s'.now ∧ s'.store.contents.Since hash (sa.ip, port) time := by
  obtain ⟨sa', m, -, -, hop⟩ := announced_eq_some hannounced
  have htime : time = s'.now := (StoreOp.announce.inj hop).1.trans h.now.symm
  obtain ⟨ops, hops, hcontents⟩ := contents_called h hok
  obtain ⟨-, hspares⟩ := @spares_called sha256 _ _ _ time ops h.now hops htime.le (by omega)
  refine ⟨htime, ?_⟩
  rw [hcontents, hannounced]
  exact (Swarms.since_announce hroom).run hspares

/-- An announcement with a token for its sender, where the hash of bytes is those bytes. -/
abbrev announcePacket : Packet where
  buf := ascii "d1:ad2:id20:" ++ List.replicate 20 1 ++ ascii "9:info_hash20:" ++ List.replicate 20 2 ++
    ascii "4:porti80e5:token8:" ++ List.replicate 8 7 ++ ascii "e1:q13:announce_peer1:t4:abcd1:y1:qe"
  terminated := true
  sender := .inet (Vector.replicate 4 10) 6881
  unset := Vector.replicate 16 0

/-- It is announced where nothing else happened. -/
theorem exists_announced : ∃ s₀ s,
    dhtInit .blank true true zeroes none 0 (fun _ => 0) (fun _ => some (Vector.replicate 8 7)) = some s₀ ∧
    s₀.call (fun bytes => bytes) (.periodic 5 (some announcePacket) false) = some s ∧
    announced (fun bytes => bytes) s₀ (.periodic 5 (some announcePacket) false) =
      some (.announce 5 (Vector.replicate 20 2) announcePacket.sender 80) ∧
    ¬s₀.store.contents.Full (Vector.replicate 20 2) (announcePacket.sender.ip, 80) := by
  obtain ⟨s₀, hinit, hmyid, -, -, hsecret⟩ := exists_start zeroes
  have hstarted := started_dhtInit hinit
  obtain ⟨m, hparse, hid, hhash, htoken, hport⟩ : ∃ m,
      parseMessage announcePacket.unset announcePacket.buf = some (.announcePeer, m) ∧ m.id = Vector.replicate 20 1 ∧
        m.infoHash = Vector.replicate 20 2 ∧ m.token = List.replicate 8 7 ∧ m.port = 80 :=
    ⟨{ tid := ascii "abcd", id := Vector.replicate 20 1, infoHash := Vector.replicate 20 2, target := zeroes, port := 80,
       token := List.replicate 8 7, nodes := [], nodes6 := [], values := [], values6 := [], want := -1 },
      by decide +kernel, rfl, rfl, rfl, rfl⟩
  have hacted := hstarted.acted (by decide +kernel) (by decide) rfl hparse (by rw [hid, hmyid]; decide) 5 false
  obtain ⟨s, hcall, -⟩ :=
    @called_call _ (fun bytes => bytes) (ok_dhtInit hinit) (.periodic 5 (some announcePacket) false)
  refine ⟨s₀, s, hinit, hcall, ?_, ?_⟩
  · have hmade : (m.token == makeToken (fun bytes => bytes) announcePacket.sender s₀.secrets.secret) = true := by
      rw [htoken, hsecret]
      decide
    have hmatch : tokenMatch (fun bytes => bytes) s₀.secrets m.token announcePacket.sender = true := by
      rw [tokenMatch, hmade, Bool.true_or, htoken]
      rfl
    have hzero : m.infoHash ≠ zeroes := by
      rw [hhash]
      decide
    have hopen : m.port ≠ 0 := by
      rw [hport]
      decide
    rw [announced, hacted, Option.bind_some]
    dsimp only
    rw [admitted, if_pos ⟨rfl, hzero, hmatch, hopen⟩, hhash, hport]
    rfl
  · rintro ⟨-, hmany | ⟨-, hmany⟩⟩
    · simp [hstarted.contents, Swarms.peers, dhtMaxPeers] at hmany
    · simp [hstarted.contents, Swarms.hashes, dhtMaxHashes] at hmany

theorem contents_run (hs : Reachable sha256 s) (hrun : s.calls sha256 cs = some s') :
    ∃ ops, ops.filter StoreOp.announces = announcements sha256 s cs ∧
      s'.store.contents = run Swarms.apply s.store.contents ops := by
  refine attempts_induction (motive := fun cs s' => ∃ ops, ops.filter StoreOp.announces = announcements sha256 s cs ∧
    s'.store.contents = run Swarms.apply s.store.contents ops) ⟨[], rfl, rfl⟩ ?_ cs s' hrun
  rintro front s₁ c s₂ hfront ⟨ops, hfilter, hcontents⟩ hcall
  have hs₁ := reachable_calls hs hfront
  obtain ⟨more, hmore, hcontents'⟩ := contents_called (called_of_reachable hs₁ hcall) (ok_of_reachable hs₁)
  have hnone : more.filter StoreOp.announces = [] := by
    rcases hmore with ⟨rfl, -⟩ | ⟨rfl, -⟩
    · rfl
    · rfl
  have hall : (announced sha256 s₁ c).toList.filter StoreOp.announces = (announced sha256 s₁ c).toList := by
    rw [List.filter_eq_self]
    intro op hop
    obtain ⟨sa, m, -, -, rfl⟩ := announced_eq_some (Option.mem_toList.mp hop)
    rfl
  refine ⟨ops ++ ((announced sha256 s₁ c).toList ++ more), ?_, ?_⟩
  · calc (ops ++ ((announced sha256 s₁ c).toList ++ more)).filter StoreOp.announces
        = announcements sha256 s front ++ (announced sha256 s₁ c).toList := by
          rw [List.filter_append, List.filter_append, hnone, hall, hfilter, List.append_nil]
      _ = announcements sha256 s (front ++ [c]) := (emitted_concat hfront c).symm
  · calc s₂.store.contents
        = run Swarms.apply (run Swarms.apply s.store.contents ops) ((announced sha256 s₁ c).toList ++ more) := by
          rw [hcontents', hcontents]
      _ = run Swarms.apply s.store.contents (ops ++ ((announced sha256 s₁ c).toList ++ more)) :=
          List.foldl_append.symm

/-- **The store over a run is the map of what was announced**, with an expiry now and then, and it has no
more hashes and peers than there is room for. -/
theorem contents_calls (hs : Reachable sha256 s) (hrun : s.calls sha256 cs = some s') :
    (∃ ops, ops.filter StoreOp.announces = announcements sha256 s cs ∧
      s'.store.contents = run Swarms.apply s.store.contents ops) ∧
      s'.store.storage.length ≤ dhtMaxHashes ∧ ∀ st ∈ s'.store.storage, st.peers.length ≤ dhtMaxPeers := by
  have hok : s'.Ok := ok_of_reachable (reachable_calls hs hrun)
  exact ⟨contents_run hs hrun, hok.store.room, fun st hst =>
    (hok.store.storage st hst).room.trans (hok.store.storage st hst).limit⟩

theorem contents_calls_announced : ∃ s₀ s : Globals,
    s₀.calls (fun bytes => bytes) [.periodic 5 (some announcePacket) false] = some s ∧
    (∃ ops, ops.filter StoreOp.announces = [.announce 5 (Vector.replicate 20 2) announcePacket.sender 80] ∧
      s.store.contents = run Swarms.apply s₀.store.contents ops) ∧
    ∀ st ∈ s.store.storage, st.peers.length ≤ dhtMaxPeers := by
  obtain ⟨s₀, s, hinit, hcall, hannounced, -⟩ := exists_announced
  have hs₀ : Reachable (fun bytes => bytes) s₀ := Reachable.init _ _ _ _ _ _ _ _ hinit
  obtain ⟨hcontents, -, hpeers⟩ := contents_calls hs₀ (calls_singleton hcall)
  have hone : announcements (fun bytes => bytes) s₀ [.periodic 5 (some announcePacket) false] =
      [.announce 5 (Vector.replicate 20 2) announcePacket.sender 80] := by
    rw [announcements, emitted, hannounced, hcall]
    rfl
  rw [hone] at hcontents
  exact ⟨s₀, s, calls_singleton hcall, hcontents, hpeers⟩

/-- What the announcement stores. -/
theorem exists_stored : ∃ s₀ s : Globals,
    dhtInit .blank true true zeroes none 0 (fun _ => 0) (fun _ => some (Vector.replicate 8 7)) = some s₀ ∧
    s₀.call (fun bytes => bytes) (.periodic 5 (some announcePacket) false) = some s ∧
    ∃ time, s.store.contents (Vector.replicate 20 2) (announcePacket.sender.ip, 80) = some time ∧ 5 ≤ time := by
  obtain ⟨s₀, s, hinit, hcall, hannounced, hroom⟩ := exists_announced
  have hs₀ : Reachable (fun bytes => bytes) s₀ := Reachable.init _ _ _ _ _ _ _ _ hinit
  exact ⟨s₀, s, hinit, hcall,
    (since_announced (called_of_reachable hs₀ hcall) (ok_dhtInit hinit) hannounced hroom).2⟩

/-- **Whatever is stored was announced with a token**: by a call of the run, at the time that is stored, by
the address that is stored, with a token that was good for that address then. -/
theorem stored_was_announced (hinit : dhtInit blacklist socket socket6 id v now random urandom = some s₀)
    (hrun : s₀.calls sha256 cs = some s) {hash : Hash} {addr : Bytes × UInt16} {time : Int}
    (hstored : s.store.contents hash addr = some time) :
    ∃ front c rest s₁ sa m, cs = front ++ c :: rest ∧ s₀.calls sha256 front = some s₁ ∧
      s₁.acted c = some (sa, .announcePeer, m) ∧ tokenMatch sha256 s₁.secrets m.token sa = true ∧
      m.infoHash = hash ∧ addr = (sa.ip, m.port) ∧ time = s₁.clock c := by
  have hs₀ : Reachable sha256 s₀ := Reachable.init _ _ _ _ _ _ _ _ hinit
  obtain ⟨ops, hfilter, hcontents⟩ := contents_run hs₀ hrun
  rw [hcontents, (started_dhtInit hinit).contents] at hstored
  rcases Swarms.run_eq_some hstored with hnone | ⟨sa, port, hop, haddr⟩
  · cases hnone
  · have hmem : StoreOp.announce time hash sa port ∈ announcements sha256 s₀ cs := by
      rw [← hfilter, List.mem_filter]
      exact ⟨hop, rfl⟩
    obtain ⟨front, c, rest, s₁, hsplit, hfront, hannounced⟩ := exists_of_mem_emitted hrun hmem
    obtain ⟨sa', m, hacted, htoken, heq⟩ := announced_eq_some (Option.mem_toList.mp hannounced)
    obtain ⟨rfl, rfl, rfl, rfl⟩ := StoreOp.announce.inj heq
    exact ⟨front, c, rest, s₁, sa, m, hsplit, hfront, hacted, htoken, rfl, haddr, rfl⟩

theorem stored_was_announced_reached : ∃ s₀ s : Globals,
    s₀.calls (fun bytes => bytes) [.periodic 5 (some announcePacket) false] = some s ∧
    ∃ (time : Int) (front : List Call) (c : Call) (rest : List Call) (s₁ : Globals) (sa : SockAddr) (m : Message),
      [.periodic 5 (some announcePacket) false] = front ++ c :: rest ∧ s₀.calls (fun bytes => bytes) front = some s₁ ∧
      s₁.acted c = some (sa, .announcePeer, m) ∧ tokenMatch (fun bytes => bytes) s₁.secrets m.token sa = true ∧
      m.infoHash = Vector.replicate 20 2 ∧ (announcePacket.sender.ip, 80) = (sa.ip, m.port) ∧ time = s₁.clock c := by
  obtain ⟨s₀, s, hinit, hcall, time, hstored, -⟩ := exists_stored
  exact ⟨s₀, s, calls_singleton hcall, time, stored_was_announced hinit (calls_singleton hcall) hstored⟩

/-! ### How long it stays -/

theorem since_calls (hs : Reachable sha256 s) (hrun : s.calls sha256 cs = some s') (htimely : s.Timely cs)
    {hash : Hash} {addr : Bytes × UInt16} {time : Int} (hpast : time ≤ s.now)
    (hsince : s.store.contents.Since hash addr time) (hrecent : s'.now ≤ time + 32 * 60) :
    s'.store.contents.Since hash addr time := by
  have hall : time ≤ s'.now ∧ (s'.now ≤ time + 32 * 60 → s'.store.contents.Since hash addr time) := by
    refine (timely_induction (motive := fun _ s' => time ≤ s'.now ∧
      (s'.now ≤ time + 32 * 60 → s'.store.contents.Since hash addr time)) hs ⟨hpast, fun _ => hsince⟩ ?_
      hrun htimely).1
    rintro front s₁ c s₂ hfront hcalled hlater ⟨hpast₁, hsince₁⟩
    refine ⟨hpast₁.trans hlater, fun hrecent₂ => ?_⟩
    obtain ⟨ops, hops, hcontents⟩ := contents_called hcalled (ok_of_reachable (reachable_calls hs hfront))
    obtain ⟨hfirst, hthen⟩ :=
      @spares_called sha256 _ _ _ time ops hcalled.now hops (hpast₁.trans hlater) hrecent₂
    rw [hcontents]
    exact (hsince₁ (hlater.trans hrecent₂)).run (List.forall_mem_append.mpr ⟨hfirst, hthen⟩)
  exact hall.2 hrecent

/-- **What was announced stays for 32 minutes**, where there was room for it and the clock never goes back. -/
theorem announced_stays (hinit : dhtInit blacklist socket socket6 id v now random urandom = some s₀)
    (htimely : s₀.Timely (front ++ c :: rest)) (hfront : s₀.calls sha256 front = some s₁)
    (hcall : s₁.call sha256 c = some s₂) (hrest : s₂.calls sha256 rest = some s) {time : Int} {hash : Hash}
    {sa : SockAddr} {port : UInt16} (hannounced : announced sha256 s₁ c = some (.announce time hash sa port))
    (hroom : ¬s₁.store.contents.Full hash (sa.ip, port)) (hrecent : s.now ≤ time + 32 * 60) :
    ∃ t, s.store.contents hash (sa.ip, port) = some t ∧ time ≤ t := by
  have hs₀ : Reachable sha256 s₀ := Reachable.init _ _ _ _ _ _ _ _ hinit
  have hs₁ := reachable_calls hs₀ hfront
  have hcalled := called_of_reachable hs₁ hcall
  rw [← List.singleton_append, ← List.append_assoc] at htimely
  obtain ⟨hbefore, hafter⟩ := htimely.split
  have hrun : s₀.calls sha256 (front ++ [c]) = some s₂ := attempts_concat_eq_some_iff.mpr ⟨s₁, hfront, hcall⟩
  have hnow₂ : s₂.now = s₀.now ∨ s₂.now ∈ (front ++ [c]).filterMap Globals.time :=
    (timely_induction (motive := fun _ _ => True) hs₀ trivial (fun _ _ _ _ _ _ _ _ => trivial) hrun hbefore).2
  obtain ⟨htime, hsince⟩ := since_announced hcalled (ok_of_reachable hs₁) hannounced hroom
  exact since_calls (hs₁.call c hcall) hrest (hafter s₂ hnow₂) htime.le hsince hrecent

theorem announced_stays_here : ∃ (s : Globals) (t : Int),
    s.store.contents (Vector.replicate 20 2) (announcePacket.sender.ip, 80) = some t ∧ 5 ≤ t := by
  obtain ⟨s₀, s, hinit, hcall, hannounced, hroom⟩ := exists_announced
  have hs₀ : Reachable (fun bytes => bytes) s₀ := Reachable.init _ _ _ _ _ _ _ _ hinit
  have htimely : s₀.Timely ([] ++ .periodic 5 (some announcePacket) false :: []) :=
    (started_dhtInit hinit).timely _ _ (by decide)
  have hrecent : s.now ≤ 5 + 32 * 60 := by
    rw [show s.now = 5 from (called_of_reachable hs₀ hcall).now]
    decide
  exact ⟨s, announced_stays hinit htimely rfl hcall rfl hannounced hroom hrecent⟩

/-- What is stored was announced at most 32 minutes before the last expiry, and the next one is not far. -/
def Aged (s : Globals) : Prop :=
  ∃ expired ≤ s.now, s.expireStuffTime < expired + 360 ∧
    ∀ hash addr time, s.store.contents hash addr = some time → expired ≤ time + 32 * 60 ∧ time ≤ s.now

theorem aged_called (h : Called sha256 s c s') (hok : s.Ok) (hlater : s.now ≤ s'.now) (haged : s.Aged) : s'.Aged := by
  obtain ⟨expired, hpassed, htimer, hold⟩ := haged
  obtain ⟨ops, hops, hcontents⟩ := contents_called h hok
  have hannounced : ∀ hash addr time,
      run Swarms.apply s.store.contents (announced sha256 s c).toList hash addr = some time →
        expired ≤ time + 32 * 60 ∧ time ≤ s'.now := by
    intro hash addr time hfound
    rcases Swarms.run_eq_some hfound with hbefore | ⟨sa, port, hop, -⟩
    · obtain ⟨hexpired, hpast⟩ := hold hash addr time hbefore
      exact ⟨hexpired, hpast.trans hlater⟩
    · obtain ⟨sa', m, -, -, heq⟩ := announced_eq_some (Option.mem_toList.mp hop)
      have htime : time = s'.now := (StoreOp.announce.inj heq).1.trans h.now.symm
      omega
  rw [run, List.foldl_append] at hcontents
  rcases hops with ⟨rfl, hsame⟩ | ⟨rfl, hlate⟩
  · refine ⟨expired, hpassed.trans hlater, hsame ▸ htimer, fun hash addr time hfound => ?_⟩
    rw [hcontents] at hfound
    exact hannounced hash addr time hfound
  · refine ⟨s'.now, le_refl _, hlate, fun hash addr time hfound => ?_⟩
    rw [hcontents] at hfound
    obtain ⟨hkept, hfresh⟩ := Option.filter_eq_some_iff.mp hfound
    simp only [Bool.not_eq_true', decide_eq_false_iff_not] at hfresh
    exact ⟨by omega, (hannounced hash addr time hkept).2⟩

/-- **Nothing that is stored is as old as 38 minutes** after a call of `dht_periodic`, where the clock never
goes back. -/
theorem stored_not_old (hinit : dhtInit blacklist socket socket6 id v now random urandom = some s₀)
    (hrun : s₀.calls sha256 cs = some s₁) {later : Int} {packet : Option Packet} {callback : Bool}
    (htimely : s₀.Timely (cs ++ [.periodic later packet callback]))
    (hcall : s₁.call sha256 (.periodic later packet callback) = some s)
    (hclosed : ∀ p, packet = some p → p.terminated = true) {hash : Hash} {addr : Bytes × UInt16} {time : Int}
    (hstored : s.store.contents hash addr = some time) : time ≤ later ∧ later < time + 38 * 60 := by
  have hs₀ : Reachable sha256 s₀ := Reachable.init _ _ _ _ _ _ _ _ hinit
  have hstarted := started_dhtInit hinit
  have haged₀ : s₀.Aged := by
    refine ⟨s₀.now, le_refl _, hstarted.clock.symm ▸ hstarted.timer, fun hash addr time hfound => ?_⟩
    rw [hstarted.store] at hfound
    cases hfound
  have hall : s₀.calls sha256 (cs ++ [.periodic later packet callback]) = some s :=
    attempts_concat_eq_some_iff.mpr ⟨s₁, hrun, hcall⟩
  obtain ⟨expired, -, htimer, hold⟩ : s.Aged :=
    (timely_induction (motive := fun _ s => s.Aged) hs₀ haged₀ (fun front s₁ c s₂ hfront hcalled hlater haged =>
      aged_called hcalled (ok_of_reachable (reachable_calls hs₀ hfront)) hlater haged) hall htimely).1
  obtain ⟨s', hdone, hcalled, hafter⟩ :=
    @called_dhtPeriodic _ sha256 (ok_of_reachable (reachable_calls hs₀ hrun)) later packet callback
  obtain rfl := Option.some.inj (hdone.symm.trans hcall)
  have hnow : s'.now = later := hcalled.now
  have hdue : later < s'.expireStuffTime := hafter hclosed
  obtain ⟨hexpired, hpast⟩ := hold hash addr time hstored
  omega

theorem stored_not_old_here : ∃ (s : Globals) (time : Int),
    s.store.contents (Vector.replicate 20 2) (announcePacket.sender.ip, 80) = some time ∧
      time ≤ 5 ∧ 5 < time + 38 * 60 := by
  obtain ⟨s₀, s, hinit, hcall, time, hstored, -⟩ := exists_stored
  have htimely : s₀.Timely ([] ++ [.periodic 5 (some announcePacket) false]) :=
    (started_dhtInit hinit).timely _ _ (by decide)
  have hclosed : ∀ p, some announcePacket = some p → p.terminated = true := by
    intro p hp
    rw [← Option.some.inj hp]
  exact ⟨s, time, hstored, stored_not_old hinit rfl htimely hcall hclosed hstored⟩

end Globals

end CLibp2p.Routing.Dht
