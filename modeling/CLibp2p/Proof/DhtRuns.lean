import CLibp2p.Proof.DhtBlacklist

/-!
# Runs of calls

Who is left alone and how many requests are served, over every run of calls that starts with `dht_init`.
-/

namespace CLibp2p.Routing.Dht

open Duplex Machine

/-! ### The rate limit -/

namespace RateLimit

variable {l : RateLimit} {now now' : Int}

/-- The rate limit as it is as long as the clock does not go back. -/
structure Fits (l : RateLimit) (now : Int) : Prop where
  nonneg : 0 ≤ l.tokenBucketTokens
  room : l.tokenBucketTokens ≤ maxTokenBucketTokens
  past : l.tokenBucketTime ≤ now

/-- The tokens that are there, and those that the next refill is going to bring. -/
def level (l : RateLimit) (now : Int) : Int :=
  l.tokenBucketTokens + min maxTokenBucketTokens (100 * (now - l.tokenBucketTime))

theorem Fits.later (h : Fits l now) (hle : now ≤ now') :
    Fits l now' ∧ l.level now' ≤ l.level now + 100 * (now' - now) := by
  refine ⟨⟨h.nonneg, h.room, h.past.trans hle⟩, ?_⟩
  rw [level, level]
  omega

theorem Fits.level_bounds (h : Fits l now) : 0 ≤ l.level now ∧ l.level now ≤ 800 := by
  have hnonneg : 0 ≤ l.tokenBucketTokens := h.nonneg
  have hroom : l.tokenBucketTokens ≤ maxTokenBucketTokens := h.room
  have hpast : l.tokenBucketTime ≤ now := h.past
  rw [maxTokenBucketTokens] at hroom
  rw [level, maxTokenBucketTokens]
  omega

theorem tokenBucket_spec (h : Fits l now) :
    Fits (l.tokenBucket now).1 now ∧
      (if (l.tokenBucket now).2 then 1 else 0) + (l.tokenBucket now).1.level now ≤ l.level now := by
  have hnonneg : 0 ≤ l.tokenBucketTokens := h.nonneg
  have hroom : l.tokenBucketTokens ≤ 400 := h.room
  have hpast : l.tokenBucketTime ≤ now := h.past
  have hnarrow : (min maxTokenBucketTokens (100 * (now - l.tokenBucketTime))).toInt32.toInt =
      min maxTokenBucketTokens (100 * (now - l.tokenBucketTime)) := by
    rw [maxTokenBucketTokens]
    exact Int32.toInt_ofInt_of_le (by omega) (by omega)
  rw [tokenBucket, hnarrow, maxTokenBucketTokens]
  by_cases hempty : l.tokenBucketTokens = 0
  · rw [if_pos hempty]
    dsimp only
    by_cases hstill : min 400 (100 * (now - l.tokenBucketTime)) = 0
    · rw [if_pos hstill, if_neg Bool.false_ne_true]
      refine ⟨⟨hstill.ge, min_le_left _ _, le_refl now⟩, ?_⟩
      · rw [level, level, maxTokenBucketTokens]
        dsimp only
        omega
    · rw [if_neg hstill, if_pos rfl]
      refine ⟨⟨?_, ?_, le_refl now⟩, ?_⟩
      · dsimp only
        omega
      · rw [maxTokenBucketTokens]
        dsimp only
        omega
      · rw [level, level, maxTokenBucketTokens]
        dsimp only
        omega
  · rw [if_neg hempty, if_neg hempty, if_pos rfl]
    refine ⟨⟨?_, ?_, hpast⟩, ?_⟩
    · dsimp only
      omega
    · rw [maxTokenBucketTokens]
      dsimp only
      omega
    · rw [level, level]
      dsimp only
      omega

end RateLimit

/-! ### From the start -/

namespace Globals

variable {sha256 : Bytes → Bytes} {s s' s₀ s₁ s₂ : Globals} {c : Call} {cs front window : List Call}

theorem called_of_reachable (hs : Reachable sha256 s) {c : Call} (hcall : s.call sha256 c = some s') :
    Called sha256 s c s' := by
  obtain ⟨s'', hcall', hcalled⟩ := @called_call _ sha256 (ok_of_reachable hs) c
  obtain rfl := Option.some.inj (hcall'.symm.trans hcall)
  exact hcalled

/-- The clock never goes back. -/
def Timely (s : Globals) (cs : List Call) : Prop := (s.now :: cs.filterMap time).Pairwise (· ≤ ·)

theorem Timely.split (h : s.Timely (front ++ window)) :
    s.Timely front ∧ ∀ s₁ : Globals, (s₁.now = s.now ∨ s₁.now ∈ front.filterMap time) → s₁.Timely window := by
  rw [Timely, List.filterMap_append, ← List.cons_append, List.pairwise_append] at h
  obtain ⟨hfront, hwindow, hacross⟩ := h
  exact ⟨hfront, fun s₁ hnow =>
    List.pairwise_cons.mpr ⟨fun t ht => hacross s₁.now (List.mem_cons.mpr hnow) t ht, hwindow⟩⟩

/-- What calls keep as time goes on holds wherever such a run ends. -/
theorem timely_induction {motive : List Call → Globals → Prop} (hs : Reachable sha256 s) (hnil : motive [] s)
    (hconcat : ∀ front s₁ c s₂, s.calls sha256 front = some s₁ → Called sha256 s₁ c s₂ → s₁.now ≤ s₂.now →
      motive front s₁ → motive (front ++ [c]) s₂)
    (hrun : s.calls sha256 cs = some s') (htimely : s.Timely cs) :
    motive cs s' ∧ (s'.now = s.now ∨ s'.now ∈ cs.filterMap time) := by
  revert htimely
  refine attempts_induction (motive := fun cs s' => s.Timely cs → motive cs s' ∧
    (s'.now = s.now ∨ s'.now ∈ cs.filterMap time)) (fun _ => ⟨hnil, Or.inl rfl⟩) ?_ cs s' hrun
  intro front s₁ c s₂ hfront ih hcall htimely
  obtain ⟨hbefore, hafter⟩ := htimely.split
  obtain ⟨hfront', hnow₁⟩ := ih hbefore
  have hcalled := called_of_reachable (reachable_calls hs hfront) hcall
  have hlast := hafter s₁ hnow₁
  rw [List.filterMap_append]
  cases htime : time c with
  | none =>
      have hnow₂ : s₂.now = s₁.now := by rw [hcalled.now, clock, htime, Option.getD_none]
      refine ⟨hconcat front s₁ c s₂ hfront hcalled hnow₂.ge hfront', ?_⟩
      rw [hnow₂]
      exact hnow₁.imp_right (List.mem_append_left _)
  | some t =>
      have hnow₂ : s₂.now = t := by rw [hcalled.now, clock, htime, Option.getD_some]
      rw [Timely, List.filterMap_cons_some htime, List.pairwise_cons] at hlast
      refine ⟨hconcat front s₁ c s₂ hfront hcalled ?_ hfront', Or.inr (List.mem_append_right _ ?_)⟩
      · rw [hnow₂]
        exact hlast.1 t List.mem_cons_self
      · rw [hnow₂, List.filterMap_cons_some htime]
        exact List.mem_cons_self

variable {blacklist : Blacklist} {socket socket6 : Bool} {id : Hash} {v : Option (Vector UInt8 4)} {now : Int} {random : Nat → Nat}
  {urandom : Nat → Option Secret}

/-- What `dht_init` leaves behind, with nobody blacklisted where nobody was before. -/
structure Started (blacklist : Blacklist) (now : Int) (s : Globals) : Prop where
  clock : s.now = now
  limit : s.rateLimit = { tokenBucketTime := now, tokenBucketTokens := maxTokenBucketTokens }
  store : s.store = { storage := [], numstorage := 0 }
  timer : s.expireStuffTime < now + 360
  blamed : blacklist = .blank → s.Blamed []

theorem started_dhtInit (hinit : dhtInit blacklist socket socket6 id v now random urandom = some s) :
    Started blacklist now s := by
  have hr := ok_initTables blacklist socket socket6 id v now fun i => random (i + 3)
  have hexpired := (Tables.expireBuckets_spec hr .inet).1
  have hexpired6 := hexpired.trans (Tables.expireBuckets_spec hexpired.ok .inet6).1
  rw [dhtInit] at hinit
  dsimp only at hinit
  split at hinit
  · cases hinit
  · obtain rfl := Option.some.inj hinit
    refine ⟨hexpired6.now, rfl, rfl, hexpired6.late, fun hblank => ?_⟩
    exact blamed_of_sends hexpired6.sends (blamed_blank hblank rfl)

/-- The first message after the first `dht_init` is acted upon, if it is one to act upon at all. -/
theorem Started.acted (hstarted : Started .blank now s) {p : Packet} {type : MessageType} {m : Message}
    (hlength : p.buf.length ≠ 0) (hfine : isMartian p.sender = false) (hclosed : p.terminated = true)
    (hparse : parseMessage p.unset p.buf = some (type, m))
    (hkept : ¬(type = .error ∨ m.id = zeroes ∨ m.id = s.myid)) (later : Int) (callback : Bool) :
    s.acted (.periodic later (some p) callback) = some (p.sender, type, m) := by
  have hwelcome : s.nodeBlacklisted p.sender ≠ true := by
    rw [Ne, nodeBlacklisted_iff (hstarted.blamed rfl)]
    exact List.not_mem_nil
  have hread : ¬(p.buf.length = 0 ∨ isMartian p.sender = true ∨ s.nodeBlacklisted p.sender = true ∨
      p.terminated = false) := by
    rw [hfine, hclosed]
    simp [hlength, hwelcome]
  have hheard : s.heard (.periodic later (some p) callback) = some (p.sender, type, m) := by
    rw [heard, if_neg hread, hparse, Option.bind_some]
    exact if_neg hkept
  have hroom : (s.limited (.periodic later (some p) callback)).2 = true := by
    rw [limited, hstarted.limit]
    rfl
  rw [Globals.acted, hheard]
  exact Option.filter_some_pos (Bool.or_eq_true_iff.mpr (Or.inr hroom))

theorem Started.timely (hstarted : Started blacklist now s) {later : Int} (packet : Option Packet) (callback : Bool)
    (hlater : now ≤ later) : s.Timely [.periodic later packet callback] := by
  rw [Timely, hstarted.clock]
  exact List.pairwise_pair.mpr hlater

theorem calls_singleton (hcall : s.call sha256 c = some s') : s.calls sha256 [c] = some s' := by
  rw [calls, attempts_cons, hcall, Option.bind_some]
  rfl

/-- The request of a call, if it is acted upon. -/
def granted (s : Globals) (c : Call) : Option (SockAddr × MessageType × Message) :=
  (s.acted c).filter fun (_, type, _) => type ≠ .reply

/-- The requests that are acted upon in a run, in order. -/
def served (sha256 : Bytes → Bytes) (s : Globals) (cs : List Call) : List (SockAddr × MessageType × Message) :=
  emitted (call sha256) (fun s c => (s.granted c).toList) s cs

/-- A request is acted upon only where the rate limit lets it in. -/
theorem length_granted (s : Globals) (c : Call) :
    (s.granted c).toList.length = if s.requested c ∧ (s.limited c).2 then 1 else 0 := by
  rw [granted, acted, requested]
  cases s.heard c with
  | none => simp
  | some heard =>
      obtain ⟨sender, type, m⟩ := heard
      by_cases hreply : type = .reply
      · simp [Option.filter, hreply]
      · by_cases hroom : (s.limited c).2 = true
        · simp [Option.filter, hreply, hroom]
        · simp [Option.filter, hreply, hroom]

theorem served_called (h : Called sha256 s c s') (hfits : s.rateLimit.Fits s.now) (hlater : s.now ≤ s'.now) :
    s'.rateLimit.Fits s'.now ∧
      ((s.granted c).toList.length : Int) + s'.rateLimit.level s'.now ≤
        s.rateLimit.level s.now + 100 * (s'.now - s.now) := by
  obtain ⟨hfits', hlevel⟩ := hfits.later hlater
  rw [length_granted, h.limit, limited, ← h.now]
  by_cases hrequest : s.requested c = true
  · obtain ⟨hnext, hspent⟩ := RateLimit.tokenBucket_spec hfits'
    rw [if_pos hrequest]
    refine ⟨hnext, ?_⟩
    simp only [hrequest, true_and]
    split at hspent
    · rename_i hroom
      rw [if_pos hroom]
      omega
    · rename_i hroom
      rw [if_neg hroom]
      omega
  · rw [if_neg hrequest, if_neg (fun both => hrequest both.1)]
    exact ⟨hfits', by omega⟩

/-- What is served in a run is paid for. -/
theorem served_calls (hs : Reachable sha256 s) (hfits : s.rateLimit.Fits s.now) (hrun : s.calls sha256 cs = some s')
    (htimely : s.Timely cs) :
    (s'.rateLimit.Fits s'.now ∧ ((served sha256 s cs).length : Int) + s'.rateLimit.level s'.now ≤
      s.rateLimit.level s.now + 100 * (s'.now - s.now)) ∧ (s'.now = s.now ∨ s'.now ∈ cs.filterMap time) := by
  refine timely_induction (motive := fun cs s' => s'.rateLimit.Fits s'.now ∧ ((served sha256 s cs).length : Int) +
    s'.rateLimit.level s'.now ≤ s.rateLimit.level s.now + 100 * (s'.now - s.now)) hs ?_ ?_ hrun htimely
  · refine ⟨hfits, ?_⟩
    rw [served, emitted, List.length_nil]
    omega
  · rintro front s₁ c s₂ hfront hcalled hlater ⟨hfits₁, hpaid⟩
    obtain ⟨hfits₂, hpaid'⟩ := served_called hcalled hfits₁ hlater
    refine ⟨hfits₂, ?_⟩
    rw [served, emitted_concat hfront, List.length_append, Nat.cast_add]
    rw [served] at hpaid
    omega

/-- **At most 100 requests are served in a second**, and 800 more, in every part of a run whose clock never
goes back. -/
theorem served_le (hinit : dhtInit blacklist socket socket6 id v now random urandom = some s₀)
    (htimely : s₀.Timely (front ++ window)) (hfront : s₀.calls sha256 front = some s₁)
    (hwindow : s₁.calls sha256 window = some s₂) :
    ((served sha256 s₁ window).length : Int) ≤ 800 + 100 * (s₂.now - s₁.now) := by
  have hs₀ : Reachable sha256 s₀ := Reachable.init _ _ _ _ _ _ _ _ hinit
  have hstarted := started_dhtInit hinit
  have hfits₀ : s₀.rateLimit.Fits s₀.now := by
    rw [hstarted.limit, hstarted.clock]
    exact ⟨(by decide : (0 : Int) ≤ 400), le_refl _, le_refl now⟩
  obtain ⟨hbefore, hafter⟩ := htimely.split
  obtain ⟨⟨hfits₁, -⟩, hnow₁⟩ := served_calls hs₀ hfits₀ hfront hbefore
  obtain ⟨⟨hfits₂, hpaid⟩, -⟩ := served_calls (reachable_calls hs₀ hfront) hfits₁ hwindow (hafter s₁ hnow₁)
  have hstart := hfits₁.level_bounds
  have hend := hfits₂.level_bounds
  omega

/-- A `ping`, at two times. -/
abbrev pings : List Call :=
  let packet : Packet :=
    { buf := ascii "d1:ad2:id20:" ++ List.replicate 20 1 ++ ascii "e1:q4:ping1:t4:abcd1:y1:qe"
      terminated := true
      sender := .inet (Vector.replicate 4 10) 6881
      unset := Vector.replicate 16 0 }
  [.periodic 5 (some packet) false, .periodic 6 (some packet) false]

/-- Both are served. -/
theorem served_le_pings : ∃ s₁ s₂, populating = some s₁ ∧ s₁.calls (fun bytes => bytes) pings = some s₂ ∧
    (served (fun bytes => bytes) s₁ pings).length = 2 ∧ (2 : Int) ≤ 800 + 100 * (s₂.now - s₁.now) := by
  have htwo : populating.map (fun s => (served (fun bytes => bytes) s pings).length) = some 2 := by
    decide +kernel
  obtain ⟨s₁, hs₁, hserved⟩ := Option.map_eq_some_iff.mp htwo
  obtain ⟨s₀, hinit, hjoins⟩ := Option.bind_eq_some_iff.mp hs₁
  have hsome : (populating.bind fun s => s.calls (fun bytes => bytes) pings).isSome = true := by
    decide +kernel
  rw [hs₁, Option.bind_some] at hsome
  obtain ⟨s₂, hpings⟩ := Option.isSome_iff_exists.mp hsome
  have htimely : s₀.Timely (joins ++ pings) := by
    rw [Timely, (started_dhtInit hinit).clock]
    decide
  have hbound := served_le hinit htimely hjoins hpings
  rw [hserved] at hbound
  exact ⟨s₁, s₂, hs₁, hpings, hserved, hbound⟩

end Globals

end CLibp2p.Routing.Dht
