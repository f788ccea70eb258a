import CLibp2p.Proof.YamuxV1Backlog

/-!
# The headers a v1 session writes

A header that went through `encode_frame` reads back on hosts of either byte order. `yamux_session_close`
and `yamux_session_ping` write the structure as it is in memory, which a little-endian host keeps in the
wrong order: their headers read back only when every field is its own swap.
-/

namespace CLibp2p.YamuxV1

open Duplex Machine

/-- A reader on either kind of host finds the header that the operation set. -/
def ReadsBack (entry : Frame × Bytes) : Prop :=
  ∀ reader, Frame.read reader entry.2 = some entry.1

/-- `ctx'` recorded further headers, all of them encoded. -/
def AppendsEncoded (ctx ctx' : Context) : Prop :=
  ∃ added, ctx'.headers = ctx.headers ++ added ∧ ∀ entry ∈ added, entry.2 = entry.1.network

namespace AppendsEncoded

variable {ctx ctx' ctx'' : Context}

theorem of_eq (heq : ctx'.headers = ctx.headers) : AppendsEncoded ctx ctx' :=
  ⟨[], by rw [heq, List.append_nil], fun _ hentry => absurd hentry List.not_mem_nil⟩

theorem trans (hfirst : AppendsEncoded ctx ctx') (hsecond : AppendsEncoded ctx' ctx'') :
    AppendsEncoded ctx ctx'' := by
  obtain ⟨added, hheaders, hadded⟩ := hfirst
  obtain ⟨more, hheaders', hmore⟩ := hsecond
  refine ⟨added ++ more, by rw [hheaders', hheaders, List.append_assoc], fun entry hentry => ?_⟩
  exact (List.mem_append.mp hentry).elim (hadded entry) (hmore entry)

theorem sendEncoded (env : Env) (ctx : Context) (f : Frame) (data : Bytes) :
    AppendsEncoded ctx (sendEncoded env ctx f data).2 := by
  refine ⟨[(f, (encodeFrame env.host f).image env.host)], rfl, fun entry hentry => ?_⟩
  rw [List.mem_singleton.mp hentry]
  exact Frame.image_encodeFrame env.host f

end AppendsEncoded

theorem Effect.appendsEncoded {env : Env} {ctx ctx' : Context} (heffect : Effect env ctx ctx') :
    AppendsEncoded ctx ctx' := by
  induction heffect with
  | refl => exact AppendsEncoded.of_eq rfl
  | stream i change hid _ ih => exact ih.trans (AppendsEncoded.of_eq rfl)
  | channel c change hid _ ih => exact ih.trans (AppendsEncoded.of_eq rfl)
  | search reads match? _ ih => exact ih.trans (AppendsEncoded.of_eq rfl)
  | marshal c message _ ih => exact ih.trans (AppendsEncoded.of_eq rfl)
  | write message _ ih => exact ih.trans (AppendsEncoded.of_eq rfl)
  | encoded f data _ ih => exact ih.trans (AppendsEncoded.sendEncoded env _ f data)

theorem channelNew_headers (ctx : Context) (id : UInt32) :
    (channelNew ctx id).2.headers = ctx.headers := by
  obtain ⟨streams, channels, numStreams, fault, hrest⟩ := channelNew_rest ctx id
  rw [hrest, pickId]
  split <;> rfl

theorem streamFree_headers (ctx : Context) (i : Nat) : (streamFree ctx i).headers = ctx.headers := by
  unfold streamFree Context.firstSlot
  split
  · rfl
  · dsimp only
    split <;> rfl

/-! ### The headers that skip `encode_frame` -/

/-- The header of `yamux_session_ping`, if it writes one. -/
def pingFrames (env : Env) (ctx : Context) (value : UInt32) (pong : Bool) : List Frame :=
  if ctx.closed || !env.clock then []
  else [⟨yamuxVersion, framePing, if pong then frameAck else frameSyn, 0, value⟩]

/-- The ping that a frame asks `yamux_decode` to answer. -/
def pingRequest (env : Env) (incoming : Bytes) : Option Frame :=
  (Frame.read env.host incoming).filter fun f =>
    f.version = yamuxVersion && f.streamid = 0 && f.type = framePing && f.has frameSyn

/-- The headers that an operation writes as they are in memory. -/
def unencoded (env : Env) (ctx : Context) : Op → List Frame
  | .sessionClose err => if ctx.closed then [] else [⟨yamuxVersion, frameGoAway, 0, 0, err⟩]
  | .sessionPing value pong => pingFrames env ctx value pong
  | .decode incoming =>
      match pingRequest env incoming with
      | some f => pingFrames env ctx f.length true
      | none => []
  | _ => []

/-- `ctx'` recorded these headers unencoded and further ones encoded. -/
def Records (env : Env) (ctx : Context) (raw : List Frame) (ctx' : Context) : Prop :=
  ∃ added, ctx'.headers = ctx.headers ++ (raw.map fun f => (f, f.image env.host)) ++ added ∧
    ∀ entry ∈ added, entry.2 = entry.1.network

theorem AppendsEncoded.records {env : Env} {ctx ctx' : Context} (happends : AppendsEncoded ctx ctx') :
    Records env ctx [] ctx' := by
  obtain ⟨added, hheaders, hadded⟩ := happends
  exact ⟨added, by rw [hheaders, List.map_nil, List.append_nil], hadded⟩

theorem sessionPing_records (env : Env) (ctx : Context) (value : UInt32) (pong : Bool) :
    Records env ctx (pingFrames env ctx value pong) (sessionPing env ctx value pong).2 := by
  unfold sessionPing pingFrames
  by_cases hclosed : ctx.closed
  · simp only [hclosed, if_true, Bool.true_or]
    exact (AppendsEncoded.of_eq rfl).records
  · by_cases hclock : env.clock
    · simp only [hclosed, hclock, Bool.false_eq_true, if_false, Bool.not_true, Bool.or_false]
      exact ⟨[], by rw [List.append_nil]; rfl, fun _ hentry => absurd hentry List.not_mem_nil⟩
    · simp only [hclosed, hclock, Bool.false_eq_true, if_false, Bool.not_false, if_true, Bool.or_true]
      exact (AppendsEncoded.of_eq rfl).records

theorem decodeSession_records (env : Env) (ctx : Context) (f : Frame) :
    Records env ctx (if f.type = framePing ∧ f.has frameSyn then pingFrames env ctx f.length true else [])
      (decodeSession env ctx f).2 := by
  unfold decodeSession
  by_cases hping : f.type = framePing
  · by_cases hsyn : f.has frameSyn
    · simp only [hping, hsyn, and_self, if_true]
      exact sessionPing_records env ctx f.length true
    · rw [if_pos hping, if_neg hsyn, if_neg fun hboth => hsyn hboth.2]
      refine (AppendsEncoded.of_eq ?_).records
      repeat' split
      all_goals rfl
  · rw [if_neg hping, if_neg fun hboth => hping hboth.1]
    refine (AppendsEncoded.of_eq ?_).records
    split <;> rfl

theorem pingRequest_of_none {env : Env} {incoming : Bytes}
    (hread : Frame.read env.host incoming = none) : pingRequest env incoming = none := by
  rw [pingRequest, hread, Option.filter_none]

theorem pingRequest_of_some {env : Env} {incoming : Bytes} {f : Frame}
    (hread : Frame.read env.host incoming = some f) :
    pingRequest env incoming =
      if f.version = yamuxVersion ∧ f.streamid = 0 ∧ f.type = framePing ∧ f.has frameSyn
      then some f else none := by
  rw [pingRequest, hread, Option.filter_some]
  simp only [Bool.and_eq_true, decide_eq_true_eq, and_assoc]

theorem decodeNew_appendsEncoded (env : Env) (ctx : Context) (f : Frame) (incoming : Bytes) :
    AppendsEncoded ctx (decodeNew env ctx f incoming).2.2 := by
  unfold decodeNew
  have hnew : AppendsEncoded ctx (channelNew ctx f.streamid).2 :=
    AppendsEncoded.of_eq (channelNew_headers ctx f.streamid)
  by_cases hsyn : f.has frameSyn
  · by_cases hparity : inboundParity ctx f.streamid
    · simp only [hsyn, hparity, if_true]
      split <;> rename_i heq <;> rw [heq] at hnew
      · exact hnew
      · exact hnew.trans (acceptStream_effect env _ _ f incoming).appendsEncoded
    · simp only [hsyn, hparity, if_true, Bool.false_eq_true, if_false]
      exact AppendsEncoded.of_eq rfl
  · simp only [hsyn, Bool.false_eq_true, if_false]
    exact AppendsEncoded.of_eq rfl

theorem decode_records (env : Env) (ctx : Context) (incoming : Bytes) :
    Records env ctx (unencoded env ctx (.decode incoming)) (decode env ctx incoming).2.2 := by
  have hnothing : Records env ctx [] ctx := (AppendsEncoded.of_eq rfl).records
  cases hread : Frame.read env.host incoming with
  | none =>
      simp only [unencoded, pingRequest_of_none hread, decode, hread]
      exact hnothing
  | some f =>
      simp only [unencoded, pingRequest_of_some hread, decode, hread]
      by_cases hversion : f.version = yamuxVersion
      · by_cases hid : f.streamid = 0
        · have hsession := decodeSession_records env ctx f
          by_cases hrequest : f.type = framePing ∧ f.has frameSyn
          · rw [if_pos hrequest] at hsession
            simpa [hversion, hid, hrequest] using hsession
          · rw [if_neg hrequest] at hsession
            simpa [hversion, hid, hrequest] using hsession
        · have hfind : Effect env ctx (findStream ctx f.streamid).2 := Effect.refl.search _ _
          simp only [hversion, hid, false_and, and_false, if_false, ne_eq, not_true_eq_false]
          split <;> rename_i heq <;> rw [heq] at hfind
          · exact (hfind.trans (decodeStream_effect env _ _ f incoming)).appendsEncoded.records
          · exact (hfind.appendsEncoded.trans (decodeNew_appendsEncoded env _ f incoming)).records
      · simp only [hversion, false_and, if_false, ne_eq, not_false_eq_true, if_true]
        exact hnothing

theorem yamuxWriteSession_appendsEncoded (env : Env) (ctx : Context) (message : Bytes) :
    AppendsEncoded ctx (yamuxWriteSession env ctx message).2 :=
  (yamuxWriteSession_effect env ctx message).appendsEncoded

theorem sendGoAway_appendsEncoded (env : Env) (ctx : Context) (channel? : Option Nat) :
    AppendsEncoded ctx (sendGoAway env ctx channel?) := by
  have hemit : ∀ f : Frame, AppendsEncoded ctx (ctx.emit f ((encodeFrame env.host f).image env.host)) :=
    fun f => AppendsEncoded.sendEncoded env ctx f []
  unfold sendGoAway
  dsimp only
  split
  · exact hemit _
  · exact (hemit _).trans (yamuxWriteSession_appendsEncoded env _ _)

theorem channelSendFin_appendsEncoded (env : Env) (ctx : Context) (c : Nat) :
    AppendsEncoded ctx (channelSendFin env ctx c) := by
  unfold channelSendFin
  split
  · exact AppendsEncoded.of_eq rfl
  · exact AppendsEncoded.sendEncoded env ctx _ []

theorem sessionClose_records (env : Env) (ctx : Context) (err : UInt32) :
    Records env ctx (unencoded env ctx (.sessionClose err)) (sessionClose env ctx err).2 := by
  simp only [unencoded, sessionClose]
  by_cases hclosed : ctx.closed
  · rw [if_pos hclosed, if_pos hclosed]
    exact (AppendsEncoded.of_eq rfl).records
  · rw [if_neg hclosed, if_neg hclosed]
    obtain ⟨added, hheaders, hadded⟩ := yamuxWriteSession_appendsEncoded env
      (Context.emit { ctx with closed := true } ⟨yamuxVersion, frameGoAway, 0, 0, err⟩
        (Frame.image env.host ⟨yamuxVersion, frameGoAway, 0, 0, err⟩))
      (Frame.image env.host ⟨yamuxVersion, frameGoAway, 0, 0, err⟩)
    exact ⟨added, hheaders, hadded⟩

/-- Whatever an operation writes besides `unencoded` went through `encode_frame`. -/
theorem step_records (env : Env) (ctx : Context) (op : Op) :
    Records env ctx (unencoded env ctx op) (step env ctx op) := by
  cases op with
  | channelNew id => exact (AppendsEncoded.of_eq (channelNew_headers ctx id)).records
  | streamFree i => exact (AppendsEncoded.of_eq (streamFree_headers ctx i)).records
  | handleMessage =>
      refine (AppendsEncoded.of_eq ?_).records
      change (handleMessage ctx).2.headers = ctx.headers
      unfold handleMessage
      split <;> rfl
  | decode incoming => exact decode_records env ctx incoming
  | streamInit c => exact (streamInit_effect env ctx c).appendsEncoded.records
  | streamWindowUpdate c delta => exact (streamWindowUpdate_effect env ctx c delta).appendsEncoded.records
  | streamClose c => exact (streamClose_effect env ctx c).appendsEncoded.records
  | streamCloseSession => exact (writeFrame_effect env ctx _).appendsEncoded.records
  | streamReset c => exact (streamReset_effect env ctx c).appendsEncoded.records
  | streamWrite c data rounds => exact (streamWrite_effect env ctx c data rounds).appendsEncoded.records
  | write c message => exact (yamuxWrite_effect env ctx c message).appendsEncoded.records
  | writeSession message => exact (yamuxWriteSession_appendsEncoded env ctx message).records
  | getNextId => exact (AppendsEncoded.of_eq rfl).records
  | handleUpgrade c => exact (handleUpgrade_effect env ctx c).appendsEncoded.records
  | sendGoAway channel? => exact (sendGoAway_appendsEncoded env ctx channel?).records
  | channelSendFin c => exact (channelSendFin_appendsEncoded env ctx c).records
  | sessionClose err => exact sessionClose_records env ctx err
  | sessionPing value pong => exact sessionPing_records env ctx value pong

/-! ### Which headers read back -/

theorem readsBack_of_network {f : Frame} {bytes : Bytes} (hbytes : bytes = f.network) :
    ReadsBack (f, bytes) := by
  intro reader
  rw [hbytes]
  exact Frame.read_network reader f

/-- An unencoded header reads back from a big-endian host, and from a little-endian one when the
reversal of its fields changes nothing. -/
theorem readsBack_image_iff (host : Endian) (f : Frame) :
    ReadsBack (f, f.image host) ↔ host = .big ∨
      (swap16 f.flags = f.flags ∧ swap32 f.streamid = f.streamid ∧ swap32 f.length = f.length) := by
  cases host with
  | big => exact ⟨fun _ => Or.inl rfl, fun _ => readsBack_of_network f.image_big⟩
  | little =>
      have hread : ∀ reader, Frame.read reader (f.image .little) = some f ↔
          swap16 f.flags = f.flags ∧ swap32 f.streamid = f.streamid ∧ swap32 f.length = f.length := by
        intro reader
        rw [Frame.read_image_little, Option.some.injEq]
        constructor
        · intro heq
          exact ⟨congrArg Frame.flags heq, congrArg Frame.streamid heq, congrArg Frame.length heq⟩
        · rintro ⟨hflags, hid, hlength⟩
          rw [hflags, hid, hlength]
      constructor
      · intro hback
        exact Or.inr ((hread .little).mp (hback .little))
      · rintro (hbig | hswap) reader
        · cases hbig
        · exact (hread reader).mpr hswap

/-- The headers that an operation adds to the record. -/
def newHeaders (env : Env) (ctx : Context) (op : Op) : List (Frame × Bytes) :=
  (step env ctx op).headers.drop ctx.headers.length

theorem newHeaders_readBack_iff (env : Env) (ctx : Context) (op : Op) :
    (∀ entry ∈ newHeaders env ctx op, ReadsBack entry) ↔
      ∀ f ∈ unencoded env ctx op, ReadsBack (f, f.image env.host) := by
  obtain ⟨added, hheaders, hadded⟩ := step_records env ctx op
  have hnew : newHeaders env ctx op =
      (unencoded env ctx op).map (fun f => (f, f.image env.host)) ++ added := by
    rw [newHeaders, hheaders, List.append_assoc, List.drop_left]
  rw [hnew]
  constructor
  · intro hall f hf
    exact hall _ (List.mem_append_left _ (List.mem_map.mpr ⟨f, hf, rfl⟩))
  · intro hraw entry hentry
    rcases List.mem_append.mp hentry with hold | hlast
    · obtain ⟨f, hf, rfl⟩ := List.mem_map.mp hold
      exact hraw f hf
    · exact readsBack_of_network (hadded entry hlast)

/-- The operation writes no header on a little-endian host that skipped `encode_frame`, unless it is that
of a go-away whose error reads the same in both orders. -/
def InNetworkOrder (env : Env) (ctx : Context) (op : Op) : Prop :=
  env.host = .big ∨
    match op with
    | .sessionClose err => ctx.closed ∨ swap32 err = err
    | .sessionPing _ _ => ctx.closed ∨ env.clock = false
    | .decode incoming => pingRequest env incoming = none ∨ ctx.closed ∨ env.clock = false
    | _ => True

theorem swap32_zero : swap32 0 = 0 := by decide

theorem pingFrames_readBack_iff (env : Env) (ctx : Context) (value : UInt32) (pong : Bool) :
    (∀ f ∈ pingFrames env ctx value pong, ReadsBack (f, f.image env.host)) ↔
      env.host = .big ∨ ctx.closed ∨ env.clock = false := by
  have hflags : ∀ pong : Bool, swap16 (if pong then frameAck else frameSyn) ≠
      if pong then frameAck else frameSyn := by decide
  unfold pingFrames
  by_cases hquiet : ctx.closed ∨ env.clock = false
  · have hskip : (ctx.closed || !env.clock) = true := by simpa using hquiet
    rw [if_pos hskip]
    exact ⟨fun _ => Or.inr hquiet, fun _ _ hf => absurd hf List.not_mem_nil⟩
  · have hsend : ¬(ctx.closed || !env.clock) = true := by simpa using hquiet
    rw [if_neg hsend, List.forall_mem_singleton, readsBack_image_iff]
    constructor
    · rintro (hbig | ⟨hswap, -, -⟩)
      · exact Or.inl hbig
      · exact absurd hswap (hflags pong)
    · rintro (hbig | hclosed)
      · exact Or.inl hbig
      · exact absurd hclosed hquiet

theorem unencoded_readBack_iff (env : Env) (ctx : Context) (op : Op) :
    (∀ f ∈ unencoded env ctx op, ReadsBack (f, f.image env.host)) ↔ InNetworkOrder env ctx op := by
  have hnone : ∀ {P : Frame → Prop}, ∀ f ∈ ([] : List Frame), P f :=
    fun _ hf => absurd hf List.not_mem_nil
  unfold InNetworkOrder
  cases op with
  | sessionClose err =>
      dsimp only [unencoded]
      by_cases hclosed : ctx.closed
      · rw [if_pos hclosed]
        exact ⟨fun _ => Or.inr (Or.inl hclosed), fun _ => hnone⟩
      · rw [if_neg hclosed, List.forall_mem_singleton, readsBack_image_iff]
        have hzero : swap16 0 = 0 := by decide
        simp only [hzero, swap32_zero, true_and, hclosed, Bool.false_eq_true, false_or]
  | sessionPing value pong => exact pingFrames_readBack_iff env ctx value pong
  | decode incoming =>
      dsimp only [unencoded]
      cases pingRequest env incoming with
      | none => exact ⟨fun _ => Or.inr (Or.inl rfl), fun _ => hnone⟩
      | some f =>
          dsimp only
          rw [pingFrames_readBack_iff]
          simp only [reduceCtorEq, false_or]
  | _ => exact ⟨fun _ => Or.inr trivial, fun _ => hnone⟩

/-- The headers of an operation read back on every host exactly when it writes them in network order. -/
theorem headers_readBack_iff (env : Env) (ctx : Context) (op : Op) :
    (∀ entry ∈ newHeaders env ctx op, ReadsBack entry) ↔ InNetworkOrder env ctx op :=
  (newHeaders_readBack_iff env ctx op).trans (unencoded_readBack_iff env ctx op)

/-- A little-endian host that closes its session with an error of 1 announces 16777216. -/
theorem headers_readBack_fails :
    ¬∀ env ctx op, ∀ entry ∈ newHeaders env ctx op, ReadsBack entry := by
  intro hall
  have hback := hall ⟨.little, fun _ => false, true⟩ (sessionStart 8 false .est []) (.sessionClose 1)
    (⟨yamuxVersion, frameGoAway, 0, 0, 1⟩, [0, 3, 0, 0, 0, 0, 0, 0, 1, 0, 0, 0]) (by decide) .little
  have hread : Frame.read .little [0, 3, 0, 0, 0, 0, 0, 0, 1, 0, 0, 0] =
      some ⟨yamuxVersion, frameGoAway, 0, 0, 16777216⟩ := by decide
  rw [hread] at hback
  exact absurd hback (by decide)

end CLibp2p.YamuxV1
