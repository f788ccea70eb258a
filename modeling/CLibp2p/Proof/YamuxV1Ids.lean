import CLibp2p.Proof.YamuxV1Backlog

/-!
# The ids of local streams

`yamux_channel_new` takes `nextid` as it is and adds 2; `libp2p_yamux_get_next_id` rounds it up to the
parity of its side and leaves the number after that. Ids only grow, so none is 0 or taken twice before
the counter wraps. But once an id was taken by `libp2p_yamux_get_next_id`, the counter has the parity of
the other side, and keeps it through every `yamux_channel_new`.
-/

namespace CLibp2p.YamuxV1

open Duplex Machine

/-- The calls that draw ids from the counter, and `yamux_channel_new` with an id from the peer. -/
inductive IdOp where
  | getNextId
  | channelNew (id : UInt32)
  | writeSession (message : Bytes)
deriving Repr, DecidableEq

def IdOp.toOp : IdOp → Op
  | .getNextId => .getNextId
  | .channelNew id => .channelNew id
  | .writeSession message => .writeSession message

def idStep (env : Env) (ctx : Context) (op : IdOp) : Context := step env ctx op.toOp

/-- The call goes through `libp2p_yamux_get_next_id`. -/
def roundsUp (ctx : Context) : IdOp → Bool
  | .getNextId => true
  | .channelNew _ => false
  | .writeSession _ => ctx.state = .est

/-- The call is `yamux_channel_new` without an id. -/
def opensLocal : IdOp → Bool
  | .channelNew id => id = 0
  | _ => false

/-- The id that the call draws from the counter. -/
def drawn (ctx : Context) (op : IdOp) : List UInt32 :=
  if roundsUp ctx op then [(getNextId ctx).1] else if opensLocal op then [ctx.nextid] else []

/-- `yamux_channel_new` finds no slot. -/
def refused (ctx : Context) : IdOp → Bool
  | .channelNew id => (channelNew ctx id).1.isNone
  | _ => false

/-- A call that draws an id and is not refused gives it out. -/
def allocated (ctx : Context) (op : IdOp) : List UInt32 :=
  if refused ctx op then [] else drawn ctx op

/-- The ids of a side: even for the server, odd for the client. -/
def sideParity (amServer : Bool) (id : UInt32) : Prop := id.toNat % 2 = if amServer then 0 else 1

structure GoodIds (amServer : Bool) (ids : List UInt32) : Prop where
  parity : ∀ id ∈ ids, sideParity amServer id
  nonzero : ∀ id ∈ ids, id ≠ 0
  distinct : ids.Nodup

/-- No local stream is opened once an id went through `libp2p_yamux_get_next_id`, as long as there is room for
one in the table. -/
def OpensFirst (env : Env) : (rounded : Bool) → Context → List IdOp → Prop
  | _, _, [] => True
  | rounded, ctx, op :: ops =>
      (opensLocal op → HasRoom ctx → rounded = false) ∧
        OpensFirst env (rounded || roundsUp ctx op) (idStep env ctx op) ops

/-! ### One call -/

theorem refused_iff {ctx : Context} {op : IdOp} (hopen : opensLocal op) : refused ctx op ↔ ¬HasRoom ctx := by
  cases op with
  | channelNew id => exact Option.isNone_iff_eq_none.trans channelNew_eq_none_iff
  | getNextId => cases hopen
  | writeSession message => cases hopen

theorem channelNew_nextid (ctx : Context) (id : UInt32) :
    (channelNew ctx id).2.nextid = if id = 0 then ctx.nextid + 2 else ctx.nextid := by
  obtain ⟨streams, channels, numStreams, fault, hrest⟩ := channelNew_rest ctx id
  rw [hrest, pickId]
  split <;> rfl

theorem channelNew_amServer (ctx : Context) (id : UInt32) :
    (channelNew ctx id).2.amServer = ctx.amServer := by
  obtain ⟨streams, channels, numStreams, fault, hrest⟩ := channelNew_rest ctx id
  rw [hrest, pickId]
  split <;> rfl

theorem yamuxWriteSession_nextid (env : Env) (ctx : Context) (message : Bytes) :
    (yamuxWriteSession env ctx message).2.nextid =
      if ctx.state = .est then (getNextId ctx).2.nextid else ctx.nextid := by
  unfold yamuxWriteSession
  by_cases hest : ctx.state = .est
  · rw [if_neg (not_not.mpr hest), getFlagsSession_est hest, if_pos hest]
    rfl
  · rw [if_pos hest, if_neg hest]
    rfl

theorem idStep_nextid (env : Env) (ctx : Context) (op : IdOp) :
    (idStep env ctx op).nextid =
      if roundsUp ctx op then (getNextId ctx).2.nextid
      else if opensLocal op then ctx.nextid + 2 else ctx.nextid := by
  cases op with
  | getNextId => rfl
  | channelNew id =>
      simp only [roundsUp, opensLocal, Bool.false_eq_true, if_false, decide_eq_true_eq]
      exact channelNew_nextid ctx id
  | writeSession message =>
      simp only [roundsUp, opensLocal, Bool.false_eq_true, if_false, decide_eq_true_eq]
      exact yamuxWriteSession_nextid env ctx message

theorem idStep_amServer (env : Env) (ctx : Context) (op : IdOp) :
    (idStep env ctx op).amServer = ctx.amServer := by
  cases op with
  | getNextId => rfl
  | channelNew id => exact channelNew_amServer ctx id
  | writeSession message => exact (yamuxWriteSession_effect env ctx message).sameTable.amServer

theorem toNat_mod_two (x y : UInt32) : x % 2 = y ↔ x.toNat % 2 = y.toNat := by
  rw [← UInt32.toNat_inj, UInt32.toNat_mod]
  rfl

theorem toNat_add_of_lt {x y : UInt32} (hlt : x.toNat + y.toNat < 2 ^ 32) :
    (x + y).toNat = x.toNat + y.toNat := by
  rw [UInt32.toNat_add, Nat.mod_eq_of_lt hlt]

/-- Away from the end of the counter, an id from `libp2p_yamux_get_next_id` is the next number of the
right parity. -/
theorem getNextId_spec {ctx : Context} (hroom : ctx.nextid.toNat + 2 < 2 ^ 32) :
    ctx.nextid.toNat ≤ (getNextId ctx).1.toNat ∧
      (getNextId ctx).1.toNat ≤ ctx.nextid.toNat + 1 ∧
      sideParity ctx.amServer (getNextId ctx).1 ∧
      (getNextId ctx).2.nextid.toNat = (getNextId ctx).1.toNat + 1 := by
  have hone : (1 : UInt32).toNat = 1 := rfl
  have hzero : (0 : UInt32).toNat = 0 := rfl
  have hsucc : (ctx.nextid + 1).toNat = ctx.nextid.toNat + 1 := toNat_add_of_lt (by omega)
  have hnext : ∀ id : UInt32, id.toNat ≤ ctx.nextid.toNat + 1 → (id + 1).toNat = id.toNat + 1 :=
    fun id hid => toNat_add_of_lt (by omega)
  unfold getNextId sideParity
  dsimp only
  split
  · rename_i hwrong
    simp only [toNat_mod_two, hone, hzero] at hwrong
    rw [hnext _ hsucc.le, hsucc]
    refine ⟨by omega, le_refl _, ?_, rfl⟩
    cases hside : ctx.amServer <;> simp only [hside] at hwrong ⊢ <;> simp at hwrong ⊢ <;> omega
  · rename_i hright
    simp only [toNat_mod_two, hone, hzero] at hright
    rw [hnext _ (Nat.le_succ _)]
    refine ⟨le_refl _, Nat.le_succ _, ?_, rfl⟩
    cases hside : ctx.amServer <;> simp only [hside] at hright ⊢ <;> simp at hright ⊢ <;> omega

theorem sideParity_add_two {amServer : Bool} {id : UInt32} (hroom : id.toNat + 2 < 2 ^ 32) :
    sideParity amServer (id + 2) ↔ sideParity amServer id := by
  have htwo : (2 : UInt32).toNat = 2 := rfl
  rw [sideParity, sideParity, toNat_add_of_lt (by omega), htwo, Nat.add_mod_right]

/-- What one call does to the counter, away from its end: what it draws is at least the old value and
less than the new one, which is at most 2 more. -/
theorem idStep_spec (env : Env) (ctx : Context) (op : IdOp)
    (hroom : ctx.nextid.toNat + 2 * (drawn ctx op).length < 2 ^ 32) :
    ctx.nextid.toNat ≤ (idStep env ctx op).nextid.toNat ∧
      (idStep env ctx op).nextid.toNat ≤ ctx.nextid.toNat + 2 * (drawn ctx op).length ∧
      (∀ id ∈ drawn ctx op, ctx.nextid.toNat ≤ id.toNat ∧
        id.toNat < (idStep env ctx op).nextid.toNat) := by
  rw [idStep_nextid]
  unfold drawn at hroom ⊢
  by_cases hround : roundsUp ctx op
  · simp only [hround, if_true, List.length_singleton, List.mem_singleton, forall_eq] at hroom ⊢
    obtain ⟨hlow, hhigh, -, hnext⟩ := getNextId_spec hroom
    omega
  · by_cases hopen : opensLocal op
    · simp only [hround, hopen, if_true, Bool.false_eq_true, if_false, List.length_singleton,
        List.mem_singleton, forall_eq] at hroom ⊢
      have htwo : (ctx.nextid + 2).toNat = ctx.nextid.toNat + 2 := toNat_add_of_lt hroom
      omega
    · simp [hround, hopen]

/-- The counter has the parity of its side until an id is rounded up, and then that of the other side. -/
theorem idStep_parity (env : Env) (ctx : Context) (op : IdOp) {rounded : Bool}
    (hroom : ctx.nextid.toNat + 2 * (drawn ctx op).length < 2 ^ 32)
    (hparity : sideParity ctx.amServer ctx.nextid ↔ rounded = false) :
    sideParity ctx.amServer (idStep env ctx op).nextid ↔ (rounded || roundsUp ctx op) = false := by
  rw [idStep_nextid]
  unfold drawn at hroom
  by_cases hround : roundsUp ctx op
  · simp only [hround, if_true, List.length_singleton] at hroom
    obtain ⟨-, -, hside, hnext⟩ := getNextId_spec hroom
    rw [if_pos hround, hround, Bool.or_true]
    refine iff_of_false ?_ (by decide)
    unfold sideParity at hside ⊢
    rw [hnext]
    cases hserver : ctx.amServer <;> simp only [hserver] at hside ⊢ <;> simp at hside ⊢ <;> omega
  · rw [if_neg hround, Bool.eq_false_iff.mpr hround, Bool.or_false, ← hparity]
    by_cases hopen : opensLocal op
    · simp only [hround, hopen, if_true, Bool.false_eq_true, if_false,
        List.length_singleton] at hroom
      rw [if_pos hopen]
      exact sideParity_add_two hroom
    · rw [if_neg hopen]

/-! ### Runs -/

/-- The ids given out along a run are at least the counter's first value, and grow. -/
theorem allocated_run (env : Env) {ctx : Context} {ops : List IdOp}
    (hroom : ctx.nextid.toNat + 2 * (outputs (idStep env) drawn ctx ops).length < 2 ^ 32) :
    (∀ id ∈ outputs (idStep env) allocated ctx ops, ctx.nextid.toNat ≤ id.toNat) ∧
      (outputs (idStep env) allocated ctx ops).Pairwise (fun id later => id.toNat < later.toNat) := by
  induction ops generalizing ctx with
  | nil => exact ⟨fun _ hid => absurd hid List.not_mem_nil, List.Pairwise.nil⟩
  | cons op ops ih =>
      simp only [outputs, List.length_append] at hroom ⊢
      obtain ⟨hlow, hhigh, hdrawn⟩ := idStep_spec env ctx op (by omega)
      obtain ⟨hlater, hsorted⟩ := @ih (idStep env ctx op) (by omega)
      have hsub : ∀ id ∈ allocated ctx op, id ∈ drawn ctx op := by
        unfold allocated
        split
        · exact fun _ hid => absurd hid List.not_mem_nil
        · exact fun _ hid => hid
      have hone : (allocated ctx op).Pairwise (fun id later => id.toNat < later.toNat) := by
        unfold allocated drawn
        repeat' split
        all_goals simp
      refine ⟨?_, List.pairwise_append.mpr ⟨hone, hsorted, ?_⟩⟩
      · intro id hid
        rcases List.mem_append.mp hid with hfirst | hrest
        · exact (hdrawn id (hsub id hfirst)).1
        · exact hlow.trans (hlater id hrest)
      · intro id hid later hmem
        exact (hdrawn id (hsub id hid)).2.trans_le (hlater later hmem)

theorem allocated_parity (ctx : Context) (op : IdOp) {rounded : Bool}
    (hroom : ctx.nextid.toNat + 2 * (drawn ctx op).length < 2 ^ 32)
    (hparity : sideParity ctx.amServer ctx.nextid ↔ rounded = false) :
    (∀ id ∈ allocated ctx op, sideParity ctx.amServer id) ↔
      (opensLocal op → HasRoom ctx → rounded = false) := by
  have hgiven : (opensLocal op → HasRoom ctx → rounded = false) ↔
      (opensLocal op → refused ctx op ∨ rounded = false) := by
    refine forall_congr' fun hopen => ?_
    rw [refused_iff hopen, imp_iff_not_or]
  rw [hgiven]
  unfold allocated
  unfold drawn at hroom ⊢
  by_cases hrefused : refused ctx op
  · simp [hrefused]
  · by_cases hround : roundsUp ctx op
    · simp only [hround, if_true, List.length_singleton] at hroom
      obtain ⟨-, -, hside, -⟩ := getNextId_spec hroom
      have hclosed : opensLocal op = false := by
        cases op <;> first | rfl | cases hround
      simp [hrefused, hround, hside, hclosed]
    · by_cases hopen : opensLocal op
      · simp [hrefused, hround, hopen, hparity]
      · simp [hrefused, hround, hopen]

theorem allocated_run_parity (env : Env) {ctx : Context} {ops : List IdOp} {rounded : Bool}
    (hroom : ctx.nextid.toNat + 2 * (outputs (idStep env) drawn ctx ops).length < 2 ^ 32)
    (hparity : sideParity ctx.amServer ctx.nextid ↔ rounded = false) :
    (∀ id ∈ outputs (idStep env) allocated ctx ops, sideParity ctx.amServer id) ↔
      OpensFirst env rounded ctx ops := by
  induction ops generalizing ctx rounded with
  | nil => exact iff_of_true (fun _ hid => absurd hid List.not_mem_nil) trivial
  | cons op ops ih =>
      simp only [outputs, List.length_append] at hroom
      obtain ⟨hlow, hhigh, -⟩ := idStep_spec env ctx op (by omega)
      have hnow := allocated_parity ctx op (by omega) hparity
      have hthen := idStep_parity env ctx op (by omega) hparity
      rw [← idStep_amServer env ctx op] at hthen
      have hrest := @ih (idStep env ctx op) _ (by omega) hthen
      rw [idStep_amServer] at hrest
      rw [OpensFirst, ← hnow, ← hrest, outputs, List.forall_mem_append]

/-- **When local ids are good.** While the counter does not wrap, the ids given out by any mix of calls
all have the parity of their side, are not 0 and differ exactly if no local stream is opened after an id
was rounded up. -/
theorem goodIds_iff_opensFirst (env : Env) (acceptBacklog : Nat) (amServer : Bool) (state : StreamState)
    (outcomes : List Bool) (ops : List IdOp)
    (hdrawn : (outputs (idStep env) drawn (sessionStart acceptBacklog amServer state outcomes)
      ops).length < 2 ^ 31 - 1) :
    GoodIds amServer (outputs (idStep env) allocated
        (sessionStart acceptBacklog amServer state outcomes) ops) ↔
      OpensFirst env false (sessionStart acceptBacklog amServer state outcomes) ops := by
  generalize hstart : sessionStart acceptBacklog amServer state outcomes = ctx at hdrawn ⊢
  have hside : ctx.amServer = amServer := by
    rw [← hstart]
    rfl
  have hnext : 1 ≤ ctx.nextid.toNat ∧ ctx.nextid.toNat ≤ 2 ∧ sideParity amServer ctx.nextid := by
    have hid : ctx.nextid = if amServer then 2 else 1 := by
      rw [← hstart]
      rfl
    rw [hid]
    unfold sideParity
    cases amServer <;> decide
  have hroom : ctx.nextid.toNat + 2 * (outputs (idStep env) drawn ctx ops).length < 2 ^ 32 := by
    omega
  have hstarts : sideParity ctx.amServer ctx.nextid ↔ false = false := by
    rw [hside]
    exact iff_of_true hnext.2.2 rfl
  have hparity := allocated_run_parity env hroom hstarts
  rw [hside] at hparity
  obtain ⟨hlow, hsorted⟩ := allocated_run env hroom
  refine ⟨fun hgood => hparity.mp hgood.parity, fun hfirst => ⟨hparity.mpr hfirst, ?_, ?_⟩⟩
  · rintro id hid rfl
    have hzero := hlow 0 hid
    change ctx.nextid.toNat ≤ 0 at hzero
    omega
  · exact hsorted.imp fun hlt heq => absurd (congrArg UInt32.toNat heq) (Nat.ne_of_lt hlt)

/-- A client that opens a stream after writing to the session. -/
theorem goodIds_fails :
    ¬∀ (env : Env) (acceptBacklog : Nat) (amServer : Bool) (state : StreamState) (outcomes : List Bool)
      (ops : List IdOp),
      (outputs (idStep env) drawn (sessionStart acceptBacklog amServer state outcomes) ops).length <
        2 ^ 31 - 1 →
      GoodIds amServer (outputs (idStep env) allocated
        (sessionStart acceptBacklog amServer state outcomes) ops) := by
  intro hall
  have hgood := hall ⟨.little, fun _ => false, true⟩ 256 false .est [] [.getNextId, .channelNew 0]
    (by decide)
  exact absurd (hgood.parity 2 (by decide)) (by unfold sideParity; decide)

/-- A server that opens two streams and then writes to the session. -/
theorem goodIds_iff_opensFirst_server :
    GoodIds true (outputs (idStep ⟨.little, fun _ => false, true⟩) allocated
        (sessionStart 256 true .est []) [.channelNew 0, .channelNew 0, .writeSession [1]]) ↔
      OpensFirst ⟨.little, fun _ => false, true⟩ false (sessionStart 256 true .est [])
        [.channelNew 0, .channelNew 0, .writeSession [1]] :=
  goodIds_iff_opensFirst ⟨.little, fun _ => false, true⟩ 256 true .est []
    [.channelNew 0, .channelNew 0, .writeSession [1]] (by decide)

end CLibp2p.YamuxV1
