import CLibp2p.Noise.Stream

/-!
# Nonces of the encrypted stream

`noise_stream_write` moves its nonce on when a whole frame went out and leaves it as it is otherwise,
also when the raw stream had already taken a part of the ciphertext. The nonce of an attempt is
therefore the number of accepted attempts before it, and two attempts share a nonce exactly when no
attempt in between was accepted.
-/

namespace CLibp2p.Noise

open Duplex Duplex.Prog

/-- One call of `noise_stream_write`: the nonce and the plaintext it encrypts, what the raw stream took
of the header and then of the ciphertext, as far as they were written, and the result. -/
structure Attempt where
  nonce : UInt64
  plaintext : Bytes
  taken : List Bytes
  ret : Int
deriving Repr, DecidableEq

/-- A part of the ciphertext is on the raw stream. -/
def Attempt.handed (attempt : Attempt) : Bool := !(attempt.taken.drop 1).flatten.isEmpty

def Attempt.accepted (attempt : Attempt) : Bool := 0 ≤ attempt.ret

def attemptOf (ctx : StreamContext) (buf : Bytes) (w w' : Wire) (ret : Int) : Attempt :=
  { nonce := ctx.writeNonce
    plaintext := buf.take maxPayload
    taken := w'.sent.drop w.sent.length
    ret }

/-- The calls of a run, in order. -/
def attempts (prims : Primitives) : StreamContext → Wire → List Bytes → List Attempt
  | _, _, [] => []
  | ctx, w, buf :: bufs =>
      let ((ret, ctx'), w') := (streamWrite prims ctx buf).run w
      attemptOf ctx buf w w' ret :: attempts prims ctx' w' bufs

/-- What one call can do: nothing but leave a part of a frame on the raw stream, or write a whole frame
and move the nonce on. -/
inductive Writes (prims : Primitives) (ctx : StreamContext) (plaintext : Bytes) :
    Int → StreamContext → List Bytes → Prop where
  | refused (taken : List Bytes) : Writes prims ctx plaintext (-1) ctx taken
  | accepted {ciphertext body : Bytes}
      (hseal : encrypt prims ctx.writeKey ctx.writeNonce [] plaintext = some ciphertext)
      (hbody : body <+: ciphertext) (hlength : body.length = plaintext.length + tagLength) :
      Writes prims ctx plaintext plaintext.length { ctx with writeNonce := ctx.writeNonce + 1 }
        [frameHeader (plaintext.length + tagLength), body]

theorem run_streamWrite (prims : Primitives) (ctx : StreamContext) (buf : Bytes) (w : Wire) :
    ∃ ret ctx' taken w', (streamWrite prims ctx buf).run w = ((ret, ctx'), w') ∧
      w'.sent = w.sent ++ taken ∧ Writes prims ctx (buf.take maxPayload) ret ctx' taken := by
  rw [streamWrite]
  split
  · exact ⟨-1, ctx, [], w, rfl, (List.append_nil _).symm, .refused _⟩
  rename_i ciphertext hseal
  obtain ⟨header, hheader, hsent, hret⟩ :=
    w.write_cases (frameHeader ((buf.take maxPayload).length + tagLength))
  rw [run_bind, run_send]
  generalize w.write _ = written at hsent hret ⊢
  obtain ⟨ret, w₁⟩ := written
  dsimp only at hsent hret ⊢
  split
  · exact ⟨-1, ctx, [header], w₁, rfl, hsent, .refused _⟩
  rename_i hwhole
  rw [not_not] at hwhole
  have hlength : header.length = 2 := by omega
  obtain rfl : header = frameHeader ((buf.take maxPayload).length + tagLength) :=
    hheader.eq_of_length hlength
  obtain ⟨body, hbody, hsent', hret'⟩ := w₁.write_cases ciphertext
  rw [run_bind, run_send]
  generalize w₁.write _ = written at hsent' hret' ⊢
  obtain ⟨ret', w₂⟩ := written
  dsimp only at hsent' hret' ⊢
  have htaken : w₂.sent = w.sent ++
      [frameHeader ((buf.take maxPayload).length + tagLength), body] := by
    rw [hsent', hsent, List.append_assoc]
    rfl
  split
  · exact ⟨_, _, _, w₂, rfl, htaken, .accepted hseal hbody (by omega)⟩
  · exact ⟨-1, ctx, _, w₂, rfl, htaken, .refused _⟩

theorem Writes.nonce {prims : Primitives} {ctx ctx' : StreamContext} {plaintext : Bytes} {ret : Int}
    {taken : List Bytes} (hwrites : Writes prims ctx plaintext ret ctx' taken) :
    ctx'.writeNonce = ctx.writeNonce + if 0 ≤ ret then 1 else 0 := by
  cases hwrites with
  | refused taken => exact (UInt64.add_zero _).symm
  | accepted hseal hbody hlength => rw [if_pos (Int.natCast_nonneg _)]

def acceptedCount (list : List Attempt) : Nat := list.countP Attempt.accepted

theorem acceptedCount_cons (attempt : Attempt) (list : List Attempt) :
    acceptedCount (attempt :: list) = (if attempt.accepted then 1 else 0) + acceptedCount list := by
  rw [acceptedCount, List.countP_cons, acceptedCount, Nat.add_comm]

theorem acceptedCount_append (list list' : List Attempt) :
    acceptedCount (list ++ list') = acceptedCount list + acceptedCount list' :=
  List.countP_append

theorem length_attempts (prims : Primitives) (bufs : List Bytes) (ctx : StreamContext) (w : Wire) :
    (attempts prims ctx w bufs).length = bufs.length := by
  induction bufs generalizing ctx w with
  | nil => rfl
  | cons buf bufs ih => exact congrArg (· + 1) (ih _ _)

theorem nonce_eq_acceptedCount (prims : Primitives) (bufs : List Bytes) (ctx : StreamContext)
    (w : Wire) (before after : List Attempt) (attempt : Attempt)
    (hsplit : attempts prims ctx w bufs = before ++ attempt :: after) :
    attempt.nonce = ctx.writeNonce + UInt64.ofNat (acceptedCount before) := by
  induction bufs generalizing ctx w before with
  | nil =>
      have hempty : [] = before ++ attempt :: after := hsplit
      simp at hempty
  | cons buf bufs ih =>
      rw [attempts] at hsplit
      obtain ⟨ret, ctx', taken, w', hrun, -, hwrites⟩ := run_streamWrite prims ctx buf w
      rw [hrun] at hsplit
      cases before with
      | nil =>
          rw [List.nil_append, List.cons.injEq] at hsplit
          rw [← hsplit.1]
          exact (UInt64.add_zero _).symm
      | cons first before =>
          rw [List.cons_append, List.cons.injEq] at hsplit
          have hrest := ih ctx' w' before hsplit.2
          have hfirst : first.accepted = decide (0 ≤ ret) := by
            rw [← hsplit.1]
            rfl
          rw [hrest, hwrites.nonce, acceptedCount_cons, hfirst]
          by_cases haccepted : 0 ≤ ret
          · rw [if_pos haccepted, if_pos (by simpa using haccepted), UInt64.ofNat_add,
              UInt64.add_assoc]
            rfl
          · rw [if_neg haccepted, if_neg (by simpa using haccepted), Nat.zero_add, UInt64.add_zero]

theorem not_accepted_of_count {list : List Attempt} (hcount : acceptedCount list = 0) :
    ∀ attempt ∈ list, attempt.accepted = false := by
  intro attempt hmem
  rw [← Bool.not_eq_true]
  exact List.countP_eq_zero.mp hcount attempt hmem

theorem count_of_not_accepted {list : List Attempt}
    (hnone : ∀ attempt ∈ list, attempt.accepted = false) : acceptedCount list = 0 := by
  rw [acceptedCount, List.countP_eq_zero]
  intro attempt hmem
  rw [hnone attempt hmem]
  exact Bool.false_ne_true

/-- No nonce protects two different plaintexts of which the raw stream took ciphertext. -/
def NonceUsedOnce (list : List Attempt) : Prop :=
  ∀ first ∈ list, ∀ second ∈ list, first.handed = true → second.handed = true →
    first.nonce = second.nonce → first.plaintext = second.plaintext

/-- Up to and including the next accepted call, whatever the raw stream takes a part of comes from one
plaintext. -/
def Resends (list : List Attempt) : Prop :=
  ∀ segment, segment <:+: list → (∀ attempt ∈ segment.dropLast, attempt.accepted = false) →
    ∀ first ∈ segment, ∀ second ∈ segment, first.handed = true → second.handed = true →
      first.plaintext = second.plaintext

section

variable {prims : Primitives} {ctx : StreamContext} {w : Wire} {bufs : List Bytes}

theorem nonce_of_segment {before segment after : List Attempt}
    (hsplit : before ++ segment ++ after = attempts prims ctx w bufs)
    (hnone : ∀ attempt ∈ segment.dropLast, attempt.accepted = false) (attempt : Attempt)
    (hmem : attempt ∈ segment) :
    attempt.nonce = ctx.writeNonce + UInt64.ofNat (acceptedCount before) := by
  obtain ⟨front, back, rfl⟩ := List.append_of_mem hmem
  have hwhole : attempts prims ctx w bufs = (before ++ front) ++ attempt :: (back ++ after) := by
    rw [← hsplit]
    simp
  have hfront : acceptedCount front = 0 := by
    apply count_of_not_accepted
    intro other hother
    apply hnone
    rw [List.dropLast_append_of_ne_nil (List.cons_ne_nil _ _)]
    exact List.mem_append_left _ hother
  rw [nonce_eq_acceptedCount prims bufs ctx w _ _ _ hwhole, acceptedCount_append, hfront,
    Nat.add_zero]

/-- Between two calls with one nonce, none was accepted, unless the counter went all the way round. -/
theorem count_between {before between after : List Attempt} {first second : Attempt}
    (hlength : bufs.length ≤ 2 ^ 64)
    (hsplit : attempts prims ctx w bufs = before ++ first :: (between ++ second :: after))
    (hnonce : first.nonce = second.nonce) : acceptedCount (first :: between) = 0 := by
  have hsplit' : attempts prims ctx w bufs =
      (before ++ first :: between) ++ second :: after := by
    rw [hsplit]
    simp
  have hbound : acceptedCount (first :: between) < 2 ^ 64 := by
    have hcount : acceptedCount (first :: between) ≤ (first :: between).length :=
      List.countP_le_length
    have htotal := congrArg List.length hsplit'
    simp only [length_attempts, List.length_append, List.length_cons] at htotal hcount
    omega
  rw [nonce_eq_acceptedCount prims bufs ctx w _ _ _ hsplit,
    nonce_eq_acceptedCount prims bufs ctx w _ _ _ hsplit', acceptedCount_append, UInt64.ofNat_add,
    ← UInt64.add_assoc, UInt64.left_eq_add] at hnonce
  have hnat := congrArg UInt64.toNat hnonce
  rwa [UInt64.toNat_ofNat', Nat.mod_eq_of_lt hbound] at hnat

theorem same_plaintext_of_split {before between after : List Attempt} {first second : Attempt}
    (hlength : bufs.length ≤ 2 ^ 64) (hresends : Resends (attempts prims ctx w bufs))
    (hsplit : attempts prims ctx w bufs = before ++ first :: (between ++ second :: after))
    (hfirst : first.handed = true) (hsecond : second.handed = true)
    (hnonce : first.nonce = second.nonce) : first.plaintext = second.plaintext := by
  have hnone := not_accepted_of_count (count_between hlength hsplit hnonce)
  refine hresends (first :: between ++ [second]) ⟨before, after, ?_⟩ ?_ first ?_ second ?_ hfirst
    hsecond
  · rw [hsplit]
    simp
  · rw [List.dropLast_concat]
    exact hnone
  · exact List.mem_append_left _ List.mem_cons_self
  · exact List.mem_append_right _ (List.mem_singleton_self _)

/-- **Nonces.** In a run of at most `2^64` writes, no nonce protects two different plaintexts of which
the raw stream took ciphertext, if and only if after a call that is not accepted the caller repeats
its plaintext until a call is accepted, as far as the raw stream takes anything of it. -/
theorem nonceUsedOnce_iff_resends (prims : Primitives) (ctx : StreamContext) (w : Wire)
    (bufs : List Bytes) (hlength : bufs.length ≤ 2 ^ 64) :
    NonceUsedOnce (attempts prims ctx w bufs) ↔ Resends (attempts prims ctx w bufs) := by
  constructor
  · rintro honce segment ⟨before, after, hsplit⟩ hnone first hfirst second hsecond hhanded hhanded'
    have hmem (attempt : Attempt) (hattempt : attempt ∈ segment) :
        attempt ∈ attempts prims ctx w bufs := by
      rw [← hsplit]
      exact List.mem_append_left _ (List.mem_append_right _ hattempt)
    apply honce first (hmem first hfirst) second (hmem second hsecond) hhanded hhanded'
    rw [nonce_of_segment hsplit hnone first hfirst, nonce_of_segment hsplit hnone second hsecond]
  · intro hresends first hfirst second hsecond hhanded hhanded' hnonce
    obtain ⟨before, after, hsplit⟩ := List.append_of_mem hfirst
    rw [hsplit, List.mem_append, List.mem_cons] at hsecond
    rcases hsecond with hearlier | rfl | hlater
    · obtain ⟨front, between, rfl⟩ := List.append_of_mem hearlier
      rw [List.append_assoc, List.cons_append] at hsplit
      exact (same_plaintext_of_split hlength hresends hsplit hhanded' hhanded hnonce.symm).symm
    · rfl
    · obtain ⟨between, back, rfl⟩ := List.append_of_mem hlater
      exact same_plaintext_of_split hlength hresends hsplit hhanded hhanded' hnonce

end

def streamContext0 : StreamContext := ⟨[1], [1], 0, 0, [], 0⟩

def wireWith (outcomes : List WriteOutcome) : Wire := Duplex.Wire.fresh [] [] outcomes []

theorem resends_two_writes :
    (attempts Primitives.plain streamContext0 (wireWith []) [[5], [6]]).map Attempt.nonce = [0, 1] ∧
      Resends (attempts Primitives.plain streamContext0 (wireWith []) [[5], [6]]) := by
  refine ⟨by decide,
    (nonceUsedOnce_iff_resends Primitives.plain streamContext0 (wireWith []) [[5], [6]]
      (by decide)).mp ?_⟩
  unfold NonceUsedOnce
  decide

/-- The raw stream takes three bytes of the first ciphertext, and the next write, of another plaintext,
goes out in full under the same nonce. -/
theorem nonce_reused_after_short_write :
    let list := attempts Primitives.plain streamContext0 (wireWith [⟨2, false⟩, ⟨3, false⟩]) [[5], [6]]
    list.map Attempt.ret = [-1, 1] ∧ list.map Attempt.nonce = [0, 0] ∧ ¬ NonceUsedOnce list := by
  unfold NonceUsedOnce
  decide

end CLibp2p.Noise
