import CLibp2p.Proof.YamuxV1Backlog
import CLibp2p.Proof.YamuxV1Errors
import CLibp2p.YamuxV1.ReadRaw

/-!
# Messages and raw reads of a v1 session

`yamux_decode` sets a message for one kind of frame, a SYN with bytes behind it, and reports success for
many others, which it deals with itself. `libp2p_yamux_read` passes that success on, and
`libp2p_yamux_read_raw` then uses a message that is not there.
-/

namespace CLibp2p.YamuxV1

open Duplex Machine

/-! ### Frames that `yamux_decode` deals with itself -/

/-- A frame of the session level that is no error: a ping, the answer to one, or the end of the session. -/
def ControlObeyed (env : Env) (ctx : Context) (f : Frame) : Prop :=
  (f.type = framePing ∧ (f.has frameSyn ∨ (f.has frameAck ∧ ctx.pongFn ∧ env.clock))) ∨
    f.type = frameGoAway

/-- Bytes that `yamux_decode` takes without an error and without a message for its caller: too few for a
header, a header of another version, a frame of the session level, a frame of a stream in the table, or a
SYN with nothing behind it. -/
inductive Swallowed (env : Env) (ctx : Context) (incoming : Bytes) : Prop where
  | short (hshort : incoming.length < Frame.size)
  | version {f : Frame} (hread : Frame.read env.host incoming = some f)
      (hversion : f.version ≠ yamuxVersion)
  | control {f : Frame} (hread : Frame.read env.host incoming = some f)
      (hversion : f.version = yamuxVersion) (hid : f.streamid = 0) (hobeyed : ControlObeyed env ctx f)
  | stream {f : Frame} {i : Nat} {slot : SessionStream}
      (haddressed : Addressed env ctx incoming f i slot) (haccepted : FlagsAccepted slot f)
      (hprocess : ¬ProcessFails ctx slot f (incoming.drop Frame.size))
  | opening {f : Frame} (hread : Frame.read env.host incoming = some f)
      (hversion : f.version = yamuxVersion) (hid : f.streamid ≠ 0)
      (hmissing : (findStream ctx f.streamid).1 = none) (hsyn : f.has frameSyn)
      (hbare : incoming.length = Frame.size) (hroom : inboundParity ctx f.streamid → HasRoom ctx)

/-- The call succeeds and sets no message. -/
def Silent (result : Int × Option Bytes × Context) : Prop := 0 ≤ result.1 ∧ result.2.1 = none

theorem Frame.ofImage_ne_none (host : Endian) {bytes : Bytes} (hlength : bytes.length = Frame.size) :
    Frame.ofImage host bytes ≠ none := by
  match bytes, hlength with
  | [_, _, _, _, _, _, _, _, _, _, _, _], _ => exact fun hnone => nomatch hnone

theorem Frame.read_eq_none_iff {host : Endian} {incoming : Bytes} :
    Frame.read host incoming = none ↔ incoming.length < Frame.size := by
  refine ⟨fun hread => ?_, Frame.read_of_short⟩
  by_contra hlong
  have hlength : (incoming.take size).length = size := by
    rw [List.length_take]
    exact Nat.min_eq_left (not_lt.mp hlong)
  rw [read, Option.map_eq_none_iff] at hread
  exact Frame.ofImage_ne_none host hlength hread

theorem decodeSession_nonneg_iff (env : Env) (ctx : Context) (f : Frame) :
    0 ≤ (decodeSession env ctx f).1 ↔ ControlObeyed env ctx f := by
  have hproto : ¬(0 : Int) ≤ -eproto := by decide
  have hacces : ¬(0 : Int) ≤ -eacces := by decide
  unfold decodeSession ControlObeyed
  by_cases hping : f.type = framePing
  · have haway : f.type ≠ frameGoAway := by
      rw [hping]
      decide
    rw [if_pos hping]
    by_cases hsyn : f.has frameSyn
    · rw [if_pos hsyn]
      exact iff_of_true (le_refl 0) (Or.inl ⟨hping, Or.inl hsyn⟩)
    · rw [if_neg hsyn]
      by_cases hanswer : f.has frameAck && ctx.pongFn
      · rw [if_pos hanswer]
        rw [Bool.and_eq_true] at hanswer
        by_cases hclock : env.clock
        · rw [if_pos hclock]
          exact iff_of_true (le_refl 0) (Or.inl ⟨hping, Or.inr ⟨hanswer.1, hanswer.2, hclock⟩⟩)
        · rw [if_neg hclock]
          refine iff_of_false hacces ?_
          rintro (⟨-, hyes | ⟨-, -, hyes⟩⟩ | hyes)
          · exact hsyn hyes
          · exact hclock hyes
          · exact haway hyes
      · rw [if_neg hanswer]
        refine iff_of_false hproto ?_
        rintro (⟨-, hyes | ⟨hack, hpong, -⟩⟩ | hyes)
        · exact hsyn hyes
        · exact hanswer (Bool.and_eq_true_iff.mpr ⟨hack, hpong⟩)
        · exact haway hyes
  · rw [if_neg hping]
    by_cases haway : f.type = frameGoAway
    · rw [if_pos haway]
      exact iff_of_true (le_refl 0) (Or.inr haway)
    · rw [if_neg haway]
      refine iff_of_false hproto ?_
      rintro (⟨hyes, -⟩ | hyes)
      · exact hping hyes
      · exact haway hyes

theorem decodeNew_silent_iff (env : Env) (ctx : Context) {f : Frame} (hid : f.streamid ≠ 0)
    (incoming : Bytes) :
    Silent (decodeNew env ctx f incoming) ↔ f.has frameSyn ∧ incoming.length ≤ Frame.size ∧
      (inboundParity ctx f.streamid → HasRoom ctx) := by
  have hproto : ¬(0 : Int) ≤ -eproto := by decide
  have hpull : pullMessageFromFrame incoming = none ↔ incoming.length ≤ Frame.size := by
    unfold pullMessageFromFrame
    split <;> simp_all
  unfold decodeNew Silent
  by_cases hsyn : f.has frameSyn
  · rw [if_pos hsyn]
    dsimp only
    by_cases hparity : inboundParity ctx f.streamid
    · rw [if_pos hparity]
      have hroom : (channelNew ctx f.streamid).1 = none ↔ ¬HasRoom ctx := channelNew_eq_none_iff
      rcases hnew : channelNew ctx f.streamid with ⟨_ | c, ctx'⟩
      · rw [hnew] at hroom
        refine iff_of_false (fun hboth => hproto hboth.1) ?_
        rintro ⟨-, -, hfree⟩
        exact hroom.mp rfl (hfree hparity)
      · rw [hnew] at hroom
        have hnonneg := acceptStream_nonneg env (c := c) (channelNew_holds hid hnew) incoming
        have hfree : HasRoom ctx := by
          by_contra hnone
          cases hroom.mpr hnone
        dsimp only
        rw [hpull]
        exact ⟨fun hboth => ⟨hsyn, hboth.2, fun _ => hfree⟩, fun hall => ⟨hnonneg, hall.2.1⟩⟩
    · rw [if_neg hparity, hpull]
      exact ⟨fun hboth => ⟨hsyn, hboth.2, fun hyes => absurd hyes hparity⟩,
        fun hall => ⟨le_refl 0, hall.2.1⟩⟩
  · rw [if_neg hsyn]
    exact iff_of_false (fun hboth => hproto hboth.1) fun hall => hsyn hall.1

theorem decodeStream_nonneg_iff (env : Env) {ctx : Context} {i : Nat} {slot : SessionStream}
    (hslot : ctx.streams[i]? = some slot) (f : Frame) {incoming : Bytes}
    (hheader : Frame.size ≤ incoming.length) :
    0 ≤ (decodeStream env ctx i f incoming).1 ↔
      FlagsAccepted slot f ∧ ¬ProcessFails ctx slot f (incoming.drop Frame.size) := by
  by_cases haccepted : FlagsAccepted slot f
  · rw [← not_lt, decodeStream_neg_iff env hslot haccepted hheader, and_iff_right haccepted]
  · have hproto : ¬(0 : Int) ≤ -eproto := by decide
    unfold decodeStream
    simp only [hslot, decodeFlags_of_not_accepted haccepted]
    exact iff_of_false hproto fun hboth => haccepted hboth.1

theorem Addressed.silent_iff {env : Env} {ctx : Context} {incoming : Bytes} {f : Frame} {i : Nat}
    {slot : SessionStream} (haddressed : Addressed env ctx incoming f i slot) :
    Silent (decode env ctx incoming) ↔
      FlagsAccepted slot f ∧ ¬ProcessFails ctx slot f (incoming.drop Frame.size) := by
  have hheader : Frame.size ≤ incoming.length := Frame.size_le_of_read haddressed.read
  have hslot : (findStream ctx f.streamid).2.streams[i]? = some slot := haddressed.slot
  have hnonneg := decodeStream_nonneg_iff env hslot f hheader
  rw [haddressed.decode_eq, Silent]
  exact ⟨fun hboth => hnonneg.mp hboth.1, fun htaken => ⟨hnonneg.mpr htaken, rfl⟩⟩

theorem swallowed_addressed_iff {env : Env} {ctx : Context} {incoming : Bytes} {f : Frame} {i : Nat}
    {slot : SessionStream} (haddressed : Addressed env ctx incoming f i slot) :
    Swallowed env ctx incoming ↔
      FlagsAccepted slot f ∧ ¬ProcessFails ctx slot f (incoming.drop Frame.size) := by
  have hread := haddressed.read
  constructor
  · intro hswallowed
    cases hswallowed with
    | short hshort =>
        rw [Frame.read_of_short hshort] at hread
        cases hread
    | version hother hversion =>
        obtain rfl := Option.some.inj (hread.symm.trans hother)
        exact absurd haddressed.version hversion
    | control hother _ hid =>
        obtain rfl := Option.some.inj (hread.symm.trans hother)
        exact absurd hid haddressed.streamid
    | stream hother haccepted hprocess =>
        obtain rfl := Option.some.inj (hread.symm.trans hother.read)
        obtain rfl := Option.some.inj (haddressed.found.symm.trans hother.found)
        obtain rfl := Option.some.inj (haddressed.slot.symm.trans hother.slot)
        exact ⟨haccepted, hprocess⟩
    | opening hother _ _ hmissing =>
        obtain rfl := Option.some.inj (hread.symm.trans hother)
        rw [haddressed.found] at hmissing
        cases hmissing
  · rintro ⟨haccepted, hprocess⟩
    exact .stream haddressed haccepted hprocess

theorem decode_new {env : Env} {ctx : Context} {incoming : Bytes} {f : Frame}
    (hread : Frame.read env.host incoming = some f) (hversion : f.version = yamuxVersion)
    (hid : f.streamid ≠ 0) (hmissing : (findStream ctx f.streamid).1 = none) :
    decode env ctx incoming = decodeNew env (findStream ctx f.streamid).2 f incoming := by
  have hfind : findStream ctx f.streamid = (none, (findStream ctx f.streamid).2) := Prod.ext hmissing rfl
  unfold decode
  rw [hread]
  dsimp only
  rw [if_neg (not_not.mpr hversion), if_neg hid, hfind]

/-- The calls that succeed without a message are those for the frames that are dealt with inside. -/
theorem decode_silent_iff (env : Env) (ctx : Context) (incoming : Bytes) :
    Silent (decode env ctx incoming) ↔ Swallowed env ctx incoming := by
  cases hread : Frame.read env.host incoming with
  | none =>
      have hdecode : decode env ctx incoming = (0, none, ctx) := by
        rw [decode, hread]
      rw [hdecode]
      exact iff_of_true ⟨le_refl 0, rfl⟩ (.short (Frame.read_eq_none_iff.mp hread))
  | some f =>
      have hsame : ∀ {f'}, Frame.read env.host incoming = some f' → f' = f := fun hother =>
        Option.some.inj (hother.symm.trans hread)
      have hlong : ¬incoming.length < Frame.size := not_lt.mpr (Frame.size_le_of_read hread)
      by_cases hversion : f.version = yamuxVersion
      · by_cases hid : f.streamid = 0
        · have hdecode : Silent (decode env ctx incoming) ↔ 0 ≤ (decodeSession env ctx f).1 := by
            unfold decode Silent
            rw [hread]
            dsimp only
            rw [if_neg (not_not.mpr hversion), if_pos hid]
            exact and_iff_left rfl
          rw [hdecode, decodeSession_nonneg_iff]
          constructor
          · exact .control hread hversion hid
          · intro hswallowed
            cases hswallowed with
            | short hshort => exact absurd hshort hlong
            | version hother hwrong =>
                obtain rfl := hsame hother
                exact absurd hversion hwrong
            | control hother _ _ hobeyed =>
                obtain rfl := hsame hother
                exact hobeyed
            | stream hother =>
                obtain rfl := hsame hother.read
                exact absurd hid hother.streamid
            | opening hother _ hnonzero =>
                obtain rfl := hsame hother
                exact absurd hid hnonzero
        · cases hfound : (findStream ctx f.streamid).1 with
          | some i =>
              obtain ⟨hi, -⟩ := List.findIdx?_eq_some_iff_getElem.mp hfound
              have haddressed : Addressed env ctx incoming f i ctx.streams[i] :=
                ⟨hread, hversion, hid, hfound, List.getElem?_eq_getElem hi⟩
              rw [haddressed.silent_iff, swallowed_addressed_iff haddressed]
          | none =>
              rw [decode_new hread hversion hid hfound, decodeNew_silent_iff env _ hid]
              constructor
              · rintro ⟨hsyn, hbare, hroom⟩
                exact .opening hread hversion hid hfound hsyn
                  (Nat.le_antisymm hbare (not_lt.mp hlong)) hroom
              · intro hswallowed
                cases hswallowed with
                | short hshort => exact absurd hshort hlong
                | version hother hwrong =>
                    obtain rfl := hsame hother
                    exact absurd hversion hwrong
                | control hother _ hzero =>
                    obtain rfl := hsame hother
                    exact absurd hzero hid
                | stream hother =>
                    obtain rfl := hsame hother.read
                    rw [hother.found] at hfound
                    cases hfound
                | opening hother _ _ _ hsyn hbare hroom =>
                    obtain rfl := hsame hother
                    exact ⟨hsyn, hbare.le, hroom⟩
      · have hdecode : decode env ctx incoming = (0, none, ctx) := by
          rw [decode, hread]
          dsimp only
          rw [if_pos hversion]
        rw [hdecode]
        exact iff_of_true ⟨le_refl 0, rfl⟩ (.version hread hversion)

/-! ### Reads that succeed -/

theorem decode_message_ne_nil {env : Env} {ctx : Context} {incoming message : Bytes}
    (hmessage : (decode env ctx incoming).2.1 = some message) : message ≠ [] := by
  have hpull : pullMessageFromFrame incoming = some message → message ≠ [] := by
    unfold pullMessageFromFrame
    split
    · exact fun hnone => nomatch hnone
    · rename_i hlong
      intro hsome
      obtain rfl := Option.some.inj hsome
      rw [Ne, List.drop_eq_nil_iff]
      exact hlong
  unfold decode at hmessage
  split at hmessage
  · cases hmessage
  · split at hmessage
    · cases hmessage
    · split at hmessage
      · cases hmessage
      · split at hmessage
        · cases hmessage
        · unfold decodeNew at hmessage
          split at hmessage
          · dsimp only at hmessage
            split at hmessage
            · split at hmessage <;> exact hpull hmessage
            · exact hpull hmessage
          · cases hmessage

/-- The bytes that are missing of a DATA frame, as far as the parent stream has them. -/
def restTaken (env : Env) (parent : Parent) : Bytes × Parent :=
  let more := moreToRead env parent.read.1
  if 0 < more then parent.read.2.readRaw more.toNat else ([], parent.read.2)

/-- The bytes that a read hands to `yamux_decode`, if it gets that far. -/
def frameTaken (env : Env) (ctx : Context) (parent : Parent) : Option Bytes :=
  let more := moreToRead env parent.read.1
  if parent.read.1 = [] ∨ ctx.state ≠ .est ∨
      (0 < more ∧ ((restTaken env parent).1.length : Int) ≠ more) then none
  else some (parent.read.1 ++ (restTaken env parent).1)

/-- What `libp2p_yamux_read` makes of the bytes it hands to `yamux_decode`. -/
theorem yamuxRead_of_taken {env : Env} {ctx : Context} {parent : Parent} {bytes : Bytes}
    (htaken : frameTaken env ctx parent = some bytes) :
    ((yamuxRead env ctx parent).1 ↔ 0 ≤ (decode env ctx bytes).1) ∧
      (yamuxRead env ctx parent).2.1 = (decode env ctx bytes).2.1 := by
  have hnonempty : (decode env ctx bytes).2.1 ≠ some [] := fun hempty =>
    decode_message_ne_nil hempty rfl
  rcases hrest : restTaken env parent with ⟨rest, parent''⟩
  rcases hparent : parent.read with ⟨incoming, parent'⟩
  unfold frameTaken at htaken
  rw [hrest, hparent] at htaken
  dsimp only at htaken
  by_cases hgone : incoming = [] ∨ ctx.state ≠ .est ∨
      (0 < moreToRead env incoming ∧ (rest.length : Int) ≠ moreToRead env incoming)
  · rw [if_pos hgone] at htaken
    cases htaken
  · rw [if_neg hgone, Option.some.injEq] at htaken
    obtain ⟨hsome, hest, hwhole⟩ := (not_or.trans (and_congr_right fun _ => not_or)).mp hgone
    unfold restTaken at hrest
    unfold yamuxRead
    simp only [hparent] at hrest ⊢
    simp only [hrest, if_neg hsome, if_neg hest, if_neg hwhole, htaken]
    rcases hdecode : decode env ctx bytes with ⟨ret, message, ctx'⟩
    rw [hdecode] at hnonempty
    dsimp only at hnonempty ⊢
    by_cases hneg : ret < 0
    · rw [if_pos hneg]
      exact ⟨iff_of_false Bool.false_ne_true (not_le.mpr hneg), rfl⟩
    · rw [if_neg hneg, if_neg hnonempty]
      exact ⟨iff_of_true rfl (not_lt.mp hneg), rfl⟩

/-- A call of `libp2p_yamux_read` that returns true has set a message that is not empty. -/
def ReadGives (env : Env) (ctx : Context) (parent : Parent) : Prop :=
  (yamuxRead env ctx parent).1 →
    ∃ message, message ≠ [] ∧ (yamuxRead env ctx parent).2.1 = some message

theorem readGives_of_none {env : Env} {ctx : Context} {parent : Parent}
    (htaken : frameTaken env ctx parent = none) : ReadGives env ctx parent := by
  rcases hrest : restTaken env parent with ⟨rest, parent''⟩
  rcases hparent : parent.read with ⟨incoming, parent'⟩
  have hgone : incoming = [] ∨ ctx.state ≠ .est ∨
      (0 < moreToRead env incoming ∧ (rest.length : Int) ≠ moreToRead env incoming) := by
    by_contra hnot
    unfold frameTaken at htaken
    rw [hrest, hparent] at htaken
    dsimp only at htaken
    rw [if_neg hnot] at htaken
    cases htaken
  unfold restTaken at hrest
  unfold ReadGives yamuxRead
  simp only [hparent] at hrest ⊢
  simp only [hrest]
  by_cases hempty : incoming = []
  · rw [if_pos hempty]
    exact fun hfalse => absurd hfalse Bool.false_ne_true
  · rw [if_neg hempty]
    by_cases hstate : ctx.state ≠ .est
    · rw [if_pos hstate]
      split
      · exact fun hfalse => absurd hfalse Bool.false_ne_true
      · exact fun _ => ⟨incoming, hempty, rfl⟩
    · rw [if_neg hstate, if_pos ((hgone.resolve_left hempty).resolve_left hstate)]
      exact fun hfalse => absurd hfalse Bool.false_ne_true

/-- A read gives a message unless it took a frame that is dealt with inside. -/
theorem readGives_iff (env : Env) (ctx : Context) (parent : Parent) :
    ReadGives env ctx parent ↔
      ∀ bytes, frameTaken env ctx parent = some bytes → ¬Swallowed env ctx bytes := by
  cases htaken : frameTaken env ctx parent with
  | none => exact iff_of_true (readGives_of_none htaken) fun _ hnone => nomatch hnone
  | some bytes =>
      obtain ⟨hok, hmessage⟩ := yamuxRead_of_taken htaken
      rw [ReadGives, hok, hmessage]
      constructor
      · intro hgives taken htaken hswallowed
        obtain rfl := Option.some.inj htaken
        obtain ⟨hnonneg, hnone⟩ := (decode_silent_iff env ctx bytes).mpr hswallowed
        obtain ⟨message, -, hsome⟩ := hgives hnonneg
        rw [hnone] at hsome
        cases hsome
      · intro hnot hnonneg
        cases hsome : (decode env ctx bytes).2.1 with
        | none => exact absurd ((decode_silent_iff env ctx bytes).mp ⟨hnonneg, hsome⟩) (hnot bytes rfl)
        | some message => exact ⟨message, decode_message_ne_nil hsome, rfl⟩

/-! ### Runs of raw reads -/

/-- The call is served from a message that is there already, or its read gives one. -/
def Fills (env : Env) (reader : RawReader) (_size : Nat) : Prop :=
  reader.current = none → ∀ bytes, frameTaken env reader.ctx reader.parent = some bytes →
    ¬Swallowed env reader.ctx bytes

/-- The position is one in a message. -/
def RawReader.Tidy (reader : RawReader) : Prop :=
  reader.bufferedMessagePos ≠ none → reader.bufferedMessage ≠ none

/-- The bytes that raw reads still have to hand out. -/
def RawReader.kept (reader : RawReader) : Bytes :=
  match reader.current with
  | some (message, pos) => message.drop pos
  | none => []

theorem RawReader.current_eq_none {reader : RawReader} (htidy : reader.Tidy) :
    reader.current = none ↔ reader.bufferedMessagePos = none := by
  unfold current
  cases hpos : reader.bufferedMessagePos with
  | none => simp
  | some pos =>
      cases hmessage : reader.bufferedMessage with
      | none => exact absurd hmessage (htidy (by simp [hpos]))
      | some message => simp

theorem RawReader.serve_spec (reader : RawReader) (message : Bytes) (pos size : Nat) :
    ∃ taken, (reader.serve message pos size).1 = .bytes taken ∧
      (reader.serve message pos size).2.Tidy ∧
      taken ++ (reader.serve message pos size).2.kept = message.drop pos := by
  unfold serve
  dsimp only
  generalize (if message.length - pos < size then message.length - pos else size) = maxToRead
  by_cases hend : pos + maxToRead = message.length
  · refine ⟨(message.drop pos).take maxToRead, ?_⟩
    rw [if_pos hend]
    refine ⟨rfl, fun hpos => absurd rfl hpos, ?_⟩
    have hrest : (message.drop pos).drop maxToRead = [] := by
      rw [List.drop_drop, hend, List.drop_length]
    have hwhole := List.take_append_drop maxToRead (message.drop pos)
    rw [hrest] at hwhole
    exact hwhole
  · refine ⟨(message.drop pos).take maxToRead, ?_⟩
    rw [if_neg hend]
    refine ⟨rfl, fun _ => Option.some_ne_none message, ?_⟩
    have hwhole := List.take_append_drop maxToRead (message.drop pos)
    rw [List.drop_drop] at hwhole
    exact hwhole

/-- A read that succeeds is not the one that confirms the protocol. -/
theorem yamuxRead_not_confirmed {env : Env} {ctx : Context} {parent : Parent}
    (hok : (yamuxRead env ctx parent).1) :
    ¬(ctx.state ≠ .est ∧ (yamuxRead env ctx parent).2.2.1.state = .est) := by
  rintro ⟨hstate, hconfirmed⟩
  rcases hparent : parent.read with ⟨incoming, parent'⟩
  unfold yamuxRead at hok hconfirmed
  simp only [hparent, if_pos hstate] at hok hconfirmed
  split at hok
  · cases hok
  · rename_i hsome
    rw [if_neg hsome] at hconfirmed
    split at hok
    · cases hok
    · rename_i hother
      rw [if_neg hother] at hconfirmed
      exact hstate hconfirmed

theorem RawReader.fetch_eq {env : Env} {reader : RawReader} {message : Bytes}
    (hok : (yamuxRead env reader.ctx reader.parent).1)
    (hmessage : (yamuxRead env reader.ctx reader.parent).2.1 = some message) :
    (reader.fetch env).1 = true ∧ (reader.fetch env).2.bufferedMessage = some message := by
  have hconfirmed := yamuxRead_not_confirmed hok
  unfold fetch
  dsimp only
  rw [if_neg hconfirmed, hmessage]
  exact ⟨hok, rfl⟩

theorem RawReader.kept_of_current {reader : RawReader} {message : Bytes} {pos : Nat}
    (hcurrent : reader.current = some (message, pos)) : reader.kept = message.drop pos := by
  rw [kept, hcurrent]

theorem RawReader.kept_of_none {reader : RawReader} (hpos : reader.bufferedMessagePos = none) :
    reader.kept = [] := by
  rw [kept, current, hpos]

/-- A call that hands out bytes of a message from `pos` on. -/
theorem rawStep_of_serve {env : Env} {reader source : RawReader} {size pos : Nat} {message : Bytes}
    (hserve : readRaw env reader size = source.serve message pos size) :
    (readRaw env reader size).1 ≠ .fault ∧ (rawStep env reader size).Tidy ∧
      rawReturned env reader size ++ (rawStep env reader size).kept = message.drop pos := by
  obtain ⟨taken, hresult, hnext, hwhole⟩ := source.serve_spec message pos size
  unfold rawStep rawReturned
  rw [hserve, hresult]
  exact ⟨RawResult.noConfusion, hnext, hwhole⟩

/-- What one call does to the bytes that are kept. -/
theorem readRaw_spec {env : Env} {reader : RawReader} {size : Nat} (htidy : reader.Tidy)
    (hfills : Fills env reader size) :
    (readRaw env reader size).1 ≠ .fault ∧ (rawStep env reader size).Tidy ∧
      rawReturned env reader size ++ (rawStep env reader size).kept =
        reader.kept ++ rawMessage env reader size := by
  cases hcurrent : reader.current with
  | some current =>
      obtain ⟨message, pos⟩ := current
      have hserve : readRaw env reader size = reader.serve message pos size := by
        rw [readRaw, hcurrent]
      have hmessage : rawMessage env reader size = [] := by
        rw [rawMessage, hcurrent]
      rw [hmessage, List.append_nil, RawReader.kept_of_current hcurrent]
      exact rawStep_of_serve hserve
  | none =>
      have hpos := (RawReader.current_eq_none htidy).mp hcurrent
      have hgives := (readGives_iff env reader.ctx reader.parent).mpr (hfills hcurrent)
      rw [RawReader.kept_of_none hpos, List.nil_append]
      cases hok : (yamuxRead env reader.ctx reader.parent).1 with
      | false =>
          have hfailed : readRaw env reader size = (.failed, (reader.fetch env).2) := by
            rw [readRaw, hcurrent]
            dsimp only
            rw [show reader.fetch env = (false, (reader.fetch env).2) from Prod.ext hok rfl]
          have hmessage : rawMessage env reader size = [] := by
            rw [rawMessage, hcurrent]
            dsimp only
            rw [show yamuxRead env reader.ctx reader.parent =
              (false, (yamuxRead env reader.ctx reader.parent).2) from Prod.ext hok rfl]
          have hkeeps : (reader.fetch env).2.bufferedMessagePos = none := hpos
          unfold rawStep rawReturned
          rw [hfailed, hmessage]
          refine ⟨RawResult.noConfusion, fun hsome => absurd hkeeps hsome, ?_⟩
          exact RawReader.kept_of_none hkeeps
      | true =>
          obtain ⟨message, -, hsome⟩ := hgives hok
          obtain ⟨hfetched, hbuffered⟩ := RawReader.fetch_eq hok hsome
          have hserve : readRaw env reader size = (reader.fetch env).2.serve message 0 size := by
            rw [readRaw, hcurrent]
            dsimp only
            rw [show reader.fetch env = (true, (reader.fetch env).2) from Prod.ext hfetched rfl]
            dsimp only
            rw [hbuffered]
          have hmessage : rawMessage env reader size = message := by
            rw [rawMessage, hcurrent]
            dsimp only
            rw [show yamuxRead env reader.ctx reader.parent =
              (true, some message, (yamuxRead env reader.ctx reader.parent).2.2) from
                Prod.ext hok (Prod.ext hsome rfl)]
            rfl
          rw [hmessage]
          exact rawStep_of_serve hserve

/-- From a new context, calls whose reads all give a message hand out a prefix of the messages. -/
theorem rawReturned_prefix (env : Env) (ctx : Context) (parent : Parent) {sizes : List Nat}
    (hfills : Along (rawStep env) (Fills env) (.start ctx parent) sizes) :
    Along (rawStep env) (fun reader size => (readRaw env reader size).1 ≠ .fault) (.start ctx parent)
        sizes ∧
      outputs (rawStep env) (rawReturned env) (.start ctx parent) sizes <+:
        outputs (rawStep env) (rawMessage env) (.start ctx parent) sizes := by
  have hkeeps : ∀ reader size, RawReader.Tidy reader → Fills env reader size →
      (rawStep env reader size).Tidy := fun _ _ htidy hfills => (readRaw_spec htidy hfills).2.1
  have hstart : (RawReader.start ctx parent).Tidy := fun hpos => absurd rfl hpos
  have hsteps := hfills.and_invariant hkeeps hstart
  have hkept := outputs_append_kept (fun _ _ hstep => (readRaw_spec hstep.1 hstep.2).2.2) hsteps
  refine ⟨hsteps.mono fun _ _ hstep => (readRaw_spec hstep.1 hstep.2).1, ?_⟩
  exact ⟨_, hkept⟩

/-- **Reads and raw reads.** A read that returns true has set a message exactly when it did not take a
frame that the decoder deals with itself. And a sequence of raw reads of any sizes that meets no such
frame uses no message that is not there, and hands out a prefix of the messages. -/
theorem readGives_and_rawReturned (env : Env) :
    (∀ ctx parent, ReadGives env ctx parent ↔
      ∀ bytes, frameTaken env ctx parent = some bytes → ¬Swallowed env ctx bytes) ∧
    ∀ ctx parent sizes, Along (rawStep env) (Fills env) (.start ctx parent) sizes →
      Along (rawStep env) (fun reader size => (readRaw env reader size).1 ≠ .fault) (.start ctx parent)
          sizes ∧
        outputs (rawStep env) (rawReturned env) (.start ctx parent) sizes <+:
          outputs (rawStep env) (rawMessage env) (.start ctx parent) sizes :=
  ⟨readGives_iff env, fun ctx parent _ hfills => rawReturned_prefix env ctx parent hfills⟩

/-- The peer opens stream 1 with the bytes of "hi" behind its SYN. -/
def hiParent : Parent := ⟨Frame.network ⟨0, frameData, frameSyn, 1, 2⟩ ++ [104, 105], [14]⟩

/-- Two raw reads of one byte each. -/
theorem readGives_and_rawReturned_hi :
    outputs (rawStep ⟨.little, fun _ => false, true⟩) (rawReturned ⟨.little, fun _ => false, true⟩)
        (.start (sessionStart 256 true .est []) hiParent) [1, 1] = [104, 105] ∧
      outputs (rawStep ⟨.little, fun _ => false, true⟩) (rawReturned ⟨.little, fun _ => false, true⟩)
          (.start (sessionStart 256 true .est []) hiParent) [1, 1] <+:
        outputs (rawStep ⟨.little, fun _ => false, true⟩) (rawMessage ⟨.little, fun _ => false, true⟩)
          (.start (sessionStart 256 true .est []) hiParent) [1, 1] := by
  obtain ⟨hgives, hruns⟩ := readGives_and_rawReturned ⟨.little, fun _ => false, true⟩
  have hfills : Along (rawStep ⟨.little, fun _ => false, true⟩) (Fills ⟨.little, fun _ => false, true⟩)
      (.start (sessionStart 256 true .est []) hiParent) [1, 1] := by
    refine ⟨fun _ => (hgives _ _).mp fun _ => ?_, fun hnone => ?_, trivial⟩
    · exact ⟨[104, 105], by decide, by decide⟩
    · exact absurd hnone (by decide)
  exact ⟨by decide, (hruns _ _ _ hfills).2⟩

/-- A read takes a ping and succeeds without a message, and a raw read uses the message. -/
theorem readGives_ping_fails :
    (¬∀ env ctx parent, ReadGives env ctx parent) ∧
      (readRaw ⟨.little, fun _ => false, true⟩ (.start (sessionStart 256 true .est [])
        ⟨Frame.network ⟨0, framePing, frameSyn, 0, 7⟩, [12]⟩) 1).1 = .fault := by
  refine ⟨fun hall => ?_, by decide⟩
  obtain ⟨message, -, hsome⟩ := hall ⟨.little, fun _ => false, true⟩ (sessionStart 256 true .est [])
    ⟨Frame.network ⟨0, framePing, frameSyn, 0, 7⟩, [12]⟩ (by decide)
  have hnone : (yamuxRead ⟨.little, fun _ => false, true⟩ (sessionStart 256 true .est [])
      ⟨Frame.network ⟨0, framePing, frameSyn, 0, 7⟩, [12]⟩).2.1 = none := by decide
  rw [hnone] at hsome
  cases hsome

end CLibp2p.YamuxV1
