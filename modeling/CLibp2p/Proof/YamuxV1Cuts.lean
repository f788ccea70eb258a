import CLibp2p.Proof.YamuxV1Backlog

/-!
# Where the parent stream cuts

`libp2p_yamux_read` takes each message of the parent stream for one frame. It fetches the rest of a DATA
frame whose payload is not all there, and looks for nothing else: a header that was cut is dropped, and
what follows a frame in one message is taken for its payload. Cuts that give each frame a message of its
own, with the whole header, all leave the same session behind.
-/

namespace CLibp2p.YamuxV1

open Duplex

/-! ### Frames on the wire -/

/-- A well-formed frame: only DATA has a payload, and the header gives its length. -/
structure Packet where
  header : Frame
  payload : Bytes
  version : header.version = yamuxVersion
  sized : header.type = frameData → payload.length = header.length.toNat
  bare : header.type ≠ frameData → payload = []

def Packet.bytes (packet : Packet) : Bytes := packet.header.network ++ packet.payload

/-- The bytes of the frames, one after the other. -/
def wire (packets : List Packet) : Bytes := packets.flatMap Packet.bytes

/-- Read until the parent has returned every message of the list, each one reaching up to its cut. -/
def readAll (env : Env) : List Nat → Context → Bytes → Context
  | [], ctx, _ => ctx
  | cut :: cuts, ctx, inbound =>
      match yamuxRead env ctx ⟨inbound, cut :: cuts⟩ with
      | (_, _, ctx, parent) => readAll env cuts ctx parent.inbound

/-- Each message has one frame: its header, and as much of its payload as leaves less than 2^31 bytes. -/
def OneFrameEach : List Packet → List Nat → Prop
  | [], [] => True
  | packet :: packets, cut :: cuts =>
      (Frame.size ≤ cut ∧ cut ≤ packet.bytes.length ∧ packet.bytes.length < cut + 2 ^ 31) ∧
        OneFrameEach packets cuts
  | _, _ => False

/-! ### The session stays established -/

theorem Effect.state_eq {env : Env} {ctx ctx' : Context} (heffect : Effect env ctx ctx') :
    ctx'.state = ctx.state := by
  induction heffect with
  | refl => rfl
  | _ => assumption

theorem channelNew_state (ctx : Context) (id : UInt32) : (channelNew ctx id).2.state = ctx.state := by
  obtain ⟨streams, channels, numStreams, fault, hrest⟩ := channelNew_rest ctx id
  rw [hrest, pickId]
  split <;> rfl

theorem decodeSession_state (env : Env) (ctx : Context) (f : Frame) :
    (decodeSession env ctx f).2.state = ctx.state := by
  unfold decodeSession sessionPing
  repeat' first | split | rfl

theorem decode_state (env : Env) (ctx : Context) (incoming : Bytes) :
    (decode env ctx incoming).2.2.state = ctx.state := by
  unfold decode
  cases Frame.read env.host incoming with
  | none => rfl
  | some f =>
      by_cases hversion : f.version = yamuxVersion
      · by_cases hid : f.streamid = 0
        · simp only [hversion, hid, ne_eq, not_true_eq_false, if_true, if_false]
          exact decodeSession_state env ctx f
        · simp only [hversion, hid, ne_eq, not_true_eq_false, if_false]
          have hfind : (findStream ctx f.streamid).2.state = ctx.state := rfl
          split <;> rename_i heq <;> rw [heq] at hfind
          · exact (decodeStream_effect env _ _ f incoming).state_eq.trans hfind
          · rename_i ctx'
            have hnew := channelNew_state ctx' f.streamid
            unfold decodeNew
            by_cases hsyn : f.has frameSyn
            · by_cases hparity : inboundParity ctx' f.streamid
              · simp only [hsyn, hparity, if_true]
                split <;> rename_i heq' <;> rw [heq'] at hnew
                · exact hnew.trans hfind
                · exact (acceptStream_effect env _ _ f incoming).state_eq.trans (hnew.trans hfind)
              · simp only [hsyn, hparity, if_true, Bool.false_eq_true, if_false]
                exact hfind
            · simp only [hsyn, Bool.false_eq_true, if_false]
              exact hfind
      · simp only [hversion, ne_eq, not_false_eq_true, if_true]

/-! ### One frame in one message -/

theorem asInt_of_lt {n : Int} (hnonneg : 0 ≤ n) (hlt : n < 2 ^ 31) : asInt n = n := by
  unfold asInt
  rw [Int.bmod_eq_of_le] <;> omega

theorem Packet.length_bytes (packet : Packet) :
    packet.bytes.length = Frame.size + packet.payload.length := by
  rw [Packet.bytes, List.length_append, Frame.length_network]

theorem Packet.take_bytes (packet : Packet) (rest : Bytes) {cut : Nat} (hheader : Frame.size ≤ cut)
    (hcut : cut ≤ packet.bytes.length) :
    (packet.bytes ++ rest).take cut =
      packet.header.network ++ packet.payload.take (cut - Frame.size) := by
  rw [List.take_append_of_le_length hcut, Packet.bytes, List.take_append, Frame.length_network,
    List.take_of_length_le (by rw [Frame.length_network]; exact hheader)]

theorem Packet.moreToRead (env : Env) (packet : Packet) {cut : Nat} (hheader : Frame.size ≤ cut)
    (hcut : cut ≤ packet.bytes.length) (hmissing : packet.bytes.length < cut + 2 ^ 31) :
    YamuxV1.moreToRead env
        (packet.header.network ++ packet.payload.take (cut - Frame.size)) =
      (packet.bytes.length - cut : Nat) := by
  have hlength := packet.length_bytes
  have htaken : (packet.payload.take (cut - Frame.size)).length = cut - Frame.size := by
    rw [List.length_take]
    omega
  unfold YamuxV1.moreToRead
  rw [Frame.read_network_append]
  by_cases hdata : packet.header.type = frameData
  · have hsized := packet.sized hdata
    dsimp only
    rw [if_pos hdata, List.length_append, Frame.length_network, htaken]
    have hvalue : (packet.header.length.toNat : Int) -
        ((Frame.size + (cut - Frame.size) : Nat) - (Frame.size : Int)) =
          (packet.bytes.length - cut : Nat) := by
      omega
    rw [hvalue]
    exact asInt_of_lt (by omega) (by omega)
  · have hbare := packet.bare hdata
    dsimp only
    rw [if_neg hdata]
    have hzero : packet.bytes.length - cut = 0 := by
      rw [hlength, hbare, List.length_nil]
      omega
    rw [hzero]
    rfl

theorem yamuxRead_complete (env : Env) {ctx : Context} (hest : ctx.state = .est)
    {parent parent' parent'' : Parent} {incoming rest : Bytes} {missing : Nat}
    (hread : parent.read = (incoming, parent')) (hsome : incoming ≠ [])
    (hmore : moreToRead env incoming = missing)
    (hraw : parent'.readRaw missing = (rest, parent'')) (hrest : rest.length = missing) :
    (yamuxRead env ctx parent).2.2 = ((decode env ctx (incoming ++ rest)).2.2, parent'') := by
  unfold yamuxRead
  rw [hread]
  simp only [hsome, hest, if_false, ne_eq, not_true_eq_false, hmore, Int.toNat_natCast, hraw]
  cases missing with
  | zero =>
      obtain rfl : rest = [] := List.length_eq_zero_iff.mp hrest
      obtain rfl : parent' = parent'' := congrArg Prod.snd hraw
      simp only [Nat.cast_zero, lt_irrefl, false_and, if_false]
      split <;> [rfl; (split <;> rfl)]
  | succ n =>
      have hpos : (0 : Int) < (n + 1 : Nat) := by omega
      simp only [hpos, if_true, true_and, hrest, not_true_eq_false, if_false]
      split <;> [rfl; (split <;> rfl)]

/-- Reading a message that has one frame decodes that frame, wherever its payload was cut. -/
theorem yamuxRead_packet (env : Env) {ctx : Context} (hest : ctx.state = .est) (packet : Packet)
    (rest : Bytes) {cut : Nat} (cuts : List Nat) (hheader : Frame.size ≤ cut)
    (hcut : cut ≤ packet.bytes.length) (hmissing : packet.bytes.length < cut + 2 ^ 31) :
    (yamuxRead env ctx ⟨packet.bytes ++ rest, cut :: cuts⟩).2.2 =
      ((decode env ctx packet.bytes).2.2, ⟨rest, cuts⟩) := by
  have hmore := packet.moreToRead env hheader hcut hmissing
  rw [← packet.take_bytes rest hheader hcut] at hmore
  have hsome : (packet.bytes ++ rest).take cut ≠ [] := by
    intro hempty
    have hzero := congrArg List.length hempty
    rw [List.length_take, List.length_append, List.length_nil] at hzero
    have hsize : Frame.size = 12 := rfl
    omega
  -- what `read_raw` returns completes the frame
  have hraw : Parent.readRaw ⟨(packet.bytes ++ rest).drop cut, cuts⟩ (packet.bytes.length - cut) =
      (packet.bytes.drop cut, ⟨rest, cuts⟩) := by
    unfold Parent.readRaw
    rw [List.drop_append_of_le_length hcut, List.take_left' List.length_drop,
      List.drop_left' List.length_drop]
  have hwhole : (packet.bytes ++ rest).take cut ++ packet.bytes.drop cut = packet.bytes := by
    rw [List.take_append_of_le_length hcut, List.take_append_drop]
  have hread : Parent.read ⟨packet.bytes ++ rest, cut :: cuts⟩ =
      ((packet.bytes ++ rest).take cut, ⟨(packet.bytes ++ rest).drop cut, cuts⟩) := rfl
  rw [yamuxRead_complete env hest hread hsome hmore hraw List.length_drop, hwhole]

theorem readAll_packets (env : Env) {packets : List Packet} {cuts : List Nat}
    (heach : OneFrameEach packets cuts) {ctx : Context} (hest : ctx.state = .est) :
    readAll env cuts ctx (wire packets) =
      packets.foldl (fun ctx packet => (decode env ctx packet.bytes).2.2) ctx := by
  induction packets generalizing cuts ctx with
  | nil =>
      cases cuts with
      | nil => rfl
      | cons cut cuts => exact absurd heach id
  | cons packet packets ih =>
      cases cuts with
      | nil => exact absurd heach id
      | cons cut cuts =>
          obtain ⟨⟨hheader, hcut, hmissing⟩, hothers⟩ := heach
          have hread := yamuxRead_packet env hest packet (wire packets) cuts hheader hcut hmissing
          have hest' : (decode env ctx packet.bytes).2.2.state = .est :=
            (decode_state env ctx packet.bytes).trans hest
          rw [List.foldl_cons, ← ih hothers hest']
          have hwire : wire (packet :: packets) = packet.bytes ++ wire packets := List.flatMap_cons
          rw [readAll, hwire]
          exact congrArg (fun after => readAll env cuts after.1 after.2.inbound) hread

/-- What is available on each channel. -/
def available (ctx : Context) : List (UInt32 × Bytes) :=
  ctx.channels.map fun channel => (channel.channel, channel.buffer)

/-- The ids of the streams that are open. -/
def openIds (ctx : Context) : List UInt32 :=
  (ctx.streams.filter fun slot => slot.alive && !isOver ctx slot).map fun slot => slot.stream.id

/-- **Cuts that do not matter.** On an established session, two ways of cutting that give each frame a
message of its own leave the same bytes available and the same channels open. -/
theorem readAll_eq_of_oneFrameEach (env : Env) {ctx : Context} (hest : ctx.state = .est)
    (packets : List Packet) {cuts cuts' : List Nat} (heach : OneFrameEach packets cuts)
    (heach' : OneFrameEach packets cuts') :
    available (readAll env cuts ctx (wire packets)) = available (readAll env cuts' ctx (wire packets)) ∧
      openIds (readAll env cuts ctx (wire packets)) = openIds (readAll env cuts' ctx (wire packets)) := by
  rw [readAll_packets env heach hest, readAll_packets env heach' hest]
  exact ⟨rfl, rfl⟩

/-- A SYN without a payload. -/
def synPacket (id : UInt32) : Packet where
  header := ⟨yamuxVersion, frameWindowUpdate, frameSyn, id, 0⟩
  payload := []
  version := rfl
  sized hdata := absurd hdata (by decide : frameWindowUpdate ≠ frameData)
  bare _ := rfl

/-- Five bytes of data. -/
def helloPacket (id : UInt32) : Packet where
  header := ⟨yamuxVersion, frameData, 0, id, 5⟩
  payload := [104, 101, 108, 108, 111]
  version := rfl
  sized _ := rfl
  bare hdata := absurd rfl hdata

/-- The payload may be cut anywhere. -/
theorem readAll_eq_of_oneFrameEach_hello :
    available (readAll ⟨.little, fun _ => false, true⟩ [12, 17] (sessionStart 256 true .est [])
        (wire [synPacket 1, helloPacket 1])) =
      available (readAll ⟨.little, fun _ => false, true⟩ [12, 14] (sessionStart 256 true .est [])
        (wire [synPacket 1, helloPacket 1])) :=
  (readAll_eq_of_oneFrameEach ⟨.little, fun _ => false, true⟩ rfl [synPacket 1, helloPacket 1]
    (by simp only [OneFrameEach]; decide) (by simp only [OneFrameEach]; decide)).1

/-- A SYN and the first data in one message: the channel gets the second header as data. -/
theorem readAll_coalesced_fails :
    ¬∀ (env : Env) (ctx : Context) (packets : List Packet) (cuts cuts' : List Nat),
      ctx.state = .est → cuts.sum = (wire packets).length → cuts'.sum = (wire packets).length →
      available (readAll env cuts ctx (wire packets)) =
        available (readAll env cuts' ctx (wire packets)) := by
  intro hall
  have hsame := hall ⟨.little, fun _ => false, true⟩ (sessionStart 256 true .est [])
    [synPacket 1, helloPacket 1] [12, 17] [29] rfl rfl rfl
  exact absurd hsame (by decide)

end CLibp2p.YamuxV1
